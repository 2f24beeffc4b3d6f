import DocblockScan.Proofs.Registration.Sequences

/-!
# Route files lose nothing

Whatever its texts contain, an endpoint is read back from the statement that was
written for it. Every piece of a statement is read on its own, for any text after it;
the pieces of an array only need to know that a comma or a bracket follows.
-/

namespace DocblockScan.Registration

/-! ## Literals -/

/-- The content of a literal is read up to its closing quote. -/
theorem readContent_escape (content after : List Char) :
    readContent (content.flatMap escape ++ '\'' :: after) = some (content, after) := by
  induction content with
  | nil => rfl
  | cons char rest inductionHypothesis =>
      rw [List.flatMap_cons, List.append_assoc]
      by_cases slash : char = '\\'
      · subst slash
        simp [escape, readContent, inductionHypothesis]
      by_cases mark : char = '\''
      · subst mark
        simp [escape, readContent, inductionHypothesis]
      · have plain : escape char = [char] := by simp [escape, slash, mark]
        rw [plain, List.singleton_append, readContent]
        · rw [inductionHypothesis]
          rfl
        · exact mark
        · intro tail same
          exact absurd same slash
        · intro tail same
          exact absurd same slash

/-- A literal starts with its quote. -/
theorem toList_quote (text : String) :
    (quote text).toList = '\'' :: (text.toList.flatMap escape ++ ['\'']) := by
  simp [quote, quoteChars]

/-- A literal is read back, whatever follows it. -/
theorem readQuoted_quote (text : String) (after : List Char) :
    readQuoted ((quote text).toList ++ after) = some (text, after) := by
  have content := readContent_escape text.toList after
  have opened : expect? ['\''] ((quote text).toList ++ after) =
      some (text.toList.flatMap escape ++ '\'' :: after) := by
    rw [toList_quote, List.cons_append, List.append_assoc]
    rfl
  rw [readQuoted, opened]
  simp [content]

/-- A space before a literal makes no difference. -/
theorem readQuoted_space (text : List Char) : readQuoted (' ' :: text) = readQuoted text :=
  rfl

/-! ## Arrays -/

/-- What follows an item inside an array. -/
def EndsEntry (after : List Char) : Prop :=
  ∃ rest, after = ',' :: rest ∨ after = ']' :: rest

section Items

variable {Item : Type} {readItem : List Char → Option (Item × List Char)}

/-- An item is read from its text, if its text starts with a quote and an item ends
after it. -/
def ReadsItem (readItem : List Char → Option (Item × List Char)) (written : List Char)
    (item : Item) : Prop :=
  (∃ rest, written = '\'' :: rest) ∧
    ∀ after, EndsEntry after → readItem (written ++ after) = some (item, after)

/-- An array on one line is read back. -/
theorem readItems_intercalate {items : List Item} {write : Item → List Char}
    (reads : ∀ item ∈ items, ReadsItem readItem (write item) item) {gap : List Char}
    (spaces : Spaces gap) (after : List Char) :
    readItems readItem (gap ++ (List.intercalate [',', ' '] (items.map write) ++ ']' :: after)) =
      some (items, after) := by
  have space : Spaces [' '] := by decide
  rw [readItems_eq_readListed]
  exact readListed_intercalate (by decide) reads spaces space after

/-- An array with a line for each item is read back. -/
theorem readItems_lines {items : List Item} {write : Item → List Char}
    (reads : ∀ item ∈ items, ReadsItem readItem (write item) item) {gap : List Char}
    (spaces : Spaces gap) (after : List Char) :
    readItems readItem
        (gap ++ (items.flatMap (fun item => '\t' :: (write item ++ [',', '\n'])) ++
          ']' :: after)) =
      some (items, after) := by
  rw [readItems_eq_readListed]
  exact readListed_lines (by decide) reads spaces after

end Items

/-! ## Options -/

/-- An entry of an array as it is written. -/
def entryText (entry : Option String × String) : String :=
  match entry.1 with
  | none => quote entry.2
  | some key => pair key (quote entry.2)

/-- The value of an option as it is written. -/
def valueText : OptionValue → String
  | .text content => quote content
  | .array entries => "[" ++ String.intercalate ", " (entries.map entryText) ++ "]"

theorem toList_pair (key value : String) :
    (pair key value).toList = (quote key).toList ++ (" => ".toList ++ value.toList) := by
  simp [pair]

/-- An arrow is read with the space before it. -/
theorem expect?_arrow (text : List Char) :
    expect? "=>".toList (" => ".toList ++ text) = some (' ' :: text) :=
  rfl

/-- No arrow follows an entry. -/
theorem expect?_arrow_of_endsEntry {after : List Char} (ends : EndsEntry after) :
    expect? "=>".toList after = none := by
  obtain ⟨rest, rfl | rfl⟩ := ends <;> rfl

/-- A quoted text is an entry without a key. -/
theorem readsItem_entryText (entry : Option String × String) :
    ReadsItem readEntry (entryText entry).toList entry := by
  obtain ⟨key, value⟩ := entry
  cases key with
  | none =>
      constructor
      · exact ⟨_, by rw [entryText, toList_quote]⟩
      · intro after ends
        simp only [readEntry, entryText, readQuoted_quote, expect?_arrow_of_endsEntry ends,
          Option.bind_eq_bind, Option.bind_some]
        rfl
  | some key =>
      constructor
      · exact ⟨_, by rw [entryText, toList_pair, toList_quote]; rfl⟩
      · intro after ends
        rw [entryText, toList_pair, List.append_assoc, List.append_assoc]
        simp only [readEntry, readQuoted_quote, expect?_arrow, readQuoted_space, Option.bind_eq_bind,
          Option.bind_some]
        rfl

/-- An array of entries is read back after its opening bracket. -/
theorem readItems_entries (entries : List (Option String × String)) (after : List Char) :
    readItems readEntry
        (List.intercalate [',', ' '] (entries.map fun entry => (entryText entry).toList) ++
          ']' :: after) =
      some (entries, after) := by
  have spaces : Spaces [] := nofun
  exact readItems_intercalate (fun entry _ => readsItem_entryText entry) spaces after

theorem toList_array (entries : List (Option String × String)) :
    (valueText (.array entries)).toList =
      '[' :: (List.intercalate [',', ' '] (entries.map fun entry => (entryText entry).toList) ++
        [']']) := by
  simp [valueText, String.toList_intercalate, Function.comp_def]

/-- The value of an option is read back after a space. -/
theorem readValue_valueText (value : OptionValue) (after : List Char) :
    readValue (' ' :: ((valueText value).toList ++ after)) = some (value, after) := by
  cases value with
  | text content =>
      have noArray : expect? ['['] (' ' :: ((quote content).toList ++ after)) = none := by
        rw [toList_quote]
        rfl
      rw [readValue, valueText, noArray]
      simp only [readQuoted_space, readQuoted_quote]
      rfl
  | array entries =>
      have opened : ∀ text, expect? ['['] (' ' :: '[' :: text) = some text := fun _ => rfl
      rw [readValue, toList_array, List.cons_append, opened, List.append_assoc]
      simp only [List.singleton_append, readItems_entries]
      rfl

/-- An option is read back. -/
theorem readsItem_option (option : String × OptionValue) :
    ReadsItem readOption (pair option.1 (valueText option.2)).toList option := by
  obtain ⟨key, value⟩ := option
  constructor
  · exact ⟨_, by rw [toList_pair, toList_quote]; rfl⟩
  · intro after ends
    rw [toList_pair, List.append_assoc, List.append_assoc]
    simp only [readOption, readQuoted_quote, expect?_arrow, readValue_valueText, Option.bind_eq_bind,
      Option.bind_some]
    rfl

/-- The options of a route with their values. -/
def optionValues (endpoint : Endpoint) : List (String × OptionValue) :=
  [("uses", .text endpoint.uses)] ++
    (endpoint.name.map fun name => ("as", .text name)).toList ++
    (if endpoint.allMiddleware.isEmpty then []
      else [("middleware", .array (endpoint.allMiddleware.map (none, ·)))]) ++
    (if endpoint.patterns.isEmpty then []
      else [("where", .array (endpoint.patterns.entries.map fun entry => (some entry.1, entry.2)))]) ++
    (endpoint.domain.map fun domain => ("domain", .text domain)).toList

/-- The options of a route are written by their values. -/
theorem routeOptions_eq (endpoint : Endpoint) :
    routeOptions endpoint =
      (optionValues endpoint).map fun option => (option.1, valueText option.2) := by
  have middleware : shortArray endpoint.allMiddleware =
      valueText (.array (endpoint.allMiddleware.map (none, ·))) := by
    simp [shortArray, valueText, entryText, Function.comp_def]
  have patterns : shortMap endpoint.patterns.entries =
      valueText (.array (endpoint.patterns.entries.map fun entry => (some entry.1, entry.2))) := by
    simp [shortMap, valueText, entryText, Function.comp_def]
  unfold routeOptions optionValues
  rw [middleware, patterns]
  cases endpoint.name <;> cases endpoint.domain <;>
    by_cases noMiddleware : endpoint.allMiddleware.isEmpty = true <;>
    by_cases noPatterns : endpoint.patterns.isEmpty = true <;>
    simp [noMiddleware, noPatterns, valueText]

/-- Items that were brought into a form are taken out of it. -/
theorem mapM_map_some {Item Form : Type} (form : Item → Form) (read : Form → Option Item)
    (reads : ∀ item, read (form item) = some item) (items : List Item) :
    (items.map form).mapM read = some items := by
  induction items with
  | nil => rfl
  | cons item others inductionHypothesis =>
      simp [List.mapM_cons, reads, inductionHypothesis]

theorem list?_array (texts : List String) :
    OptionValue.list? (.array (texts.map (none, ·))) = some texts :=
  mapM_map_some (none, ·) _ (fun _ => rfl) texts

theorem map?_array (entries : List (String × String)) :
    OptionValue.map? (.array (entries.map fun entry => (some entry.1, entry.2))) =
      some entries :=
  mapM_map_some (fun entry : String × String => (some entry.1, entry.2))
    (fun entry => entry.1.map fun key => (key, entry.2)) (fun _ => rfl) entries

/-- The options of a route give back what the route says. -/
theorem ofOptions?_optionValues (endpoint : Endpoint) :
    RouteRecord.ofOptions? endpoint.verbs endpoint.path (optionValues endpoint) =
      some (.ofEndpoint endpoint) := by
  have noMiddleware : endpoint.allMiddleware.isEmpty = true → endpoint.allMiddleware = [] :=
    List.isEmpty_iff.1
  have noPatterns : endpoint.patterns.isEmpty = true → endpoint.patterns.entries = [] :=
    List.isEmpty_iff.1
  unfold RouteRecord.ofOptions? optionValues RouteRecord.ofEndpoint
  cases endpoint.name <;> cases endpoint.domain <;>
    by_cases middleware : endpoint.allMiddleware.isEmpty = true <;>
    by_cases patterns : endpoint.patterns.isEmpty = true <;>
    simp [middleware, patterns, noMiddleware, noPatterns, option?, OptionValue.text?,
      list?_array, map?_array, List.lookup_cons]

/-! ## Statements -/

/-- Every verb is found by its label. -/
theorem find?_label (verb : Verb) :
    (allVerbs.find? fun other => other.label == verb.label) = some verb := by
  cases verb <;> decide

/-- The verbs of an array of labels are read back. -/
theorem readItems_labels (verbs : List Verb) (after : List Char) :
    readItems readQuoted
        (List.intercalate [',', ' '] (verbs.map fun verb => (quote verb.label).toList) ++
          ']' :: after) =
      some (verbs.map Verb.label, after) := by
  have spaces : Spaces [] := nofun
  have reads : ∀ label ∈ verbs.map Verb.label,
      ReadsItem readQuoted (quote label).toList label :=
    fun label _ => ⟨⟨_, toList_quote label⟩, fun after _ => readQuoted_quote label after⟩
  simpa [Function.comp_def] using readItems_intercalate reads spaces after

/-- The call of a single verb is its method. -/
theorem readVerbs_method (verb : Verb) (after : List Char) :
    readVerbs (verb.routerMethod.toList ++ '(' :: after) = some ([verb], after) := by
  cases verb <;> rfl

/-- The call of several verbs, or of none, lists their labels. -/
theorem readVerbs_match (verbs : List Verb) (after : List Char) :
    readVerbs ("match(".toList ++ ((shortArray (verbs.map Verb.label)).toList ++
        (", ".toList ++ after))) = some (verbs, ' ' :: after) := by
  have labels := readItems_labels verbs (", ".toList ++ after)
  have found := mapM_map_some Verb.label
    (fun label => allVerbs.find? fun verb => verb.label == label) find?_label verbs
  have array : (shortArray (verbs.map Verb.label)).toList ++ (", ".toList ++ after) =
      '[' :: (List.intercalate [',', ' '] (verbs.map fun verb => (quote verb.label).toList) ++
        ']' :: (", ".toList ++ after)) := by
    simp [shortArray, String.toList_intercalate, Function.comp_def]
  have named : ∀ text, ("match(".toList ++ text).takeWhile Char.isAlpha = "match".toList :=
    fun _ => rfl
  have opened : ∀ text, expect? ['('] (("match(".toList ++ text).dropWhile Char.isAlpha) =
      some text := fun _ => rfl
  have bracket : ∀ text, expect? ['['] ('[' :: text) = some text := fun _ => rfl
  have comma : expect? [','] (", ".toList ++ after) = some (' ' :: after) := rfl
  simp only [readVerbs, named, opened, array, bracket, labels, found, comma,
    Option.bind_eq_bind, Option.bind_some, if_true]
  rfl

/-- The call that registers some verbs starts with the router and is read back; a space
may be left before the path. -/
theorem readVerbs_routeCall (verbs : List Verb) :
    ∃ call gap, (routeCall verbs).toList = "$router->".toList ++ call ∧
      (gap = [] ∨ gap = [' ']) ∧
      ∀ after, readVerbs (call ++ after) = some (verbs, gap ++ after) := by
  have several : ∀ verbs : List Verb,
      ("$router->match(" ++ shortArray (verbs.map Verb.label) ++ ", ").toList =
        "$router->".toList ++
          ("match(".toList ++ ((shortArray (verbs.map Verb.label)).toList ++ ", ".toList)) := by
    intro verbs
    simp
  have read : ∀ (verbs : List Verb) (after : List Char),
      readVerbs (("match(".toList ++
        ((shortArray (verbs.map Verb.label)).toList ++ ", ".toList)) ++ after) =
        some (verbs, [' '] ++ after) := by
    intro verbs after
    rw [List.append_assoc, List.append_assoc]
    exact readVerbs_match verbs after
  match verbs with
  | [verb] =>
      refine ⟨verb.routerMethod.toList ++ ['('], [], ?_, .inl rfl, fun after => ?_⟩
      · simp [routeCall]
      · rw [List.append_assoc]
        exact readVerbs_method verb after
  | [] => exact ⟨_, [' '], several [], .inr rfl, read []⟩
  | first :: second :: others =>
      exact ⟨_, [' '], several (first :: second :: others), .inr rfl,
        read (first :: second :: others)⟩

/-- The statement of an endpoint in pieces: the call, the path, the options. -/
theorem toList_routeStatement (endpoint : Endpoint) :
    (routeStatement endpoint).toList =
      (routeCall endpoint.verbs).toList ++ ((quote endpoint.path).toList ++
        ',' :: ' ' :: '[' :: '\n' ::
          ((optionValues endpoint).flatMap (fun option =>
            '\t' :: ((pair option.1 (valueText option.2)).toList ++ [',', '\n'])) ++
          [']', ')', ';'])) := by
  simp [routeStatement, routeOptions_eq, optionLine, String.toList_join, List.flatMap_map,
    Function.comp_def]

/-- A statement is read back, whatever follows it. -/
theorem readStatement_routeStatement (endpoint : Endpoint) (after : List Char) :
    readStatement ((routeStatement endpoint).toList ++ after) =
      some (.ofEndpoint endpoint, after) := by
  obtain ⟨call, gap, whole, optional, read⟩ := readVerbs_routeCall endpoint.verbs
  have started : ∀ text, expect? "$router->".toList ("$router->".toList ++ text) = some text :=
    fun _ => rfl
  have path : ∀ text, readQuoted (gap ++ ((quote endpoint.path).toList ++ text)) =
      some (endpoint.path, text) := by
    intro text
    rcases optional with rfl | rfl
    · rw [List.nil_append, readQuoted_quote]
    · rw [List.singleton_append, readQuoted_space, readQuoted_quote]
  have comma : ∀ text, expect? [','] (',' :: text) = some text := fun _ => rfl
  have bracket : ∀ text, expect? ['['] (' ' :: '[' :: text) = some text := fun _ => rfl
  have options := @readItems_lines _ readOption (optionValues endpoint) _
    (fun option _ => readsItem_option option) ['\n'] (by decide)
    (')' :: ';' :: after)
  have closed : expect? [')'] (')' :: ';' :: after) = some (';' :: after) := rfl
  have ended : expect? [';'] (';' :: after) = some after := rfl
  have pieces : (routeStatement endpoint).toList ++ after =
      "$router->".toList ++ (call ++ ((quote endpoint.path).toList ++
        ',' :: ' ' :: '[' :: (['\n'] ++
          ((optionValues endpoint).flatMap (fun option =>
            '\t' :: ((pair option.1 (valueText option.2)).toList ++ [',', '\n'])) ++
          ']' :: ')' :: ';' :: after)))) := by
    rw [toList_routeStatement, whole]
    simp
  rw [pieces]
  simp only [readStatement, started, read, path, comma, bracket, options, closed, ended,
    ofOptions?_optionValues, Option.bind_eq_bind, Option.bind_some]
  rfl

/-- A statement starts with a dollar sign and ends with a semicolon. -/
theorem exists_routeStatement (endpoint : Endpoint) :
    ∃ middle, (routeStatement endpoint).toList = '$' :: (middle ++ [';']) := by
  obtain ⟨call, -, whole, -⟩ := readVerbs_routeCall endpoint.verbs
  refine ⟨"router->".toList ++ (call ++ ((quote endpoint.path).toList ++
    ',' :: ' ' :: '[' :: '\n' :: ((optionValues endpoint).flatMap (fun option =>
      '\t' :: ((pair option.1 (valueText option.2)).toList ++ [',', '\n'])) ++ [']', ')']))), ?_⟩
  rw [toList_routeStatement, whole]
  simp

theorem readsStatement_routeStatement (endpoint : Endpoint) :
    ReadsStatement readStatement (routeStatement endpoint).toList (.ofEndpoint endpoint) :=
  ⟨exists_routeStatement endpoint, readStatement_routeStatement endpoint⟩

/-- Statements with spaces before each of them are read back in order. -/
theorem readStatements_statements {endpoints : List Endpoint} {gap last : List Char}
    (spaces : Spaces gap) (ending : Spaces last) :
    readStatements (gap ++
        (List.intercalate ['\n', '\n'] (endpoints.map fun endpoint =>
          (routeStatement endpoint).toList) ++ last)) =
      some (endpoints.map .ofEndpoint) := by
  have feeds : Spaces ['\n', '\n'] := by decide
  rw [readStatements_eq_readSequence]
  exact readSequence_intercalate readsStatement_routeStatement spaces feeds ending

/-! ## Files -/

/-- Trimming some statements changes nothing. -/
theorem trimmed_statements (endpoints : List Endpoint) :
    trimmed (String.intercalate "\n\n" (endpoints.map routeStatement)) =
      String.intercalate "\n\n" (endpoints.map routeStatement) :=
  trimmed_intercalate readsStatement_routeStatement "\n\n"

/-- A route file is its opening tag, the statements and a line end. -/
theorem toList_routeFile (endpoints : List Endpoint) :
    (file (routeDefinitions endpoints)).toList =
      "<?php".toList ++ (['\n', '\n'] ++ (List.intercalate ['\n', '\n'] (endpoints.map
        fun endpoint => (routeStatement endpoint).toList) ++ ['\n'])) := by
  unfold file routeDefinitions
  rw [trimmed_statements, trimmed_statements]
  simp [String.toList_intercalate, Function.comp_def]

/-- The file that is written for some endpoints is read back record for record, whatever
characters their texts contain. So two lists of endpoints with the same file say the
same. -/
theorem readFile_routeDefinitions :
    (∀ endpoints : List Endpoint,
      readFile (file (routeDefinitions endpoints)).toList =
        some (endpoints.map RouteRecord.ofEndpoint)) ∧
    ∀ left right : List Endpoint,
      file (routeDefinitions left) = file (routeDefinitions right) →
        left.map RouteRecord.ofEndpoint = right.map RouteRecord.ofEndpoint := by
  have lossless : ∀ endpoints : List Endpoint,
      readFile (file (routeDefinitions endpoints)).toList =
        some (endpoints.map RouteRecord.ofEndpoint) := by
    intro endpoints
    have feeds : Spaces ['\n', '\n'] := by decide
    have feed : Spaces ['\n'] := by decide
    have opened : ∀ text, Text.dropStart? "<?php".toList ("<?php".toList ++ text) = some text :=
      fun _ => rfl
    rw [readFile, toList_routeFile, opened]
    exact readStatements_statements feeds feed
  refine ⟨lossless, ?_⟩
  intro left right same
  have leftRead := lossless left
  rw [same, lossless right] at leftRead
  exact (Option.some.inj leftRead).symm

/-- Quotes, a backslash at the end, the end of a statement and of a file in a path, and a
name that is there but empty, are all read back. -/
theorem readFile_hostile_texts :
    readFile (file (routeDefinitions
        [⟨"App\\Home", "index", "Clos'ure", [.get], "it's \\", some "", ["a"], ["]);\n?>"],
          .ofList [("id", "'")], none⟩])).toList =
      some [⟨[.get], "it's \\", "Clos'ure", some "", ["a", "]);\n?>"], [("id", "'")],
        none⟩] :=
  readFile_routeDefinitions.1 _

end DocblockScan.Registration
