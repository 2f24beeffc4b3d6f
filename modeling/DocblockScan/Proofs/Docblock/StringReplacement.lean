import DocblockScan.Proofs.Docblock.ParallelTexts
import DocblockScan.Proofs.Docblock.Soundness

/-!
# Another content for one string of a list

Items, arrays and argument lists are read in step from two texts that differ in one
string. So a list of the grammar is one again with any other content for one of its
strings, and of its arguments nothing else changes: `argumentList_of_replaced`.
-/

namespace DocblockScan.Docblock.Grammar

variable {old new tail left right : List Char}

/-! ## Items and lists in step -/

/-- Reading a key never lengthens the text. -/
theorem length_readKey_le {kind : ListKind} {text rest : List Char} {key : Option String}
    (found : readKey kind text = .ok (key, rest)) : rest.length ≤ text.length := by
  cases kind with
  | arguments =>
      have bound := length_spanArgumentKey_le text
      rwa [Except.ok.inj found] at bound
  | entries => exact length_spanEntryKey_le found

/-- Reading an item never lengthens the text. -/
theorem length_itemOutcome_le {kind : ListKind} {text rest : List Char}
    {item : Option String × Literal} (read : itemOutcome kind text = .ok (item, rest)) :
    rest.length ≤ text.length := by
  unfold itemOutcome at read
  split at read
  · simp at read
  next key valueText isKey =>
  split at read
  · simp at read
  next literal after isValue =>
  obtain ⟨rfl, rfl⟩ := Prod.mk.inj (Except.ok.inj read)
  have bound := length_readKey_le isKey
  obtain ⟨written, rfl, -⟩ := value_of_literalOutcome isValue
  rw [List.length_append] at bound
  omega

namespace Parallel

/-- Where values are read in step, so are items. -/
theorem item {kind : ListKind} {item : Option String × Literal} {rest : List Char}
    (longest : tail.head? ≠ some '"') (parallel : Parallel old new tail left right)
    (read : itemOutcome kind left = .ok (item, rest))
    (values : ∀ {l r literal}, l.length ≤ left.length → Parallel old new tail l r →
      literalOutcome l = .ok (literal, rest) → ∃ found, literalOutcome r = .ok found ∧
        InStep (LiteralReplaced (.ofList old) (.ofList new)) old new tail (literal, rest) found) :
    ∃ found, itemOutcome kind right = .ok found ∧
      InStep (ItemReplaced (.ofList old) (.ofList new) kind) old new tail (item, rest) found := by
  unfold itemOutcome at read ⊢
  split at read
  · simp at read
  next key valueText isKey =>
  split at read
  · simp at read
  next literal after isValue =>
  obtain ⟨rfl, rfl⟩ := Prod.mk.inj (Except.ok.inj read)
  obtain ⟨foundKey, isKeyToo, keys⟩ := parallel.readKey longest isKey
  rw [isKeyToo]
  cases keys with
  | ahead valueTexts =>
      obtain ⟨foundValue, isValueToo, inStep⟩ :=
        values (length_readKey_le isKey) valueTexts isValue
      simp only [isValueToo]
      cases inStep with
      | ahead rests => exact ⟨_, rfl, .ahead rests⟩
      | behind differs => exact ⟨_, rfl, .behind (.value differs)⟩
  | behind differs =>
      simp only [isValue]
      cases differs
      exact ⟨_, rfl, .behind .key⟩

end Parallel

mutual

/-- Values are read in step. -/
theorem literalOutcome_inStep {left right rest : List Char} {literal : Literal}
    (longest : tail.head? ≠ some '"') (parallel : Parallel old new tail left right)
    (read : literalOutcome left = .ok (literal, rest)) :
    ∃ found, literalOutcome right = .ok found ∧
      InStep (LiteralReplaced (.ofList old) (.ofList new)) old new tail (literal, rest) found := by
  have starts := parallel.skipBlanks
  have bound := Text.length_skipBlanks_le left
  rw [literalOutcome_eq] at read ⊢
  split at read
  · next inner opened =>
      obtain ⟨r, right, others⟩ := starts.of_cons (by decide) opened
      have shorter : inner.length < left.length := by
        rw [opened, List.length_cons] at bound
        omega
      cases entriesRead : entriesOutcome inner with
      | error failure => simp [entriesRead, Except.map] at read
      | ok entries =>
          rw [entriesRead] at read
          obtain ⟨rfl, rfl⟩ := Prod.mk.inj (Except.ok.inj read)
          obtain ⟨found, readToo, inStep⟩ := entriesOutcome_inStep longest others entriesRead
          simp only [right, readToo]
          cases inStep with
          | ahead rests => exact ⟨_, rfl, .ahead rests⟩
          | behind differs => exact ⟨_, rfl, .behind differs⟩
  · next noArray =>
      split
      · next inner opened => exact absurd opened (starts.ne_cons noArray inner)
      · exact starts.readScalar longest read
termination_by 2 * left.length
decreasing_by omega

/-- Entries of arrays are read in step. -/
theorem entriesOutcome_inStep {left right rest : List Char}
    {entries : List (Option String × Literal)}
    (longest : tail.head? ≠ some '"') (parallel : Parallel old new tail left right)
    (read : entriesOutcome left = .ok (entries, rest)) :
    ∃ found, entriesOutcome right = .ok found ∧
      InStep (fun entries others => LiteralReplaced (.ofList old) (.ofList new)
        (.array entries) (.array others)) old new tail (entries, rest) found := by
  have starts := parallel.skipBlanks
  have bound := Text.length_skipBlanks_le left
  rw [entriesOutcome_eq] at read ⊢
  split at read
  · next inner closed =>
      obtain ⟨rfl, rfl⟩ := Prod.mk.inj (Except.ok.inj read)
      obtain ⟨r, right, others⟩ := starts.of_cons (by decide) closed
      simp only [right]
      exact ⟨_, rfl, .ahead others⟩
  next notClosed =>
  split at read
  · simp at read
  next item after isItem =>
  obtain ⟨foundItem, isItemToo, inStep⟩ := starts.item longest isItem
    fun within parallel read => literalOutcome_inStep longest parallel read
  split
  · next inner closed => exact absurd closed (starts.ne_cons notClosed inner)
  simp only [isItemToo]
  cases inStep with
  | @ahead _ _ rightAfter rests =>
      have taken := length_itemOutcome_le isItem
      have afterBound := Text.length_skipBlanks_le after
      split at read
      · next rest separated =>
          obtain ⟨r, right, others⟩ := rests.skipBlanks.of_cons (by decide) separated
          have shorter : rest.length < left.length := by
            rw [separated, List.length_cons] at afterBound
            omega
          cases othersRead : entriesOutcome rest with
          | error failure => simp [othersRead, Except.map] at read
          | ok lasts =>
              obtain ⟨entries, _⟩ := lasts
              rw [othersRead] at read
              obtain ⟨rfl, rfl⟩ := Prod.mk.inj (Except.ok.inj read)
              obtain ⟨found, readToo, inStep⟩ := entriesOutcome_inStep longest others othersRead
              simp only [right, readToo]
              cases inStep with
              | ahead lasts => exact ⟨_, rfl, .ahead lasts⟩
              | behind differs =>
                  cases differs with
                  | @array front _ _ _ entry =>
                      exact ⟨_, rfl, .behind (@LiteralReplaced.array _ _ (item :: front) _ _ _ entry)⟩
      · next rest separated =>
          obtain ⟨r, right, others⟩ := rests.skipBlanks.of_cons (by decide) separated
          obtain ⟨rfl, rfl⟩ := Prod.mk.inj (Except.ok.inj read)
          simp only [right]
          exact ⟨_, rfl, .ahead others⟩
      · simp at read
      · simp at read
  | @behind _ changed _ differs =>
      split at read
      · next rest separated =>
          cases others : entriesOutcome rest with
          | error failure => simp [others, Except.map] at read
          | ok found =>
              rw [others] at read
              obtain ⟨rfl, rfl⟩ := Prod.mk.inj (Except.ok.inj read)
              simp only [separated, others]
              exact ⟨_, rfl, .behind (@LiteralReplaced.array _ _ [] found.1 item changed differs)⟩
      · next rest separated =>
          obtain ⟨rfl, rfl⟩ := Prod.mk.inj (Except.ok.inj read)
          simp only [separated]
          exact ⟨_, rfl, .behind (@LiteralReplaced.array _ _ [] [] item changed differs)⟩
      · simp at read
      · simp at read
termination_by 2 * left.length + 1
decreasing_by all_goals omega

end

/-! ## Arguments in step -/

/-- Where one item is replaced, the arguments differ in its literal. -/
theorem exists_addItems_replaced {old new : String} {known arguments : Arguments}
    {key : Option String} {literal changed : Literal} {others : List (Option String × Literal)}
    (differs : LiteralReplaced old new literal changed)
    (added : addItems known ((key, literal) :: others) = .ok arguments) :
    ∃ replaced, addItems known ((key, changed) :: others) = .ok replaced ∧
      ArgumentsReplaced old new arguments replaced := by
  obtain ⟨distinct, positional, named⟩ := (addItems_eq_ok_iff _ _ _).1 added
  obtain ⟨_, _⟩ := arguments
  cases key with
  | none =>
      refine ⟨⟨known.positional ++ changed :: positionalOf others, _⟩,
        (addItems_eq_ok_iff _ _ _).2 ⟨distinct, rfl, named⟩, ?_⟩
      obtain rfl := positional
      exact .positional differs
  | some key =>
      have sameKeys : (known.named.entries ++ (key, changed) :: namedOf others).map Prod.fst =
          (known.named.entries ++ (key, literal) :: namedOf others).map Prod.fst := by simp
      have unique : ((known.named.entries ++ (key, changed) :: namedOf others).map Prod.fst).Nodup := by
        rw [sameKeys, show known.named.entries ++ (key, literal) :: namedOf others = _ from named.symm]
        exact OrderedMap.distinct _
      refine ⟨⟨_, ⟨_, unique⟩⟩, (addItems_eq_ok_iff _ _ _).2 ⟨distinct, positional, rfl⟩, ?_⟩
      exact .named named rfl differs

/-- The arguments of a list are read in step. -/
theorem argumentsOutcome_inStep {left right rest : List Char} {known arguments : Arguments}
    (longest : tail.head? ≠ some '"') (parallel : Parallel old new tail left right)
    (read : argumentsOutcome known left = .ok (arguments, rest)) :
    ∃ found, argumentsOutcome known right = .ok found ∧
      InStep (ArgumentsReplaced (.ofList old) (.ofList new)) old new tail (arguments, rest)
        found := by
  have starts := parallel.skipBlanks
  have bound := Text.length_skipBlanks_le left
  rw [argumentsOutcome_eq] at read ⊢
  split at read
  · next inner closed =>
      obtain ⟨rfl, rfl⟩ := Prod.mk.inj (Except.ok.inj read)
      obtain ⟨r, right, others⟩ := starts.of_cons (by decide) closed
      simp only [right]
      exact ⟨_, rfl, .ahead others⟩
  next notClosed =>
  split at read
  · simp at read
  next item after isItem =>
  split at read
  · simp at read
  next grown added =>
  obtain ⟨foundItem, isItemToo, inStep⟩ := starts.item longest isItem
    fun _ parallel read => literalOutcome_inStep longest parallel read
  split
  · next inner closed => exact absurd closed (starts.ne_cons notClosed inner)
  simp only [isItemToo]
  have taken := length_itemOutcome_le isItem
  have afterBound := Text.length_skipBlanks_le after
  cases inStep with
  | @ahead _ _ rightAfter rests =>
      simp only [added]
      split at read
      · next rest separated =>
          obtain ⟨r, right, others⟩ := rests.skipBlanks.of_cons (by decide) separated
          have shorter : rest.length < left.length := by
            rw [separated, List.length_cons] at afterBound
            omega
          simp only [right]
          exact argumentsOutcome_inStep longest others read
      · next rest separated =>
          obtain ⟨r, right, others⟩ := rests.skipBlanks.of_cons (by decide) separated
          obtain ⟨rfl, rfl⟩ := Prod.mk.inj (Except.ok.inj read)
          simp only [right]
          exact ⟨_, rfl, .ahead others⟩
      · simp at read
      · simp at read
  | @behind _ changed _ differs =>
      -- the text that is left is the same, and only the arguments before it differ
      obtain ⟨key, literal, other, rfl, rfl, inLiteral⟩ : ∃ key literal other,
          item = (key, literal) ∧ changed = (key, other) ∧
            LiteralReplaced (.ofList old) (.ofList new) literal other := by
        cases differs with
        | value inLiteral => exact ⟨_, _, _, rfl, rfl, inLiteral⟩
      have replace : ∀ {others : List (Option String × Literal)},
          addItems grown others = .ok arguments →
          ∃ grownToo replaced, Arguments.add? known key other = .ok grownToo ∧
            addItems grownToo others = .ok replaced ∧
            ArgumentsReplaced (.ofList old) (.ofList new) arguments replaced := by
        intro others addedOthers
        obtain ⟨replaced, all, differs⟩ := exists_addItems_replaced inLiteral
          ((addItems_cons known (key, literal) others).trans (by rw [added]; exact addedOthers))
        rw [addItems_cons] at all
        split at all
        · simp at all
        · next grownToo first => exact ⟨grownToo, replaced, first, all, differs⟩
      split at read
      · next rest separated =>
          obtain ⟨body, others, rfl, listing, addedOthers⟩ := listing_of_argumentsOutcome read
          obtain ⟨grownToo, replaced, first, second, differs⟩ := replace addedOthers
          simp only [first, separated]
          exact ⟨_, argumentsOutcome_of_listing listing second _, .behind differs⟩
      · next rest separated =>
          obtain ⟨rfl, rfl⟩ := Prod.mk.inj (Except.ok.inj read)
          obtain ⟨grownToo, replaced, first, second, differs⟩ := replace (addItems_nil grown)
          obtain rfl := Except.ok.inj second
          simp only [first, separated]
          exact ⟨_, rfl, .behind differs⟩
      · simp at read
      · simp at read
termination_by left.length
decreasing_by omega

/-! ## A list with another content for a string -/

/-- A text whose rest ends with a quote ends with it. -/
theorem getLast?_ne_of_cons {char : Char} {rest : List Char}
    (ends : (char :: rest).getLast? ≠ some '"') : rest.getLast? ≠ some '"' := by
  intro last
  apply ends
  rw [List.getLast?_cons, last]
  rfl

/-- A string that was opened closes where the quotes after its start are not all in pairs. -/
theorem exists_string_of_odd {text : List Char} (odd : text.count '"' % 2 = 1)
    (ends : text.getLast? ≠ some '"') :
    ∃ content rest, text = doubled content ++ '"' :: rest ∧
      (∃ char others, rest = char :: others ∧ char ≠ '"') ∧
      rest.count '"' % 2 = 0 ∧ rest.getLast? ≠ some '"' := by
  fun_induction spanString text with
  | case1 => simp at odd
  | case2 rest inductionHypothesis =>
      have oddRest : rest.count '"' % 2 = 1 := by
        simp only [List.count_cons_self] at odd
        omega
      obtain ⟨content, last, rfl, others⟩ :=
        inductionHypothesis oddRest (getLast?_ne_of_cons (getLast?_ne_of_cons ends))
      exact ⟨'"' :: content, last, by simp, others⟩
  | case3 rest single =>
      refine ⟨[], rest, rfl, ?_, ?_, getLast?_ne_of_cons ends⟩
      · cases rest with
        | nil => simp at ends
        | cons char others => exact ⟨char, others, rfl, fun quote => single others (by rw [quote])⟩
      · rw [List.count_cons_self] at odd
        omega
  | case4 char rest _ plain inductionHypothesis =>
      have other : char ≠ '"' := fun quote => plain quote
      have oddRest : rest.count '"' % 2 = 1 := by
        rwa [List.count_cons_of_ne other] at odd
      obtain ⟨content, last, rfl, others⟩ := inductionHypothesis oddRest (getLast?_ne_of_cons ends)
      exact ⟨char :: content, last, by simp [other], others⟩

/-- Before a string stand whole strings and other characters. -/
theorem parallel_of_opening {opening : List Char} (outside : opening.count '"' % 2 = 0)
    (starts : opening.getLast? ≠ some '"') (old new tail : List Char) :
    Parallel old new tail (opening ++ (quoted old ++ tail)) (opening ++ (quoted new ++ tail)) := by
  induction length : opening.length using Nat.strongRecOn generalizing opening with
  | _ bound inductionHypothesis =>
      cases opening with
      | nil => exact .here
      | cons char rest =>
          by_cases quote : char = '"'
          · subst quote
            have odd : rest.count '"' % 2 = 1 := by
              rw [List.count_cons_self] at outside
              omega
            obtain ⟨content, last, rfl, ⟨next, others, rfl, plain⟩, even, ends⟩ :=
              exists_string_of_odd odd (getLast?_ne_of_cons starts)
            have shorter : (next :: others).length < bound := by
              rw [← length]
              simp only [List.length_cons, List.length_append]
              omega
            have others := inductionHypothesis _ shorter even ends rfl
            have string := @Parallel.string old new tail content _ _ (by simpa using plain) others
            simpa [quoted] using string
          · have even : rest.count '"' % 2 = 0 := by
              rwa [List.count_cons_of_ne quote] at outside
            have shorter : rest.length < bound := by
              rw [← length, List.length_cons]
              exact Nat.lt_succ_self _
            exact .char quote
              (inductionHypothesis _ shorter even (getLast?_ne_of_cons starts) rfl)

/-- A list with a string in it: an even number of quotes stands before the string, and no
quote right before or right after it. -/
structure HasString (list opening content closing : List Char) : Prop where
  split : list = opening ++ (quoted content ++ closing)
  outside : opening.count '"' % 2 = 0
  starts : opening.getLast? ≠ some '"'
  ends : closing.head? ≠ some '"'

/-- With another content for a string a list of the grammar is one again, and its
arguments differ in this string only. -/
theorem argumentList_of_replaced {list opening old closing : List Char} {arguments : Arguments}
    (isList : ArgumentList list arguments) (string : HasString list opening old closing)
    (new : List Char) :
    ∃ replaced, ArgumentList (opening ++ (quoted new ++ closing)) replaced ∧
      ArgumentsReplaced (.ofList old) (.ofList new) arguments replaced := by
  obtain ⟨body, -, rfl, -⟩ := id isList
  obtain ⟨split, outside, starts, ends⟩ := string
  cases opening with
  | nil => simp [quoted] at split
  | cons first opening =>
      obtain ⟨rfl, rfl⟩ := List.cons.inj split
      rw [List.count_cons_of_ne (by decide)] at outside
      have parallel := parallel_of_opening outside (getLast?_ne_of_cons starts) old new closing
      have read := (argumentsOutcome_none_iff _ [] arguments).2
        ⟨_, (List.append_nil _).symm, isList⟩
      obtain ⟨found, readToo, inStep⟩ := argumentsOutcome_inStep ends parallel read
      cases inStep with
      | ahead rests => exact absurd rests.length_lt (by simp)
      | behind differs =>
          obtain ⟨body, whole, isListToo⟩ := (argumentsOutcome_none_iff _ _ _).1 readToo
          rw [List.append_nil] at whole
          subst whole
          exact ⟨_, isListToo, differs⟩

end DocblockScan.Docblock.Grammar
