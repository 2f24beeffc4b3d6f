import DocblockScan.Proofs.SourceCode.Reading

/-!
# Classes in their namespaces

A class is in the namespace in force where it starts. Which one that is depends on all
namespaces of a file, but those that start later change nothing, and of those before only one
without braces that is not followed by another of its kind counts. So a file can be read
stretch by stretch: `Stretch.append`.
-/

namespace DocblockScan.SourceCode

variable {bytes : ByteArray} {offset : Nat} {nodes : List Node}
  {path : List Nat} {outer : List Node} {number : Nat} {previous : Option Node}

/-! ## The namespace in force -/

/-- Whether a namespace starts at a byte or later and has no braces around the byte. -/
def NamespaceScope.IsAfter (offset : Nat) (scope : NamespaceScope) : Prop :=
  offset ≤ scope.start ∧ ∀ body ∈ scope.body, offset < body.1

/-- Whether a namespace has no braces. -/
def NamespaceScope.IsOpen (scope : NamespaceScope) : Prop :=
  scope.body = none

/-- Whether a namespace has braces that are closed before a byte. -/
def NamespaceScope.IsPast (offset : Nat) (scope : NamespaceScope) : Prop :=
  ∃ body ∈ scope.body, body.2 ≤ offset

theorem NamespaceScope.IsAfter.of_le {scope : NamespaceScope} {place : Nat}
    (isAfter : scope.IsAfter offset) (before : place ≤ offset) : scope.IsAfter place :=
  ⟨Nat.le_trans before isAfter.1,
    fun body member => Nat.lt_of_le_of_lt before (isAfter.2 body member)⟩

theorem NamespaceScope.IsPast.of_le {scope : NamespaceScope} {place : Nat}
    (isPast : scope.IsPast offset) (after : offset ≤ place) : scope.IsPast place := by
  obtain ⟨body, member, closed⟩ := isPast
  exact ⟨body, member, Nat.le_trans closed after⟩

/-- A byte is between the braces of a namespace. -/
theorem NamespaceScope.surrounds_iff {scope : NamespaceScope} :
    scope.surrounds offset = true ↔ ∃ body ∈ scope.body, body.1 ≤ offset ∧ offset < body.2 := by
  rw [NamespaceScope.surrounds, Option.any_eq_true]
  simp

/-- Namespaces after a byte are not in force there. -/
theorem namespaceAt_append_after {scopes later : List NamespaceScope}
    (after : ∀ scope ∈ later, scope.IsAfter offset) :
    namespaceAt (scopes ++ later) offset = namespaceAt scopes offset := by
  have around : later.find? (·.surrounds offset) = none := by
    refine List.find?_eq_none.2 fun scope member surrounds => ?_
    obtain ⟨body, known, low, -⟩ := NamespaceScope.surrounds_iff.1 surrounds
    exact absurd ((after scope member).2 body known) (Nat.not_lt_of_le low)
  have before : later.reverse.find?
      (fun scope => scope.body.isNone && scope.start < offset) = none := by
    refine List.find?_eq_none.2 fun scope member starts => ?_
    have late := (after scope (List.mem_reverse.1 member)).1
    simp only [Bool.and_eq_true, decide_eq_true_eq] at starts
    omega
  unfold namespaceAt
  rw [List.find?_append, around, Option.or_none, List.reverse_append, List.find?_append, before,
    Option.none_or]

/-- Namespaces with braces closed before a byte are not in force there. -/
theorem namespaceAt_past_append {earlier scopes : List NamespaceScope}
    (past : ∀ scope ∈ earlier, scope.IsPast offset) :
    namespaceAt (earlier ++ scopes) offset = namespaceAt scopes offset := by
  have around : earlier.find? (·.surrounds offset) = none := by
    refine List.find?_eq_none.2 fun scope member surrounds => ?_
    obtain ⟨body, known, closed⟩ := past scope member
    obtain ⟨same, knownToo, -, high⟩ := NamespaceScope.surrounds_iff.1 surrounds
    obtain rfl := Option.some.inj (known.symm.trans knownToo)
    omega
  have before : earlier.reverse.find?
      (fun scope => scope.body.isNone && scope.start < offset) = none := by
    refine List.find?_eq_none.2 fun scope member starts => ?_
    obtain ⟨body, known, -⟩ := past scope (List.mem_reverse.1 member)
    rw [Option.mem_def.1 known] at starts
    cases starts
  unfold namespaceAt
  rw [List.find?_append, around, Option.none_or, List.reverse_append, List.find?_append, before,
    Option.or_none]

/-- Of namespaces without braces the last one is in force. -/
theorem namespaceAt_open {earlier : List NamespaceScope} {scope : NamespaceScope}
    (isOpen : ∀ other ∈ earlier ++ [scope], other.IsOpen) (starts : scope.start < offset) :
    namespaceAt (earlier ++ [scope]) offset = scope.name := by
  have around : (earlier ++ [scope]).find? (·.surrounds offset) = none := by
    refine List.find?_eq_none.2 fun other member surrounds => ?_
    obtain ⟨body, known, -⟩ := NamespaceScope.surrounds_iff.1 surrounds
    rw [isOpen other member] at known
    cases known
  have last : scope.body = none := isOpen scope (by simp)
  unfold namespaceAt
  rw [around, List.reverse_append, List.reverse_singleton, List.singleton_append,
    List.find?_cons_of_pos (by simp [last, starts])]
  rfl

/-- A namespace with braces around a byte is in force there. -/
theorem namespaceAt_surrounded {scope : NamespaceScope}
    (surrounds : scope.surrounds offset = true) :
    namespaceAt [scope] offset = scope.name := by
  unfold namespaceAt
  simp [surrounds]

/-! ## Stretches of a file -/

/-- That the sites of a stretch of a file, which starts at a byte and has a length, declare
certain namespaces, and certain classes whatever namespaces come after them, and before them
as far as such may stand before the byte. -/
structure Stretch (bytes : ByteArray) (mayPrecede : Nat → NamespaceScope → Prop)
    (offset length : Nat) (sites : List Site) (scopes : List NamespaceScope)
    (classes : List ClassDeclaration) : Prop where
  found : namespacesOf bytes sites = scopes
  after : ∀ scope ∈ scopes, scope.IsAfter offset
  precede : ∀ scope ∈ scopes, mayPrecede (offset + length) scope
  declares : ∀ earlier later : List NamespaceScope,
    (∀ scope ∈ earlier, mayPrecede offset scope) →
    (∀ scope ∈ later, scope.IsAfter (offset + length)) →
    Declares bytes (earlier ++ scopes ++ later) sites classes

theorem namespacesOf_append (left right : List Site) :
    namespacesOf bytes (left ++ right) = namespacesOf bytes left ++ namespacesOf bytes right := by
  rw [namespacesOf, declarationsOf_append, List.map_append]
  rfl

/-- Two stretches one after the other are read one after the other. -/
theorem Stretch.append {mayPrecede : Nat → NamespaceScope → Prop}
    (persists : ∀ (scope : NamespaceScope) (place later : Nat), place ≤ later →
      mayPrecede place scope → mayPrecede later scope)
    {length lengthToo : Nat} {left right : List Site} {scopes scopesToo : List NamespaceScope}
    {classes classesToo : List ClassDeclaration}
    (first : Stretch bytes mayPrecede offset length left scopes classes)
    (second : Stretch bytes mayPrecede (offset + length) lengthToo right scopesToo classesToo) :
    Stretch bytes mayPrecede offset (length + lengthToo) (left ++ right) (scopes ++ scopesToo)
      (classes ++ classesToo) where
  found := by rw [namespacesOf_append, first.found, second.found]
  after := by
    intro scope member
    obtain here | later := List.mem_append.1 member
    · exact first.after scope here
    · exact (second.after scope later).of_le (Nat.le_add_right offset length)
  precede := by
    intro scope member
    obtain here | later := List.mem_append.1 member
    · exact persists scope _ _ (by omega) (first.precede scope here)
    · exact Nat.add_assoc offset length lengthToo ▸ second.precede scope later
  declares := by
    intro earlier later before after
    have split : earlier ++ (scopes ++ scopesToo) ++ later =
        earlier ++ scopes ++ (scopesToo ++ later) := by simp only [List.append_assoc]
    rw [split]
    refine (first.declares earlier (scopesToo ++ later) before ?_).append ?_
    · intro scope member
      obtain here | late := List.mem_append.1 member
      · exact second.after scope here
      · exact (after scope late).of_le (by omega)
    · rw [← List.append_assoc]
      refine second.declares (earlier ++ scopes) later ?_ fun scope member => ?_
      · intro scope member
        obtain past | here := List.mem_append.1 member
        · exact persists scope _ _ (Nat.le_add_right offset length) (before scope past)
        · exact first.precede scope here
      · exact Nat.add_assoc offset length lengthToo ▸ after scope member

/-- Blocks are read one after the other. -/
theorem reads_blocks {Block : Type} {mayPrecede : Nat → NamespaceScope → Prop}
    (persists : ∀ (scope : NamespaceScope) (place later : Nat), place ≤ later →
      mayPrecede place scope → mayPrecede later scope)
    {blockParts : Block → List Part} {classes : Block → List ClassDeclaration}
    (reads : ∀ {block : Block} {offset number : Nat} {nodes : List Node} {previous : Option Node},
      Depicts bytes offset (blockParts block) nodes → Quiet previous →
      ∃ scopes, Stretch bytes mayPrecede offset (textOf (blockParts block)).utf8ByteSize
          (sitesOf path outer number previous nodes) scopes (classes block) ∧
        Quiet (nodes.getLast?.or previous))
    (blocks : List Block) (depicted : Depicts bytes offset (blocks.flatMap blockParts) nodes)
    (quiet : Quiet previous) :
    ∃ scopes, Stretch bytes mayPrecede offset (textOf (blocks.flatMap blockParts)).utf8ByteSize
      (sitesOf path outer number previous nodes) scopes (blocks.flatMap classes) := by
  induction blocks generalizing offset nodes number previous with
  | nil =>
      obtain rfl := depicted.eq_nil
      refine ⟨[], rfl, by simp, by simp, fun earlier later _ _ => ?_⟩
      exact depicted.shown.declares_nothing List.not_mem_nil _
  | cons block others inductionHypothesis =>
      rw [List.flatMap_cons] at depicted ⊢
      obtain ⟨first, second, rfl, here, later⟩ := depicted.exists_of_append
      obtain ⟨scopes, stretch, quietAfter⟩ := reads here quiet
      obtain ⟨scopesToo, rest⟩ := inductionHypothesis later quietAfter
      rw [sitesOf_append, textOf_append, String.utf8ByteSize_append, List.flatMap_cons]
      exact ⟨_, stretch.append persists rest⟩

/-! ## Namespaces -/

/-- A namespace is read with the names that its declaration gives. -/
theorem Depicts.namespacesOf_site {field : Option String} {start stop : Nat}
    {inside : List Part} {children : List Node} (depicted : Depicts bytes offset inside children) :
    namespacesOf bytes
        [⟨.mk "namespace_definition" field start stop children, path, outer, previous⟩] =
      (inside.filterMap (Part.name? "namespace_name")).map fun name =>
        ⟨name, start, (children.find? (·.field == some "body")).map fun body =>
          (body.start, body.stop)⟩ := by
  rw [namespacesOf, depicted.declarationsOf_site, List.map_map]
  rfl

theorem kindsIn_definitionsParts {level : Nat} {definitions : List Definition} {kind : String}
    (member : kind ∈ kindsIn (definitionsParts level definitions)) :
    kind ∈ ["class_declaration", "declaration_list", "comment", "method_declaration", "name"] := by
  rw [definitionsParts, kindsIn_flatMap] at member
  obtain ⟨definition, -, here⟩ := List.mem_flatMap.1 member
  cases definition with
  | named declared =>
      rw [Definition.parts, kindsIn_append, List.mem_append] at here
      obtain before | here := here
      · rw [kindsIn_leadParts before]
        decide
      · rw [kindsIn, kindsIn, kindsIn, List.append_nil, Part.kinds, List.nil_append, Part.kinds,
          declared.kindsIn_parts] at here
        simp only [List.mem_cons] at here
        obtain rfl | rfl | rfl | inside := here
        · decide
        · decide
        · decide
        · exact List.mem_cons_of_mem _ (List.mem_cons_of_mem _ (kindsIn_methodsParts inside))
  | other kind lead name methods =>
      rw [Definition.parts, kindsIn_append, List.mem_append] at here
      obtain before | here := here
      · rw [kindsIn_leadParts before]
        decide
      · cases here

/-- The declaration of a namespace is a node before those of the classes. -/
theorem quiet_namespace {field : Option String} {start stop : Nat} {children : List Node} :
    Quiet ([Node.mk "namespace_definition" field start stop children].getLast?.or previous) := by
  rintro node ⟨rfl⟩
  exact (by decide : "namespace_definition" ≠ "comment")

/-- The text of a node on a line of its own. -/
theorem size_line (level : Nat) (kind : String) (field : Option String) (inside : List Part) :
    (textOf [.gap (lineBreak level), .node kind field inside]).utf8ByteSize =
      (lineBreak level).utf8ByteSize + (textOf inside).utf8ByteSize := by
  simp [textOf, Part.text]

theorem kindsIn_line (level : Nat) (kind : String) (field : Option String) (inside : List Part) :
    kindsIn [.gap (lineBreak level), .node kind field inside] = kind :: kindsIn inside := by
  simp [kindsIn, Part.kinds]

/-! ## Blocks without braces -/

namespace NamespacePath

theorem filterMap_name?_statementParts (path : NamespacePath) :
    path.statementParts.filterMap (Part.name? "namespace_name") = [path.text] := by
  simp [statementParts, tokenPart, NamespacePath.part, Part.name?, List.filterMap_cons, textOf,
    Part.text]

theorem kindsIn_statementParts (path : NamespacePath) :
    kindsIn path.statementParts = ["namespace", "namespace_name", ";"] := rfl

theorem size_statementParts_pos (path : NamespacePath) :
    0 < (textOf path.statementParts).utf8ByteSize := by
  rw [statementParts, textOf, String.utf8ByteSize_append]
  exact Nat.add_pos_left (by decide) _

/-- The statement that a namespace starts with has no braces. -/
theorem find?_body_statementParts {path : NamespacePath}
    (depicted : Depicts bytes offset path.statementParts nodes) :
    nodes.find? (·.field == some "body") = none := by
  obtain ⟨keyword, rest, rfl, -, afterKeyword⟩ := depicted.exists_of_node
  obtain ⟨name, rest, rfl, -, afterName⟩ := afterKeyword.of_gap.exists_of_node
  obtain ⟨mark, rest, rfl, -, afterMark⟩ := afterName.exists_of_node
  obtain rfl := afterMark.eq_nil
  simp

end NamespacePath

/-- The namespace that starts with a statement. -/
def NamespacePath.scope (path : NamespacePath) (start : Nat) : NamespaceScope :=
  ⟨path.text, start, none⟩

/-- The statement that a namespace starts with declares it. -/
theorem reads_statement {name : NamespacePath}
    (depicted : Depicts bytes offset
      [.gap (lineBreak 0), .node "namespace_definition" none name.statementParts] nodes) :
    namespacesOf bytes (sitesOf path outer number previous nodes) =
        [name.scope (offset + (lineBreak 0).utf8ByteSize)] ∧
      (∀ namespaces, Declares bytes namespaces (sitesOf path outer number previous nodes) []) ∧
      Quiet (nodes.getLast?.or previous) := by
  have absent : "class_declaration" ∉ kindsIn [.gap (lineBreak 0),
      .node "namespace_definition" none name.statementParts] := by
    rw [kindsIn_line, name.kindsIn_statementParts]
    decide
  obtain ⟨children, others, rfl, within, after⟩ := depicted.of_gap.exists_of_node
  obtain rfl := after.eq_nil
  refine ⟨?_, depicted.shown.declares_nothing absent, quiet_namespace⟩
  rw [sitesOf_singleton, namespacesOf_append, within.namespacesOf_site,
    name.filterMap_name?_statementParts, NamespacePath.find?_body_statementParts within,
    within.shown.namespacesOf_eq_nil (name.kindsIn_statementParts ▸ by decide)]
  rfl

/-- A namespace that starts with a statement is in force up to the end of its block. -/
theorem reads_statementBlock {block : NamespacePath × List Definition}
    (depicted : Depicts bytes offset (statementBlockParts block) nodes) :
    ∃ scopes, Stretch bytes (fun _ scope => scope.IsOpen) offset
        (textOf (statementBlockParts block)).utf8ByteSize
        (sitesOf path outer number previous nodes) scopes
        (block.2.filterMap (Definition.class? joined block.1.text)) ∧
      Quiet (nodes.getLast?.or previous) := by
  obtain ⟨first, second, rfl, head, rest⟩ := depicted.exists_of_append
  obtain ⟨isNamespace, isNoClass, quietAfter⟩ :
      namespacesOf bytes (sitesOf path outer number previous first) = _ ∧
        (∀ namespaces, Declares bytes namespaces (sitesOf path outer number previous first) []) ∧
        Quiet (first.getLast?.or previous) := reads_statement head
  rw [size_line] at rest
  rw [statementBlockParts, textOf_append, String.utf8ByteSize_append, size_line, sitesOf_append,
    getLast?_append_or]
  have positive := block.1.size_statementParts_pos
  generalize (textOf block.1.statementParts).utf8ByteSize = size at *
  have reads : ∀ earlier later : List NamespaceScope, (∀ other ∈ earlier, other.IsOpen) →
      (∀ other ∈ later, other.IsAfter (offset + ((lineBreak 0).utf8ByteSize + size +
        (textOf (definitionsParts 0 block.2)).utf8ByteSize))) →
      Declares bytes (earlier ++ [block.1.scope (offset + (lineBreak 0).utf8ByteSize)] ++ later)
          (sitesOf path outer (number + first.length) (first.getLast?.or previous) second)
          (block.2.filterMap (Definition.class? joined block.1.text)) ∧
        Quiet (second.getLast?.or (first.getLast?.or previous)) := by
    intro earlier later before after
    refine reads_definitions block.2 rest quietAfter fun place low high => ?_
    rw [namespaceAt_append_after fun other member => (after other member).of_le (by omega),
      namespaceAt_open _ (by simp only [NamespacePath.scope]; omega)]
    · rfl
    · intro other member
      obtain early | last := List.mem_append.1 member
      · exact before other early
      · exact List.mem_singleton.1 last ▸ rfl
  refine ⟨[block.1.scope (offset + (lineBreak 0).utf8ByteSize)], ⟨?_, ?_, ?_, ?_⟩,
    (reads [] [] (by simp) (by simp)).2⟩
  · rw [namespacesOf_append, isNamespace, rest.shown.namespacesOf_eq_nil fun member =>
        absurd (kindsIn_definitionsParts member) (by decide)]
    rfl
  · intro scope member
    obtain rfl := List.mem_singleton.1 member
    exact ⟨Nat.le_add_right _ _, fun body known => by cases known⟩
  · exact fun scope member => List.mem_singleton.1 member ▸ rfl
  · exact fun earlier later before after =>
      .after_nothing (isNoClass _) (reads earlier later before after).1

/-! ## Blocks with braces -/

/-- The namespace with braces from one byte up to another, if it has a name. -/
def bracedScopes (name : Option NamespacePath) (start low high : Nat) : List NamespaceScope :=
  name.elim [] fun path => [⟨path.text, start, some (low, high)⟩]

theorem eq_of_mem_bracedScopes {name : Option NamespacePath} {start low high : Nat}
    {scope : NamespaceScope} (member : scope ∈ bracedScopes name start low high) :
    scope.start = start ∧ scope.body = some (low, high) := by
  cases name with
  | none => cases member
  | some path =>
      obtain rfl := List.mem_singleton.1 member
      exact ⟨rfl, rfl⟩

/-- A namespace with braces around a byte is in force there, or none if it has no name. -/
theorem namespaceAt_bracedScopes {name : Option NamespacePath} {start low high : Nat}
    (after : low ≤ offset) (before : offset < high) :
    namespaceAt (bracedScopes name start low high) offset = name.elim "" NamespacePath.text := by
  cases name with
  | none => rfl
  | some path =>
      exact namespaceAt_surrounded
        (NamespaceScope.surrounds_iff.2 ⟨(low, high), rfl, after, before⟩)

theorem filterMap_name?_namespaceHeadParts (name : Option NamespacePath) :
    (namespaceHeadParts name).filterMap (Part.name? "namespace_name") =
      (name.map NamespacePath.text).toList := by
  cases name <;>
    simp [namespaceHeadParts, tokenPart, NamespacePath.part, Part.name?, List.filterMap_cons,
      textOf, Part.text]

theorem kindsIn_namespaceHeadParts {name : Option NamespacePath} {kind : String}
    (member : kind ∈ kindsIn (namespaceHeadParts name)) :
    kind ∈ ["namespace", "namespace_name"] := by
  cases name with
  | none => exact List.mem_cons.2 (.inl (List.mem_singleton.1 member))
  | some path => exact member

/-- The keyword of a namespace stands before its braces. -/
theorem size_namespaceHeadParts_pos (name : Option NamespacePath) :
    0 < (textOf (namespaceHeadParts name)).utf8ByteSize := by
  rw [namespaceHeadParts, textOf_append, String.utf8ByteSize_append]
  exact Nat.add_pos_left (by decide) _

/-- What stands before the braces of a namespace has none. -/
theorem find?_body_namespaceHeadParts {name : Option NamespacePath}
    (depicted : Depicts bytes offset (namespaceHeadParts name) nodes) :
    nodes.find? (·.field == some "body") = none := by
  obtain ⟨keyword, rest, rfl, -, afterKeyword⟩ := depicted.exists_of_node
  cases name with
  | none =>
      obtain rfl := afterKeyword.of_gap.eq_nil
      simp
  | some path =>
      obtain ⟨children, rest, rfl, -, afterName⟩ := afterKeyword.of_gap.exists_of_node
      obtain rfl := afterName.of_gap.eq_nil
      simp

/-- The declarations between the braces of a namespace are read. -/
theorem reads_bracedDefinitions {definitions : List Definition} {namespaceName : String}
    {namespaces : List NamespaceScope}
    (depicted : Depicts bytes offset (bracedParts 0 (definitionsParts 1 definitions)) nodes)
    (inForce : ∀ place, offset ≤ place → place < offset +
        (textOf (bracedParts 0 (definitionsParts 1 definitions))).utf8ByteSize →
      namespaceAt namespaces place = namespaceName) :
    Declares bytes namespaces (sitesOf path outer number previous nodes)
      (definitions.filterMap (Definition.class? joined namespaceName)) := by
  have size : (textOf (bracedParts 0 (definitionsParts 1 definitions))).utf8ByteSize =
      "\x7b".utf8ByteSize + (textOf (definitionsParts 1 definitions)).utf8ByteSize +
        ((lineBreak 0).utf8ByteSize + "\x7d".utf8ByteSize) := by
    simp [bracedParts, textOf, Part.text, textOf_append, Nat.add_assoc]
  have closing : 0 < "\x7d".utf8ByteSize := by decide
  rw [size] at inForce
  have head : (textOf (.other "\x7b" :: definitionsParts 1 definitions)).utf8ByteSize =
      "\x7b".utf8ByteSize + (textOf (definitionsParts 1 definitions)).utf8ByteSize := by
    simp [textOf, Part.text]
  obtain ⟨first, second, rfl, here, last⟩ := depicted.exists_of_append
  obtain ⟨brace, rest, rfl, nonempty, idle, after⟩ := here.exists_of_other
  rw [sitesOf_append, sitesOf_append]
  exact .before_nothing (.after_nothing (declares_nothing_of_isIdle idle namespaces)
      (reads_definitions definitions after (quiet_of_idle nonempty idle) fun place low high =>
        inForce place (by omega) (by omega)).1)
    (last.shown.declares_nothing List.not_mem_nil namespaces)

/-- What stands in the declaration of a namespace with braces names it at most once. -/
theorem filterMap_name?_bracedNamespace (name : Option NamespacePath)
    (definitions : List Definition) :
    (namespaceHeadParts name ++ [bodyPart "compound_statement" 0
      (definitionsParts 1 definitions)]).filterMap (Part.name? "namespace_name") =
        (name.map NamespacePath.text).toList := by
  rw [List.filterMap_append, filterMap_name?_namespaceHeadParts]
  simp

/-- No namespace is in the declaration of another one. -/
theorem not_mem_kindsIn_bracedNamespace (name : Option NamespacePath)
    (definitions : List Definition) :
    "namespace_definition" ∉ kindsIn (namespaceHeadParts name ++
      [bodyPart "compound_statement" 0 (definitionsParts 1 definitions)]) := by
  rw [kindsIn_append, kindsIn_bodyPart, List.mem_append, List.mem_cons]
  rintro (before | same | inside)
  · exact absurd (kindsIn_namespaceHeadParts before) (by decide)
  · exact absurd same (by decide)
  · exact absurd (kindsIn_definitionsParts inside) (by decide)

/-- The bytes of a namespace with braces: its line break, what stands before the braces, and
what the braces hold. -/
theorem size_bracedBlockParts (name : Option NamespacePath) (definitions : List Definition) :
    (textOf (bracedBlockParts (name, definitions))).utf8ByteSize =
      (lineBreak 0).utf8ByteSize + ((textOf (namespaceHeadParts name)).utf8ByteSize +
        (textOf (bracedParts 0 (definitionsParts 1 definitions))).utf8ByteSize) := by
  rw [bracedBlockParts, size_line, textOf_append, String.utf8ByteSize_append]
  simp [textOf, bodyPart, Part.text]

/-- Between its braces a namespace is in force, whatever other namespaces with braces come
before it and whatever others come after it. -/
theorem namespaceAt_amid {name : Option NamespacePath} {start low high place : Nat}
    {earlier later : List NamespaceScope} (past : ∀ scope ∈ earlier, scope.IsPast place)
    (after : ∀ scope ∈ later, scope.IsAfter place) (above : low ≤ place) (below : place < high) :
    namespaceAt (earlier ++ bracedScopes name start low high ++ later) place =
      name.elim "" NamespacePath.text := by
  rw [namespaceAt_append_after after, namespaceAt_past_append past,
    namespaceAt_bracedScopes above below]

/-- A namespace with braces is in force up to its closing brace. -/
theorem reads_bracedBlock {block : Option NamespacePath × List Definition}
    (depicted : Depicts bytes offset (bracedBlockParts block) nodes) :
    ∃ scopes, Stretch bytes NamespaceScope.IsPast offset
        (textOf (bracedBlockParts block)).utf8ByteSize
        (sitesOf path outer number previous nodes) scopes
        (block.2.filterMap (Definition.class? joined (block.1.elim "" NamespacePath.text))) ∧
      Quiet (nodes.getLast?.or previous) := by
  obtain ⟨name, definitions⟩ := block
  obtain ⟨children, others, rfl, within, after⟩ := depicted.of_gap.exists_of_node
  obtain rfl := after.eq_nil
  have positive := size_namespaceHeadParts_pos name
  obtain ⟨head, last, rfl, before, body⟩ := within.exists_of_append
  obtain ⟨inside, others, rfl, filled, after⟩ := body.exists_of_node
  obtain rfl := after.eq_nil
  let low := offset + (lineBreak 0).utf8ByteSize + (textOf (namespaceHeadParts name)).utf8ByteSize
  let high := low + (textOf (bracedParts 0 (definitionsParts 1 definitions))).utf8ByteSize
  rw [size_bracedBlockParts]
  refine ⟨bracedScopes name (offset + (lineBreak 0).utf8ByteSize) low high, ⟨?_, ?_, ?_, ?_⟩,
    quiet_namespace⟩
  · rw [sitesOf_singleton, namespacesOf_append, within.namespacesOf_site,
      filterMap_name?_bracedNamespace, List.find?_append, find?_body_namespaceHeadParts before,
      Option.none_or,
      within.shown.namespacesOf_eq_nil (not_mem_kindsIn_bracedNamespace name definitions)]
    cases name <;> rfl
  · intro scope member
    obtain ⟨starts, braces⟩ := eq_of_mem_bracedScopes member
    refine ⟨by omega, fun body known => ?_⟩
    obtain rfl := Option.some.inj (braces.symm.trans known)
    simp only [low]
    omega
  · intro scope member
    refine ⟨(low, high), (eq_of_mem_bracedScopes member).2, ?_⟩
    simp only [high, low]
    omega
  · intro earlier later past after
    rw [sitesOf_singleton, sitesOf_append, sitesOf_singleton]
    have noClass : "class_declaration" ∉ kindsIn (namespaceHeadParts name) := fun member =>
      absurd (kindsIn_namespaceHeadParts member) (by decide)
    have inForce : ∀ place, low ≤ place → place < high →
        namespaceAt (earlier ++ bracedScopes name (offset + (lineBreak 0).utf8ByteSize) low high ++
          later) place = name.elim "" NamespacePath.text := fun place above below =>
      namespaceAt_amid (fun scope member => (past scope member).of_le (by omega))
        (fun scope member => (after scope member).of_le (by omega)) above below
    exact .after_nothing (.nothing_single (by simp))
      (.after_nothing (before.shown.declares_nothing noClass _)
      (.after_nothing (.nothing_single (by simp)) (reads_bracedDefinitions filled inForce)))

end DocblockScan.SourceCode
