import DocblockScan.SourceCode.Classes

/-!
# Trees of laid out text

A text is laid out in parts: blanks between nodes, nodes of which nothing is said but that
they declare nothing, and nodes that are known with all that is in them. `Shows` says that
some nodes are what a parser makes of such parts: every known part is a node of its kind that
covers the bytes of the part. It leaves open what the other nodes look like inside, methods
deeper in them included: whose methods these are is left to the reading of the tree.
-/

namespace DocblockScan.SourceCode

/-! ## Parts -/

/-- A part of a text: what no node covers, what some node covers, or a node of a certain
kind with its parts. -/
inductive Part where
  | gap (text : String)
  | other (text : String)
  | node (kind : String) (field : Option String) (inside : List Part)

mutual

/-- The text of a part. -/
def Part.text : Part → String
  | .gap text => text
  | .other text => text
  | .node _ _ inside => textOf inside

/-- The text of some parts. -/
def textOf : List Part → String
  | [] => ""
  | part :: others => part.text ++ textOf others

end

mutual

/-- The kinds of the nodes that a part is known to hold. -/
def Part.kinds : Part → List String
  | .gap _ => []
  | .other _ => []
  | .node kind _ inside => kind :: kindsIn inside

/-- The kinds of the nodes that some parts are known to hold. -/
def kindsIn : List Part → List String
  | [] => []
  | part :: others => part.kinds ++ kindsIn others

end

theorem textOf_append (left right : List Part) :
    textOf (left ++ right) = textOf left ++ textOf right := by
  induction left with
  | nil => simp [textOf]
  | cons part others inductionHypothesis =>
      rw [List.cons_append, textOf, textOf, inductionHypothesis, String.append_assoc]

theorem kindsIn_append (left right : List Part) :
    kindsIn (left ++ right) = kindsIn left ++ kindsIn right := by
  induction left with
  | nil => rfl
  | cons part others inductionHypothesis =>
      rw [List.cons_append, kindsIn, kindsIn, inductionHypothesis, List.append_assoc]

/-! ## Nodes -/

section

variable (kind : String) (field : Option String) (start stop : Nat) (children : List Node)

@[simp] theorem Node.kind_mk : (mk kind field start stop children).kind = kind := rfl

@[simp] theorem Node.field_mk : (mk kind field start stop children).field = field := rfl

@[simp] theorem Node.start_mk : (mk kind field start stop children).start = start := rfl

@[simp] theorem Node.children_mk :
    (mk kind field start stop children).children = children := rfl

end

mutual

/-- The kinds of a node and of all nodes in it. -/
def Node.kinds : Node → List String
  | .mk kind _ _ _ children => kind :: kindsOf children

/-- The kinds of some nodes and of all nodes in them. -/
def kindsOf : List Node → List String
  | [] => []
  | node :: others => node.kinds ++ kindsOf others

end

theorem kindsOf_append (left right : List Node) :
    kindsOf (left ++ right) = kindsOf left ++ kindsOf right := by
  induction left with
  | nil => rfl
  | cons node others inductionHypothesis =>
      rw [List.cons_append, kindsOf, kindsOf, inductionHypothesis, List.append_assoc]

/-- The kinds of the nodes that declare something wherever they stand. -/
def declaringKinds : List String := ["class_declaration", "namespace_definition"]

/-- Whether a node declares nothing: no class and no namespace is in it, it is no method and
holds none right inside, and it is neither the name of anything nor a comment. -/
def Node.IsIdle (node : Node) : Prop :=
  (∀ kind ∈ declaringKinds, kind ∉ node.kinds) ∧ node.kind ≠ "method_declaration" ∧
    (∀ child ∈ node.children, child.kind ≠ "method_declaration") ∧
    node.field ≠ some "name" ∧ node.kind ≠ "comment"

instance (node : Node) : Decidable node.IsIdle :=
  inferInstanceAs (Decidable (_ ∧ _))

/-- Idle nodes hold no class and no namespace. -/
theorem not_mem_kindsOf_of_isIdle {nodes : List Node} (idle : ∀ node ∈ nodes, node.IsIdle)
    {kind : String} (declares : kind ∈ declaringKinds) : kind ∉ kindsOf nodes := by
  induction nodes with
  | nil => exact List.not_mem_nil
  | cons node others inductionHypothesis =>
      rw [kindsOf, List.mem_append, not_or]
      exact ⟨(idle node List.mem_cons_self).1 kind declares,
        inductionHypothesis fun other member => idle other (List.mem_cons_of_mem node member)⟩

/-- That some nodes are what a parser makes of some parts of a text, the first of which
starts at a certain byte. -/
inductive Shows : Nat → List Part → List Node → Prop where
  | nil {offset : Nat} : Shows offset [] []
  | gap {offset : Nat} {text : String} {parts : List Part} {nodes : List Node}
      (others : Shows (offset + text.utf8ByteSize) parts nodes) :
      Shows offset (.gap text :: parts) nodes
  | other {offset : Nat} {text : String} {parts : List Part} {here nodes : List Node}
      (nonempty : here ≠ []) (idle : ∀ node ∈ here, node.IsIdle)
      (others : Shows (offset + text.utf8ByteSize) parts nodes) :
      Shows offset (.other text :: parts) (here ++ nodes)
  | node {offset : Nat} {kind : String} {field : Option String} {inside parts : List Part}
      {children nodes : List Node} (within : Shows offset inside children)
      (others : Shows (offset + (textOf inside).utf8ByteSize) parts nodes) :
      Shows offset (.node kind field inside :: parts)
        (.mk kind field offset (offset + (textOf inside).utf8ByteSize) children :: nodes)

/-- What shows some parts and then some others is in two pieces. -/
theorem Shows.exists_of_append {left right : List Part} {offset : Nat} {nodes : List Node}
    (shown : Shows offset (left ++ right) nodes) :
    ∃ first second, nodes = first ++ second ∧ Shows offset left first ∧
      Shows (offset + (textOf left).utf8ByteSize) right second := by
  induction left generalizing offset nodes with
  | nil => exact ⟨[], nodes, rfl, .nil, by simpa [textOf] using shown⟩
  | cons part parts inductionHypothesis =>
      cases shown with
      | gap others =>
          obtain ⟨first, second, rfl, shows, rest⟩ := inductionHypothesis others
          refine ⟨first, second, rfl, .gap shows, ?_⟩
          rwa [textOf, Part.text, String.utf8ByteSize_append, ← Nat.add_assoc]
      | other nonempty idle others =>
          obtain ⟨first, second, rfl, shows, rest⟩ := inductionHypothesis others
          refine ⟨_, second, (List.append_assoc ..).symm, .other nonempty idle shows, ?_⟩
          rwa [textOf, Part.text, String.utf8ByteSize_append, ← Nat.add_assoc]
      | node within others =>
          obtain ⟨first, second, rfl, shows, rest⟩ := inductionHypothesis others
          refine ⟨_ :: first, second, rfl, .node within shows, ?_⟩
          rwa [textOf, Part.text, String.utf8ByteSize_append, ← Nat.add_assoc]

/-- The classes and namespaces in nodes are those that the parts are known to hold. -/
theorem Shows.not_mem_kindsOf {offset : Nat} {parts : List Part} {nodes : List Node}
    (shown : Shows offset parts nodes) {kind : String} (declares : kind ∈ declaringKinds)
    (absent : kind ∉ kindsIn parts) : kind ∉ kindsOf nodes := by
  induction shown with
  | nil => exact absent
  | gap others inductionHypothesis => exact inductionHypothesis absent
  | other nonempty idle others inductionHypothesis =>
      rw [kindsOf_append, List.mem_append, not_or]
      exact ⟨not_mem_kindsOf_of_isIdle idle declares, inductionHypothesis absent⟩
  | node within others insideHypothesis othersHypothesis =>
      simp only [kindsIn, Part.kinds, List.cons_append, List.mem_cons, List.mem_append,
        not_or] at absent
      simp only [kindsOf, Node.kinds, List.cons_append, List.mem_cons, List.mem_append, not_or]
      exact ⟨absent.1, insideHypothesis absent.2.1, othersHypothesis absent.2.2⟩

/-! ## Checking nodes -/

mutual

/-- The nodes after those for a part, if these come first. The nodes for a part of which
nothing is known are those that start before its end. -/
def Part.rest? (offset : Nat) : Part → List Node → Option (List Node)
  | .gap _, nodes => some nodes
  | .other text, nodes =>
      let isHere := fun node : Node => decide (node.start < offset + text.utf8ByteSize)
      if nodes.takeWhile isHere ≠ [] ∧ ∀ node ∈ nodes.takeWhile isHere, node.IsIdle then
        some (nodes.dropWhile isHere)
      else none
  | .node kind field inside, nodes =>
      match nodes with
      | [] => none
      | node :: others =>
          if node.kind = kind ∧ node.field = field ∧ node.start = offset ∧
              node.stop = offset + (textOf inside).utf8ByteSize ∧
              (restOf? offset inside node.children).any List.isEmpty = true then
            some others
          else none

/-- The nodes after those for some parts, if these come first. -/
def restOf? (offset : Nat) : List Part → List Node → Option (List Node)
  | [], nodes => some nodes
  | part :: parts, nodes =>
      (part.rest? offset nodes).bind (restOf? (offset + part.text.utf8ByteSize) parts)

end

mutual

/-- The nodes before the rest are those for a part. -/
theorem Part.exists_of_rest? {offset : Nat} (part : Part) {nodes rest : List Node}
    (checked : part.rest? offset nodes = some rest) :
    ∃ here, nodes = here ++ rest ∧ ∀ {parts others},
      Shows (offset + part.text.utf8ByteSize) parts others →
      Shows offset (part :: parts) (here ++ others) := by
  cases part with
  | gap text =>
      obtain rfl := Option.some.inj checked
      exact ⟨[], rfl, .gap⟩
  | other text =>
      rw [Part.rest?] at checked
      split at checked
      · next holds =>
          obtain rfl := Option.some.inj checked
          exact ⟨_, List.takeWhile_append_dropWhile.symm, .other holds.1 holds.2⟩
      · cases checked
  | node kind field inside =>
      rw [Part.rest?.eq_def] at checked
      cases nodes with
      | nil => cases checked
      | cons node others =>
          obtain ⟨itsKind, itsField, start, stop, children⟩ := node
          obtain ⟨⟨isKind, isField, isStart, isStop, whole⟩, same⟩ :=
            Option.ite_none_right_eq_some.1 checked
          obtain rfl : itsKind = kind := isKind
          obtain rfl : itsField = field := isField
          obtain rfl : start = offset := isStart
          obtain rfl : stop = start + (textOf inside).utf8ByteSize := isStop
          obtain rfl := Option.some.inj same
          obtain ⟨left, all, none⟩ := (Option.any_eq_true ..).1 whole
          obtain rfl := List.isEmpty_iff.1 none
          obtain ⟨here, spelled, within⟩ := exists_of_restOf? inside all
          obtain rfl : children = here := spelled.trans (List.append_nil here)
          exact ⟨[_], rfl, .node within⟩

/-- The nodes before the rest are those for some parts. -/
theorem exists_of_restOf? {offset : Nat} (parts : List Part) {nodes rest : List Node}
    (checked : restOf? offset parts nodes = some rest) :
    ∃ here, nodes = here ++ rest ∧ Shows offset parts here := by
  cases parts with
  | nil =>
      obtain rfl := Option.some.inj checked
      exact ⟨[], rfl, .nil⟩
  | cons part parts =>
      obtain ⟨others, first, next⟩ := Option.bind_eq_some_iff.1 checked
      obtain ⟨here, rfl, before⟩ := part.exists_of_rest? first
      obtain ⟨later, rfl, shown⟩ := exists_of_restOf? parts next
      exact ⟨here ++ later, (List.append_assoc ..).symm, before shown⟩

end

/-- Nodes of which none is left show the parts that they were checked against. -/
theorem shows_of_restOf? {offset : Nat} {parts : List Part} {nodes : List Node}
    (checked : (restOf? offset parts nodes).any List.isEmpty = true) :
    Shows offset parts nodes := by
  obtain ⟨left, all, none⟩ := (Option.any_eq_true ..).1 checked
  obtain rfl := List.isEmpty_iff.1 none
  obtain ⟨here, rfl, shown⟩ := exists_of_restOf? parts all
  rwa [List.append_nil]

/-! ## Sites of nodes -/

mutual

/-- The kind of a site in a node is one of the kinds in it. -/
theorem Node.kind_mem_kinds (node : Node) {path : List Nat} {outer : List Node}
    {previous : Option Node} {site : Site} (member : site ∈ node.sites path outer previous) :
    site.node.kind ∈ node.kinds := by
  cases node with
  | mk kind field start stop children =>
      obtain rfl | inside := List.mem_cons.1 member
      · exact List.mem_cons_self
      · exact List.mem_cons_of_mem kind (kind_mem_kindsOf children inside)

/-- The kind of a site in some nodes is one of the kinds in them. -/
theorem kind_mem_kindsOf (nodes : List Node) {path : List Nat} {outer : List Node}
    {number : Nat} {previous : Option Node} {site : Site}
    (member : site ∈ sitesOf path outer number previous nodes) :
    site.node.kind ∈ kindsOf nodes := by
  cases nodes with
  | nil => cases member
  | cons node others =>
      obtain here | later := List.mem_append.1 member
      · exact List.mem_append_left _ (node.kind_mem_kinds here)
      · exact List.mem_append_right _ (kind_mem_kindsOf others later)

end

/-! ## Text in the bytes of a source -/

/-- That a text stands at a byte of a source. -/
def Stands (bytes : ByteArray) (offset : Nat) (text : String) : Prop :=
  ∃ before after : String,
    bytes = (before ++ text ++ after).toUTF8 ∧ offset = before.utf8ByteSize

/-- A text that stands somewhere is what a node covers there. -/
theorem Stands.text? {bytes : ByteArray} {offset : Nat} {text : String}
    (stands : Stands bytes offset text) (kind : String) (field : Option String)
    (children : List Node) :
    (Node.mk kind field offset (offset + text.utf8ByteSize) children).text? bytes =
      some text := by
  obtain ⟨before, after, rfl, rfl⟩ := stands
  have shift := ByteArray.extract_append_size_add (a := before.toByteArray)
    (b := text.toByteArray ++ after.toByteArray) (i := 0) (j := text.toByteArray.size)
  have covered : (before ++ text ++ after).toUTF8.extract before.utf8ByteSize
      (before.utf8ByteSize + text.utf8ByteSize) = text.toUTF8 := by
    rw [String.toUTF8_eq_toByteArray, String.append_assoc, String.toByteArray_append,
      String.toByteArray_append, ← String.size_toByteArray, ← String.size_toByteArray,
      ← Nat.add_zero before.toByteArray.size, Nat.add_assoc, Nat.zero_add, shift,
      ByteArray.extract_append_eq_left rfl, String.toUTF8_eq_toByteArray]
  rw [Node.text?, Node.start, Node.stop, covered, String.fromUTF8?]
  exact dif_pos text.isValidUTF8

/-- Both of two texts stand where the two together stand. -/
theorem Stands.of_append {bytes : ByteArray} {offset : Nat} {left right : String}
    (stands : Stands bytes offset (left ++ right)) :
    Stands bytes offset left ∧ Stands bytes (offset + left.utf8ByteSize) right := by
  obtain ⟨before, after, rfl, rfl⟩ := stands
  refine ⟨⟨before, right ++ after, ?_, rfl⟩, ⟨before ++ left, after, ?_, ?_⟩⟩
  · simp only [String.append_assoc]
  · simp only [String.append_assoc]
  · rw [String.utf8ByteSize_append]

/-- The name that a part gives to what it stands right inside of, if its kind is that of
names there. -/
def Part.name? (nameKind : String) : Part → Option String
  | .node kind field inside =>
      if field = some "name" ∧ kind = nameKind then some (textOf inside) else none
  | _ => none

/-- The nodes that name what they stand in cover the names that the parts give. -/
theorem Shows.names {bytes : ByteArray} {offset : Nat} {parts : List Part} {nodes : List Node}
    (shown : Shows offset parts nodes) (stands : Stands bytes offset (textOf parts))
    (nameKind : String) :
    (nodes.filter fun node => node.field = some "name" ∧ node.kind = nameKind).filterMap
        (Node.text? bytes) =
      parts.filterMap (Part.name? nameKind) := by
  induction shown with
  | nil => rfl
  | gap others inductionHypothesis =>
      rw [List.filterMap_cons_none rfl]
      exact inductionHypothesis stands.of_append.2
  | @other offset text parts here nodes nonempty idle others inductionHypothesis =>
      have nameless : here.filter (fun node => node.field = some "name" ∧ node.kind = nameKind) =
          [] := List.filter_eq_nil_iff.2 fun node member named =>
        (idle node member).2.2.2.1 (of_decide_eq_true named).1
      rw [List.filterMap_cons_none rfl, List.filter_append, nameless, List.nil_append]
      exact inductionHypothesis stands.of_append.2
  | @node offset kind field inside parts children nodes within others _ inductionHypothesis =>
      rw [textOf, Part.text] at stands
      by_cases named : field = some "name" ∧ kind = nameKind
      · simp only [List.filter_cons, Node.field_mk, Node.kind_mk, named, and_self, decide_true,
          if_true]
        rw [List.filterMap_cons_some (stands.of_append.1.text? _ _ children),
          inductionHypothesis stands.of_append.2,
          List.filterMap_cons_some (by rw [Part.name?, if_pos ⟨rfl, rfl⟩])]
      · simp only [List.filter_cons, Node.field_mk, Node.kind_mk, named, decide_false]
        rw [List.filterMap_cons_none (by rw [Part.name?, if_neg named])]
        exact inductionHypothesis stands.of_append.2

end DocblockScan.SourceCode
