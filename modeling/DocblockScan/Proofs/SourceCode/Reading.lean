import DocblockScan.Proofs.SourceCode.Collecting
import DocblockScan.Proofs.SourceCode.Rendering

/-!
# Reading what is laid out

Which methods and classes are found in the nodes that depict parts of a file. Every part is
read together with what stands before it, because the comment right before a declaration is
its docblock.
-/

namespace DocblockScan.SourceCode

variable {bytes : ByteArray} {offset : Nat} {parts : List Part} {nodes : List Node}
  {path : List Nat} {outer : List Node} {number : Nat} {previous : Option Node}

/-- That some nodes show parts which stand at a byte of a source. -/
structure Depicts (bytes : ByteArray) (offset : Nat) (parts : List Part) (nodes : List Node) :
    Prop where
  shown : Shows offset parts nodes
  stands : Stands bytes offset (textOf parts)

namespace Depicts

theorem eq_nil (depicted : Depicts bytes offset [] nodes) : nodes = [] := by
  cases depicted.shown
  rfl

/-- What depicts some parts and then some others is in two pieces. -/
theorem exists_of_append {left right : List Part}
    (depicted : Depicts bytes offset (left ++ right) nodes) :
    ∃ first second, nodes = first ++ second ∧ Depicts bytes offset left first ∧
      Depicts bytes (offset + (textOf left).utf8ByteSize) right second := by
  obtain ⟨first, second, split, shows, showsToo⟩ := depicted.shown.exists_of_append
  have stands := depicted.stands
  rw [textOf_append] at stands
  exact ⟨first, second, split, ⟨shows, stands.of_append.1⟩, ⟨showsToo, stands.of_append.2⟩⟩

/-- No node is there for a gap. -/
theorem of_gap {text : String} (depicted : Depicts bytes offset (.gap text :: parts) nodes) :
    Depicts bytes (offset + text.utf8ByteSize) parts nodes := by
  obtain ⟨shown, stands⟩ := depicted
  cases shown with
  | gap others => exact ⟨others, stands.of_append.2⟩

/-- Some idle nodes are there for a part of which nothing else is known. -/
theorem exists_of_other {text : String}
    (depicted : Depicts bytes offset (.other text :: parts) nodes) :
    ∃ here rest, nodes = here ++ rest ∧ here ≠ [] ∧ (∀ node ∈ here, node.IsIdle) ∧
      Depicts bytes (offset + text.utf8ByteSize) parts rest := by
  obtain ⟨shown, stands⟩ := depicted
  cases shown with
  | other nonempty idle others =>
      exact ⟨_, _, rfl, nonempty, idle, ⟨others, stands.of_append.2⟩⟩

/-- One node is there for a known node. -/
theorem exists_of_node {kind : String} {field : Option String} {inside : List Part}
    (depicted : Depicts bytes offset (.node kind field inside :: parts) nodes) :
    ∃ children rest,
      nodes = .mk kind field offset (offset + (textOf inside).utf8ByteSize) children :: rest ∧
        Depicts bytes offset inside children ∧
        Depicts bytes (offset + (textOf inside).utf8ByteSize) parts rest := by
  obtain ⟨shown, stands⟩ := depicted
  cases shown with
  | node within others =>
      exact ⟨_, _, rfl, ⟨within, stands.of_append.1⟩, ⟨others, stands.of_append.2⟩⟩

end Depicts

/-! ## Parts without declarations -/

/-- Parts that hold no class declare none. -/
theorem Shows.declares_nothing (shown : Shows offset parts nodes)
    (absent : "class_declaration" ∉ kindsIn parts) (namespaces : List NamespaceScope) :
    Declares bytes namespaces (sitesOf path outer number previous nodes) [] :=
  .nothing fun _ member same =>
    shown.not_mem_kindsOf (by decide) absent (same ▸ kind_mem_kindsOf nodes member)

/-- Idle nodes declare no class. -/
theorem declares_nothing_of_isIdle (idle : ∀ node ∈ nodes, node.IsIdle)
    (namespaces : List NamespaceScope) :
    Declares bytes namespaces (sitesOf path outer number previous nodes) [] :=
  .nothing fun _ member same =>
    not_mem_kindsOf_of_isIdle idle (by decide) (same ▸ kind_mem_kindsOf nodes member)

/-- Idle nodes declare no namespace. -/
theorem namespacesOf_eq_nil_of_isIdle (idle : ∀ node ∈ nodes, node.IsIdle) :
    namespacesOf bytes (sitesOf path outer number previous nodes) = [] := by
  rw [namespacesOf, declarationsOf_eq_nil, List.map_nil]
  exact fun site member same =>
    not_mem_kindsOf_of_isIdle idle (by decide) (same ▸ kind_mem_kindsOf nodes member)

/-- Parts that hold no namespace declare none. -/
theorem Shows.namespacesOf_eq_nil (shown : Shows offset parts nodes)
    (absent : "namespace_definition" ∉ kindsIn parts) :
    namespacesOf bytes (sitesOf path outer number previous nodes) = [] := by
  rw [namespacesOf, declarationsOf_eq_nil, List.map_nil]
  exact fun site member same =>
    shown.not_mem_kindsOf (by decide) absent (same ▸ kind_mem_kindsOf nodes member)

/-- No node for parts that hold no method is one, and no node right inside of one is. -/
theorem Shows.not_method (shown : Shows offset parts nodes)
    (absent : "method_declaration" ∉ kindsIn parts) :
    ∀ node ∈ nodes, node.kind ≠ "method_declaration" ∧
      ∀ child ∈ node.children, child.kind ≠ "method_declaration" := by
  induction shown with
  | nil => exact fun node member => absurd member List.not_mem_nil
  | gap others inductionHypothesis => exact inductionHypothesis absent
  | other nonempty idle others inductionHypothesis =>
      intro node member
      obtain here | later := List.mem_append.1 member
      · exact ⟨(idle node here).2.1, (idle node here).2.2.1⟩
      · exact inductionHypothesis absent node later
  | node within others insideHypothesis othersHypothesis =>
      simp only [kindsIn, Part.kinds, List.cons_append, List.mem_cons, List.mem_append,
        not_or] at absent
      intro node member
      obtain rfl | later := List.mem_cons.1 member
      · exact ⟨fun same => absent.1 same.symm, fun child isChild =>
          (insideHypothesis absent.2.1 child isChild).1⟩
      · exact othersHypothesis absent.2.2 node later

/-! ## Names -/

/-- A node with known parts declares what they name. -/
theorem Depicts.declarationsOf_site {kind nameKind : String} {field : Option String}
    {start stop : Nat} {inside : List Part} {children : List Node}
    (depicted : Depicts bytes offset inside children) :
    declarationsOf bytes kind nameKind
        [⟨.mk kind field start stop children, path, outer, previous⟩] =
      (inside.filterMap (Part.name? nameKind)).map
        (⟨.mk kind field start stop children, path, outer, previous⟩, ·) := by
  rw [declarationsOf, List.flatMap_singleton, if_pos (Node.kind_mk ..), Node.children_mk,
    ← List.map_filterMap, depicted.shown.names depicted.stands]

@[simp] theorem Part.name?_gap (text nameKind : String) :
    (Part.gap text).name? nameKind = none := rfl

@[simp] theorem Part.name?_other (text nameKind : String) :
    (Part.other text).name? nameKind = none := rfl

@[simp] theorem Identifier.name?_part (name : Identifier) :
    name.part.name? "name" = some name.text := by
  simp [Identifier.part, Part.name?, textOf, Part.text]

@[simp] theorem name?_bodyPart (kind nameKind : String) (level : Nat) (inside : List Part) :
    (bodyPart kind level inside).name? nameKind = none := by
  simp [bodyPart, Part.name?]

@[simp] theorem filterMap_name?_modifierParts (modifiers : List String) (nameKind : String) :
    (modifierParts modifiers).filterMap (Part.name? nameKind) = [] := by
  induction modifiers with
  | nil => rfl
  | cons modifier others inductionHypothesis => exact inductionHypothesis

@[simp] theorem filterMap_name?_parentParts (parent : Option Identifier) (nameKind : String) :
    (parentParts parent).filterMap (Part.name? nameKind) = [] := by
  cases parent <;> simp [parentParts, Part.name?]

/-! ## Kinds -/

theorem kindsIn_flatMap {Item : Type} (items : List Item) (parts : Item → List Part) :
    kindsIn (items.flatMap parts) = items.flatMap fun item => kindsIn (parts item) := by
  induction items with
  | nil => rfl
  | cons item others inductionHypothesis =>
      rw [List.flatMap_cons, kindsIn_append, inductionHypothesis, List.flatMap_cons]

@[simp] theorem kindsIn_modifierParts (modifiers : List String) :
    kindsIn (modifierParts modifiers) = [] := by
  simp [modifierParts, kindsIn_flatMap, kindsIn, Part.kinds]

@[simp] theorem kindsIn_parentParts (parent : Option Identifier) :
    kindsIn (parentParts parent) = [] := by
  cases parent <;> simp [parentParts, kindsIn, Part.kinds]

theorem kindsIn_leadParts {level : Nat} {lead : List Comment} {kind : String}
    (member : kind ∈ kindsIn (leadParts level lead)) : kind = "comment" := by
  rw [leadParts, kindsIn_flatMap] at member
  obtain ⟨comment, -, here⟩ := List.mem_flatMap.1 member
  exact List.mem_singleton.1 here

theorem MethodHead.kindsIn_parts {level : Nat} {head : MethodHead} {rest : List Part}
    (plain : kindsIn rest = []) {kind : String} (member : kind ∈ kindsIn (head.parts level rest)) :
    kind ∈ ["comment", "method_declaration", "name"] := by
  rw [MethodHead.parts, kindsIn_append, List.mem_append] at member
  obtain before | here := member
  · exact kindsIn_leadParts before ▸ List.mem_cons_self
  · simp only [kindsIn, Part.kinds, kindsIn_append, kindsIn_modifierParts, Identifier.part,
      plain, List.nil_append, List.append_nil] at here
    exact List.mem_cons_of_mem _ here

theorem kindsIn_methodsParts {level : Nat} {methods : List Method} {kind : String}
    (member : kind ∈ kindsIn (methodsParts level methods)) :
    kind ∈ ["comment", "method_declaration", "name"] := by
  induction methods with
  | nil => cases member
  | cons method others inductionHypothesis =>
      rw [methodsParts, kindsIn_append, List.mem_append] at member
      obtain here | later := member
      · cases method with
        | declared head => exact MethodHead.kindsIn_parts rfl here
        | defined head body => exact MethodHead.kindsIn_parts rfl here
      · exact inductionHypothesis later

/-! ## Comments -/

/-- Whether a node that stands before others is no comment. -/
def Quiet (previous : Option Node) : Prop :=
  ∀ node ∈ previous, node.kind ≠ "comment"

/-- That a declaration has a certain docblock where a certain node stands before it. -/
def Precedes (bytes : ByteArray) (previous : Option Node) (doc : Option String) : Prop :=
  ∀ site : Site, site.previous = previous → site.docblock? bytes = doc

/-- No docblock stands where there is no comment. -/
theorem Quiet.precedes (quiet : Quiet previous) : Precedes bytes previous none := by
  intro site before
  cases known : previous with
  | none => rw [Site.docblock?, before, known]; rfl
  | some node =>
      have silent := quiet node known
      rw [Site.docblock?, before, known]
      simp [silent]

/-- After idle nodes there is no comment. -/
theorem quiet_of_idle {here : List Node} (nonempty : here ≠ [])
    (idle : ∀ node ∈ here, node.IsIdle) : Quiet (here.getLast?.or previous) := by
  intro node last
  rw [List.getLast?_eq_some_getLast nonempty, Option.some_or] at last
  obtain rfl := Option.some.inj last
  exact (idle _ (List.getLast_mem nonempty)).2.2.2.2

/-- A comment before a declaration is its docblock, if it is one at all. -/
theorem Comment.precedes {comment : Comment} {node : Node} (isComment : node.kind = "comment")
    (covered : node.text? bytes = some comment.text) :
    Precedes bytes (some node) comment.docblock? := by
  intro site before
  rw [Site.docblock?, before]
  cases comment <;> simp [isComment, covered, Comment.docblock?, Comment.text, docblockMark]

theorem getLast?_append_or (first second : List Node) :
    (first ++ second).getLast?.or previous = second.getLast?.or (first.getLast?.or previous) := by
  rw [List.getLast?_append, Option.or_assoc]

/-- The docblock of a declaration is made out from the comments before it. -/
theorem Depicts.precedes {level : Nat} {lead : List Comment}
    (depicted : Depicts bytes offset (leadParts level lead) nodes) (quiet : Quiet previous) :
    Precedes bytes (nodes.getLast?.or previous) (docOf lead) := by
  rcases List.eq_nil_or_concat lead with rfl | ⟨front, comment, rfl⟩
  · obtain rfl := depicted.eq_nil
    exact quiet.precedes
  · rw [leadParts, List.concat_eq_append, List.flatMap_append, List.flatMap_singleton] at depicted
    obtain ⟨first, second, rfl, -, last⟩ := depicted.exists_of_append
    obtain ⟨children, rest, rfl, within, others⟩ := last.of_gap.exists_of_node
    obtain rfl := others.eq_nil
    rw [getLast?_append_or]
    have covered := within.stands.text? "comment" none children
    have isText : textOf [.gap comment.text] = comment.text := by simp [textOf, Part.text]
    rw [isText] at covered ⊢
    simpa [docOf] using Comment.precedes (Node.kind_mk ..) covered

/-- Comments and then the declaration that they stand before. -/
theorem Depicts.exists_of_lead {level : Nat} {lead : List Comment} {part : Part}
    (depicted : Depicts bytes offset
      (leadParts level lead ++ [.gap (lineBreak level), part]) nodes)
    (quiet : Quiet previous) :
    ∃ comments here start, nodes = comments ++ here ∧ offset ≤ start ∧
      start ≤ offset +
        (textOf (leadParts level lead ++ [.gap (lineBreak level), part])).utf8ByteSize ∧
      Shows offset (leadParts level lead) comments ∧
      Precedes bytes (comments.getLast?.or previous) (docOf lead) ∧
      Depicts bytes start [part] here := by
  obtain ⟨comments, here, rfl, first, second⟩ := depicted.exists_of_append
  refine ⟨comments, here, _, rfl, ?_, ?_, first.shown, first.precedes quiet, second.of_gap⟩
  · rw [Nat.add_assoc]
    exact Nat.le_add_right _ _
  · simp only [textOf_append, textOf, Part.text, String.utf8ByteSize_append]
    omega

/-! ## Methods -/

/-- The sites of a row are those of its nodes. -/
theorem node_mem_of_mem_rowOf {site : Site}
    (member : site ∈ rowOf path outer number previous nodes) :
    site.node ∈ nodes := by
  induction nodes generalizing number previous with
  | nil => cases member
  | cons node others inductionHypothesis =>
      obtain rfl | later := List.mem_cons.1 member
      · exact List.mem_cons_self
      · exact List.mem_cons_of_mem node (inductionHypothesis later)

/-- Nodes of which none is a method declare none. -/
theorem declarationsOf_rowOf_eq_nil (none : ∀ node ∈ nodes, node.kind ≠ "method_declaration") :
    declarationsOf bytes "method_declaration" "name" (rowOf path outer number previous nodes) =
      [] :=
  declarationsOf_eq_nil fun _ member => none _ (node_mem_of_mem_rowOf member)

/-- A method is read with its name and its docblock. -/
theorem reads_head {level : Nat} {head : MethodHead} {rest : List Part}
    (nameless : rest.filterMap (Part.name? "name") = [])
    (depicted : Depicts bytes offset (head.parts level rest) nodes) (quiet : Quiet previous) :
    (declarationsOf bytes "method_declaration" "name"
        (rowOf path outer number previous nodes)).map (methodOf bytes) =
          [⟨head.name.text, docOf head.lead⟩] ∧
      Quiet (nodes.getLast?.or previous) := by
  obtain ⟨comments, here, start, rfl, -, -, lead, precedes, last⟩ := depicted.exists_of_lead quiet
  obtain ⟨children, others, rfl, within, after⟩ := last.exists_of_node
  obtain rfl := after.eq_nil
  have noComment := lead.not_method fun member => absurd (kindsIn_leadParts member) (by decide)
  have named : (modifierParts head.modifiers ++
      [.other "function", .gap " ", head.name.part, .other "()"] ++ rest).filterMap
        (Part.name? "name") = [head.name.text] := by
    simp [nameless, List.filterMap_cons]
  constructor
  · rw [rowOf_append, declarationsOf_append,
      declarationsOf_rowOf_eq_nil fun node member => (noComment node member).1, List.nil_append,
      rowOf, rowOf, within.declarationsOf_site, named, List.map_singleton, List.map_singleton,
      methodOf, precedes _ rfl]
  · rw [getLast?_append_or]
    rintro node ⟨rfl⟩
    exact (by decide : "method_declaration" ≠ "comment")

/-- A method is read, whether it has a body or not. -/
theorem reads_method {level : Nat} {method : Method}
    (depicted : Depicts bytes offset (method.parts level) nodes) (quiet : Quiet previous) :
    (declarationsOf bytes "method_declaration" "name"
        (rowOf path outer number previous nodes)).map (methodOf bytes) = [method.declaration] ∧
      Quiet (nodes.getLast?.or previous) := by
  cases method with
  | declared head => exact reads_head rfl depicted quiet
  | defined head body => exact reads_head rfl depicted quiet

/-- Methods are read one after the other. -/
theorem reads_methods {level : Nat} (methods : List Method)
    (depicted : Depicts bytes offset (methodsParts level methods) nodes)
    (quiet : Quiet previous) :
    (declarationsOf bytes "method_declaration" "name"
        (rowOf path outer number previous nodes)).map (methodOf bytes) =
      methods.map Method.declaration := by
  induction methods generalizing offset nodes number previous with
  | nil =>
      obtain rfl := depicted.eq_nil
      rfl
  | cons method others inductionHypothesis =>
      obtain ⟨first, second, rfl, here, later⟩ := depicted.exists_of_append
      obtain ⟨read, quietAfter⟩ := reads_method here quiet
      rw [rowOf_append, declarationsOf_append, List.map_append, read,
        inductionHypothesis later quietAfter]
      rfl

/-- The methods between the braces of a class are read. -/
theorem reads_members {level : Nat} {methods : List Method}
    (depicted : Depicts bytes offset (bracedParts level (methodsParts (level + 1) methods))
      nodes) :
    (declarationsOf bytes "method_declaration" "name"
        (rowOf path outer number previous nodes)).map (methodOf bytes) =
      methods.map Method.declaration := by
  obtain ⟨brace, rest, rfl, nonempty, idle, after⟩ := depicted.exists_of_other
  obtain ⟨first, second, rfl, here, last⟩ := after.exists_of_append
  have noMethod : ∀ node ∈ second, node.kind ≠ "method_declaration" := fun node member =>
    (last.shown.not_method List.not_mem_nil node member).1
  rw [rowOf_append, declarationsOf_append,
    declarationsOf_rowOf_eq_nil fun node member => (idle node member).2.1, List.nil_append,
    rowOf_append, declarationsOf_append,
    declarationsOf_rowOf_eq_nil noMethod,
    List.append_nil, reads_methods methods here (quiet_of_idle nonempty idle)]

/-! ## Classes -/

/-- What stands two levels below a class before its body declares no method. -/
theorem declarationsOf_row_eq_nil
    (none : ∀ node ∈ nodes, ∀ child ∈ node.children, child.kind ≠ "method_declaration") :
    declarationsOf bytes "method_declaration" "name"
      ((rowOf path outer number previous nodes).flatMap Site.row) = [] := by
  refine declarationsOf_eq_nil fun site member => ?_
  obtain ⟨parent, inRow, below⟩ := List.mem_flatMap.1 member
  exact none _ (node_mem_of_mem_rowOf inRow) _ (node_mem_of_mem_rowOf below)

/-- The methods two levels below a class are those in its body. -/
theorem reads_class_members {kind : String} {field : Option String} {start stop level : Nat}
    {front : List Part} {children : List Node} {methods : List Method}
    (absent : "method_declaration" ∉ kindsIn front)
    (depicted : Depicts bytes offset
      (front ++ [bodyPart "declaration_list" level (methodsParts (level + 1) methods)]) children) :
    (declarationsOf bytes "method_declaration" "name"
        (Site.mk (.mk kind field start stop children) path outer previous).members).map
          (methodOf bytes) = methods.map Method.declaration := by
  obtain ⟨first, second, rfl, before, last⟩ := depicted.exists_of_append
  obtain ⟨inside, others, rfl, within, rest⟩ := last.exists_of_node
  obtain rfl := rest.eq_nil
  have noMethod := before.shown.not_method absent
  rw [Site.members, Site.row, Node.children_mk, rowOf_append, List.flatMap_append,
    declarationsOf_append, declarationsOf_row_eq_nil fun node member => (noMethod node member).2,
    List.nil_append, rowOf, rowOf, List.flatMap_singleton, Site.row, Node.children_mk,
    reads_members within]

/-- The names and kinds in the declaration of a class. -/
theorem NamedClass.filterMap_name?_parts (declared : NamedClass) (level : Nat)
    (inside : List Part) :
    (declared.headParts ++ [bodyPart "declaration_list" level inside]).filterMap
      (Part.name? "name") = [declared.name.text] := by
  simp [NamedClass.headParts, List.filterMap_cons]

theorem NamedClass.kindsIn_headParts (declared : NamedClass) :
    kindsIn declared.headParts = ["name"] := by
  simp [NamedClass.headParts, kindsIn_append, kindsIn, Part.kinds, Identifier.part]

theorem kindsIn_bodyPart (kind : String) (level : Nat) (inside : List Part) :
    kindsIn [bodyPart kind level inside] = kind :: kindsIn inside := by
  simp [bodyPart, bracedParts, kindsIn, Part.kinds, kindsIn_append]

theorem NamedClass.kindsIn_parts (declared : NamedClass) (level : Nat) (inside : List Part) :
    kindsIn (declared.headParts ++ [bodyPart "declaration_list" level inside]) =
      "name" :: "declaration_list" :: kindsIn inside := by
  rw [kindsIn_append, declared.kindsIn_headParts, kindsIn_bodyPart, List.singleton_append]

/-- A class is read with its name, its docblock and its methods. -/
theorem reads_class {level : Nat} {declared : NamedClass} {namespaceName : String}
    {namespaces : List NamespaceScope}
    (depicted : Depicts bytes offset (Definition.parts level (.named declared)) nodes)
    (quiet : Quiet previous)
    (inForce : ∀ place, offset ≤ place →
      place ≤ offset + (textOf (Definition.parts level (.named declared))).utf8ByteSize →
      namespaceAt namespaces place = namespaceName) :
    Declares bytes namespaces (sitesOf path outer number previous nodes)
        ((Definition.named declared).class? joined namespaceName).toList ∧
      Quiet (nodes.getLast?.or previous) := by
  obtain ⟨comments, here, start, rfl, after, before, lead, precedes, last⟩ :=
    depicted.exists_of_lead quiet
  obtain ⟨children, others, rfl, within, rest⟩ := last.exists_of_node
  obtain rfl := rest.eq_nil
  have noMember : "method_declaration" ∉ kindsIn declared.headParts := by
    rw [declared.kindsIn_headParts]
    decide
  have noInner : "class_declaration" ∉ kindsIn (declared.headParts ++
      [bodyPart "declaration_list" level (methodsParts (level + 1) declared.methods)]) := by
    rw [declared.kindsIn_parts, List.mem_cons, List.mem_cons, not_or, not_or]
    exact ⟨by decide, by decide, fun member => absurd (kindsIn_methodsParts member) (by decide)⟩
  constructor
  · rw [sitesOf_append, sitesOf_singleton]
    refine .after_nothing (lead.declares_nothing
        (fun member => absurd (kindsIn_leadParts member) (by decide)) namespaces)
      (.before_nothing ?_ (within.shown.declares_nothing noInner namespaces))
    refine .single declared.name.text ?_ ?_
    · rw [within.declarationsOf_site, declared.filterMap_name?_parts, List.map_singleton]
    · rw [wholeClass, reads_class_members noMember within, withMethods, classOf,
        precedes _ rfl, List.nil_append, Node.start_mk, inForce start after before]
      rfl
  · rw [getLast?_append_or]
    rintro node ⟨rfl⟩
    exact (by decide : "class_declaration" ≠ "comment")

/-- An interface, a trait or an enum is no class. -/
theorem reads_other {level : Nat} {kind : OtherKind} {lead : List Comment} {name : Identifier}
    {methods : List Method} (namespaces : List NamespaceScope)
    (depicted : Depicts bytes offset (Definition.parts level (.other kind lead name methods)) nodes)
    (quiet : Quiet previous) :
    Declares bytes namespaces (sitesOf path outer number previous nodes) [] ∧
      Quiet (nodes.getLast?.or previous) := by
  obtain ⟨comments, here, start, rfl, -, -, shown, -, last⟩ := depicted.exists_of_lead quiet
  obtain ⟨whole, others, rfl, nonempty, idle, rest⟩ := last.exists_of_other
  obtain rfl := rest.eq_nil
  rw [List.append_nil, getLast?_append_or]
  refine ⟨?_, quiet_of_idle nonempty idle⟩
  rw [sitesOf_append]
  exact .after_nothing (shown.declares_nothing
      (fun member => absurd (kindsIn_leadParts member) (by decide)) namespaces)
    (declares_nothing_of_isIdle idle namespaces)

/-- A declaration is read as the class that it declares, if it declares one. -/
theorem reads_definition {level : Nat} {definition : Definition} {namespaceName : String}
    {namespaces : List NamespaceScope}
    (depicted : Depicts bytes offset (definition.parts level) nodes) (quiet : Quiet previous)
    (inForce : ∀ place, offset ≤ place →
      place ≤ offset + (textOf (definition.parts level)).utf8ByteSize →
      namespaceAt namespaces place = namespaceName) :
    Declares bytes namespaces (sitesOf path outer number previous nodes)
        (definition.class? joined namespaceName).toList ∧
      Quiet (nodes.getLast?.or previous) := by
  cases definition with
  | named declared => exact reads_class depicted quiet inForce
  | other kind lead name methods => exact reads_other namespaces depicted quiet

/-- Declarations in a namespace are read one after the other. -/
theorem reads_definitions {level : Nat} (definitions : List Definition) {namespaceName : String}
    {namespaces : List NamespaceScope}
    (depicted : Depicts bytes offset (definitionsParts level definitions) nodes)
    (quiet : Quiet previous)
    (inForce : ∀ place, offset ≤ place →
      place ≤ offset + (textOf (definitionsParts level definitions)).utf8ByteSize →
      namespaceAt namespaces place = namespaceName) :
    Declares bytes namespaces (sitesOf path outer number previous nodes)
        (definitions.filterMap (Definition.class? joined namespaceName)) ∧
      Quiet (nodes.getLast?.or previous) := by
  induction definitions generalizing offset nodes number previous with
  | nil =>
      obtain rfl := depicted.eq_nil
      exact ⟨depicted.shown.declares_nothing List.not_mem_nil namespaces, quiet⟩
  | cons definition others inductionHypothesis =>
      have split : definitionsParts level (definition :: others) =
          definition.parts level ++ definitionsParts level others := List.flatMap_cons
      rw [split] at depicted inForce
      rw [textOf_append, String.utf8ByteSize_append] at inForce
      obtain ⟨first, second, rfl, here, later⟩ := depicted.exists_of_append
      obtain ⟨declares, quietAfter⟩ := reads_definition here quiet fun place low high =>
        inForce place low (by omega)
      obtain ⟨declaresOthers, quietLast⟩ := inductionHypothesis later quietAfter
        fun place low high => inForce place (by omega) (by omega)
      rw [sitesOf_append, List.filterMap_eq_flatMap_toList, List.flatMap_cons,
        ← List.filterMap_eq_flatMap_toList, getLast?_append_or]
      exact ⟨declares.append declaresOthers, quietLast⟩

end DocblockScan.SourceCode
