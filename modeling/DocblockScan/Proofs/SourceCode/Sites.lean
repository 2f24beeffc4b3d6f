import DocblockScan.SourceCode.Classes
import Mathlib.Data.List.Basic

/-!
# Sites of a tree

Every site of a tree has a path of its own, and what is below a site are the sites whose
paths go through it: `Node.filter_sites`. The sites that belong to a class are therefore
those two levels below it, wherever the class stands in its tree: `Site.filter_owner`.
-/

namespace DocblockScan.SourceCode

/-- The sites of some siblings, without what is in them. -/
def rowOf (path : List Nat) (outer : List Node) (number : Nat) (previous : Option Node) :
    List Node → List Site
  | [] => []
  | node :: others =>
      ⟨node, number :: path, outer, previous⟩ :: rowOf path outer (number + 1) (some node) others

namespace Site

/-- A site and all sites in it. -/
def below (site : Site) : List Site :=
  site.node.sites site.path site.outer site.previous

/-- The sites right inside a site. -/
def row (site : Site) : List Site :=
  rowOf site.path (site.node :: site.outer) 0 none site.node.children

/-- The sites right inside those right inside a site. -/
def members (site : Site) : List Site :=
  site.row.flatMap row

end Site

/-! ## Rows -/

variable {path : List Nat} {outer : List Node} {number : Nat} {previous : Option Node}

/-- The sites of some siblings are those below each of them. -/
theorem sitesOf_eq_flatMap (nodes : List Node) :
    sitesOf path outer number previous nodes =
      (rowOf path outer number previous nodes).flatMap Site.below := by
  induction nodes generalizing number previous with
  | nil => rfl
  | cons node others inductionHypothesis =>
      rw [sitesOf, inductionHypothesis]
      rfl

/-- What is below a site is the site and what is below those right inside it. -/
theorem Site.below_eq (site : Site) : site.below = site :: site.row.flatMap Site.below := by
  obtain ⟨⟨kind, field, start, stop, children⟩, path, outer, previous⟩ := site
  rw [Site.row, ← sitesOf_eq_flatMap]
  rfl

/-- A site of a row is numbered and has the same surroundings as the others. -/
theorem exists_of_mem_rowOf {nodes : List Node} {site : Site}
    (member : site ∈ rowOf path outer number previous nodes) :
    site.outer = outer ∧ ∃ place, site.path = place :: path := by
  induction nodes generalizing number previous with
  | nil => cases member
  | cons node others inductionHypothesis =>
      obtain rfl | later := List.mem_cons.1 member
      · exact ⟨rfl, number, rfl⟩
      · exact inductionHypothesis later

theorem sitesOf_append (left right : List Node) :
    sitesOf path outer number previous (left ++ right) =
      sitesOf path outer number previous left ++
        sitesOf path outer (number + left.length) (left.getLast?.or previous) right := by
  induction left generalizing number previous with
  | nil => rfl
  | cons node others inductionHypothesis =>
      rw [List.cons_append, sitesOf, sitesOf, inductionHypothesis, List.append_assoc,
        List.length_cons, Nat.add_right_comm, Nat.add_assoc]
      cases others <;> rfl

/-- The sites of a node that stands alone. -/
theorem sitesOf_singleton (kind : String) (field : Option String) (start stop : Nat)
    (children : List Node) :
    sitesOf path outer number previous [.mk kind field start stop children] =
      [⟨.mk kind field start stop children, number :: path, outer, previous⟩] ++
        sitesOf (number :: path) (.mk kind field start stop children :: outer) 0 none children := by
  rw [sitesOf, sitesOf, List.append_nil]
  rfl

theorem rowOf_append (left right : List Node) :
    rowOf path outer number previous (left ++ right) =
      rowOf path outer number previous left ++
        rowOf path outer (number + left.length) (left.getLast?.or previous) right := by
  induction left generalizing number previous with
  | nil => rfl
  | cons node others inductionHypothesis =>
      rw [List.cons_append, rowOf, rowOf, inductionHypothesis, List.cons_append,
        List.length_cons, Nat.add_right_comm, Nat.add_assoc]
      cases others <;> rfl

/-! ## Paths -/

mutual

/-- The paths of the sites in a node go through the node. -/
theorem Node.suffix_of_mem_sites (node : Node) {path : List Nat} {outer : List Node}
    {previous : Option Node} {site : Site} (member : site ∈ node.sites path outer previous) :
    path <:+ site.path := by
  cases node with
  | mk kind field start stop children =>
      obtain rfl | inside := List.mem_cons.1 member
      · exact List.suffix_refl path
      · obtain ⟨place, -, through⟩ := exists_suffix_of_mem_sitesOf children inside
        exact (List.suffix_cons place path).trans through

/-- The paths of the sites in some siblings go through one of them. -/
theorem exists_suffix_of_mem_sitesOf (nodes : List Node) {path : List Nat} {outer : List Node}
    {number : Nat} {previous : Option Node} {site : Site}
    (member : site ∈ sitesOf path outer number previous nodes) :
    ∃ place, number ≤ place ∧ (place :: path) <:+ site.path := by
  cases nodes with
  | nil => cases member
  | cons node others =>
      obtain here | later := List.mem_append.1 member
      · exact ⟨number, Nat.le_refl number, node.suffix_of_mem_sites here⟩
      · obtain ⟨place, after, through⟩ := exists_suffix_of_mem_sitesOf others later
        exact ⟨place, Nat.le_of_succ_le after, through⟩

end

/-- A path goes through one site of a row only. -/
theorem eq_of_suffix {left right : Nat} {path whole : List Nat}
    (first : (left :: path) <:+ whole) (second : (right :: path) <:+ whole) : left = right := by
  have same := (List.suffix_of_suffix_length_le first second (Nat.le_refl _)).eq_of_length rfl
  exact (List.cons.inj same).1

/-- A path that goes through a site in a node is longer than that of the node. -/
theorem not_suffix_of_cons_suffix {place : Nat} {path whole : List Nat}
    (inside : (place :: path) <:+ whole) : ¬ whole <:+ path := by
  intro outside
  have longer := inside.length_le
  have shorter := outside.length_le
  simp only [List.length_cons] at longer
  omega

mutual

/-- Sites whose paths go through a site of a node are below that site. -/
theorem Node.filter_sites (node : Node) {path : List Nat} {outer : List Node}
    {previous : Option Node} {site : Site} (member : site ∈ node.sites path outer previous)
    {selects : Site → Bool} (through : ∀ other, selects other = true → site.path <:+ other.path) :
    (node.sites path outer previous).filter selects = site.below.filter selects := by
  cases node with
  | mk kind field start stop children =>
      obtain rfl | inside := List.mem_cons.1 member
      · rfl
      · obtain ⟨place, -, longer⟩ := exists_suffix_of_mem_sitesOf children inside
        rw [Node.sites, List.filter_cons_of_neg fun selected =>
          not_suffix_of_cons_suffix longer (through _ selected)]
        exact filter_sitesOf children inside through

/-- Sites whose paths go through a site of some siblings are below that site. -/
theorem filter_sitesOf (nodes : List Node) {path : List Nat} {outer : List Node} {number : Nat}
    {previous : Option Node} {site : Site}
    (member : site ∈ sitesOf path outer number previous nodes)
    {selects : Site → Bool} (through : ∀ other, selects other = true → site.path <:+ other.path) :
    (sitesOf path outer number previous nodes).filter selects = site.below.filter selects := by
  cases nodes with
  | nil => cases member
  | cons node others =>
      rw [sitesOf, List.filter_append]
      obtain here | later := List.mem_append.1 member
      · have none : (sitesOf path outer (number + 1) (some node) others).filter selects = [] := by
          refine List.filter_eq_nil_iff.2 fun other elsewhere selected => ?_
          obtain ⟨place, after, passes⟩ := exists_suffix_of_mem_sitesOf others elsewhere
          have same := eq_of_suffix
            ((node.suffix_of_mem_sites here).trans (through other selected)) passes
          omega
        rw [none, List.append_nil]
        exact node.filter_sites here through
      · have none : (node.sites (number :: path) outer previous).filter selects = [] := by
          refine List.filter_eq_nil_iff.2 fun other elsewhere selected => ?_
          obtain ⟨place, after, passes⟩ := exists_suffix_of_mem_sitesOf others later
          have same := eq_of_suffix (node.suffix_of_mem_sites elsewhere)
            (passes.trans (through other selected))
          omega
        rw [none, List.nil_append]
        exact filter_sitesOf others later through

end

mutual

/-- The sites of a node have different paths. -/
theorem Node.nodup_path_sites (node : Node) (path : List Nat) (outer : List Node)
    (previous : Option Node) : ((node.sites path outer previous).map Site.path).Nodup := by
  cases node with
  | mk kind field start stop children =>
      rw [Node.sites, List.map_cons, List.nodup_cons]
      refine ⟨fun again => ?_, nodup_path_sitesOf children _ _ _ _⟩
      obtain ⟨site, inside, same⟩ := List.mem_map.1 again
      obtain ⟨place, -, longer⟩ := exists_suffix_of_mem_sitesOf children inside
      exact not_suffix_of_cons_suffix longer (same ▸ List.suffix_refl _)

/-- The sites of some siblings have different paths. -/
theorem nodup_path_sitesOf (nodes : List Node) (path : List Nat) (outer : List Node)
    (number : Nat) (previous : Option Node) :
    ((sitesOf path outer number previous nodes).map Site.path).Nodup := by
  cases nodes with
  | nil => exact List.nodup_nil
  | cons node others =>
      rw [sitesOf, List.map_append, List.nodup_append]
      refine ⟨node.nodup_path_sites _ _ _, nodup_path_sitesOf others _ _ _ _, ?_⟩
      rintro _ here _ later rfl
      obtain ⟨first, inside, same⟩ := List.mem_map.1 here
      obtain ⟨second, insideToo, sameToo⟩ := List.mem_map.1 later
      obtain ⟨place, after, passes⟩ := exists_suffix_of_mem_sitesOf others insideToo
      have equal := eq_of_suffix (node.suffix_of_mem_sites inside) (same ▸ sameToo ▸ passes)
      omega

end

/-! ## What belongs to a class -/

/-- A site belongs to a class two levels above it. -/
theorem Site.suffix_of_owner? {site : Site} {path : List Nat} (owned : site.owner? = some path) :
    path = site.path.drop 2 := by
  unfold Site.owner? at owned
  split at owned
  · split at owned
    · exact (Option.some.inj owned).symm
    · cases owned
  · cases owned

/-- Of all that is below a class the sites two levels below belong to it. -/
theorem Site.filter_owner {site : Site} (isClass : site.node.kind = "class_declaration")
    (isInside : site.path ≠ []) :
    site.below.filter (·.owner? = some site.path) = site.members := by
  have positive : 0 < site.path.length := List.length_pos_iff.2 isInside
  have apart : ∀ {other : Site}, (other.path.drop 2).length ≠ site.path.length →
      ¬ other.owner? = some site.path := fun differs owned =>
    differs (congrArg List.length (Site.suffix_of_owner? owned)).symm
  have deeper : ∀ inner ∈ site.row, ∀ member ∈ inner.row, ∀ other ∈ member.row.flatMap below,
      ¬ other.owner? = some site.path := by
    intro inner isInner member isMember other isOther
    obtain ⟨-, place, spelled⟩ := exists_of_mem_rowOf isInner
    obtain ⟨-, second, spelledToo⟩ := exists_of_mem_rowOf isMember
    rw [Site.row, ← sitesOf_eq_flatMap] at isOther
    obtain ⟨third, -, passes⟩ := exists_suffix_of_mem_sitesOf _ isOther
    have longer := passes.length_le
    refine apart ?_
    simp only [spelledToo, spelled, List.length_cons, List.length_drop] at longer ⊢
    omega
  have owned : ∀ inner ∈ site.row, ∀ member ∈ inner.row, member.owner? = some site.path := by
    intro inner isInner member isMember
    obtain ⟨around, place, spelled⟩ := exists_of_mem_rowOf isInner
    obtain ⟨aroundToo, second, spelledToo⟩ := exists_of_mem_rowOf isMember
    rw [Site.owner?, aroundToo, around]
    simp [isClass, spelledToo, spelled]
  have members : ∀ inner ∈ site.row,
      inner.below.filter (·.owner? = some site.path) = inner.row := by
    intro inner isInner
    obtain ⟨-, place, spelled⟩ := exists_of_mem_rowOf isInner
    have outside : ¬ inner.owner? = some site.path := by
      refine apart ?_
      simp only [spelled, List.length_cons, List.length_drop]
      omega
    rw [inner.below_eq, List.filter_cons_of_neg (by simpa using outside), List.filter_flatMap]
    have each : ∀ member ∈ inner.row,
        member.below.filter (·.owner? = some site.path) = [member] := by
      intro member isMember
      have isOwned := owned inner isInner member isMember
      rw [member.below_eq, List.filter_cons_of_pos (by simpa using isOwned),
        List.filter_eq_nil_iff.2 fun other isOther => by
          simpa using deeper inner isInner member isMember other isOther]
    rw [List.flatMap_congr each]
    simp
  have outside : ¬ site.owner? = some site.path := by
    refine apart ?_
    simp only [List.length_drop]
    omega
  rw [site.below_eq, List.filter_cons_of_neg (by simpa using outside), List.filter_flatMap,
    List.flatMap_congr members]
  rfl

end DocblockScan.SourceCode
