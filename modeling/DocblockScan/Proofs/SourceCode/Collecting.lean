import DocblockScan.Proofs.OrderedMap
import DocblockScan.Proofs.SourceCode.Sites

/-!
# Collecting classes and methods

The declarations of a tree are found in three rows, one for each kind, and every method is
then given to the class at the position of its owner. Where the nodes of a tree start in the
order in which they stand in it, what comes out is every class with the methods two levels
below it: `classesOf_allSites`.
-/

namespace DocblockScan.SourceCode

variable {bytes : ByteArray} {kind nameKind : String} {namespaces : List NamespaceScope}

/-! ## Rows of declarations -/

/-- The declarations among some sites are those among the first ones and then those among
the others. -/
theorem declarationsOf_append (left right : List Site) :
    declarationsOf bytes kind nameKind (left ++ right) =
      declarationsOf bytes kind nameKind left ++ declarationsOf bytes kind nameKind right :=
  List.flatMap_append

/-- Declarations are found site by site. -/
theorem declarationsOf_cons (site : Site) (others : List Site) :
    declarationsOf bytes kind nameKind (site :: others) =
      declarationsOf bytes kind nameKind [site] ++ declarationsOf bytes kind nameKind others :=
  declarationsOf_append [site] others

/-- A declaration stands where a site of its kind is. -/
theorem site_of_mem_declarationsOf {sites : List Site} {found : Site × String}
    (member : found ∈ declarationsOf bytes kind nameKind sites) :
    found.1 ∈ sites ∧ found.1.node.kind = kind := by
  obtain ⟨site, inSites, here⟩ := List.mem_flatMap.1 member
  by_cases same : site.node.kind = kind
  · rw [if_pos same] at here
    obtain ⟨child, -, named⟩ := List.mem_filterMap.1 here
    obtain ⟨name, -, rfl⟩ := Option.map_eq_some_iff.1 named
    exact ⟨inSites, same⟩
  · rw [if_neg same] at here
    cases here

/-- What a site declares stands there. -/
theorem site_of_mem_singleton {site : Site} {found : Site × String}
    (member : found ∈ declarationsOf bytes kind nameKind [site]) : found.1 = site :=
  List.mem_singleton.1 (site_of_mem_declarationsOf member).1

/-- Sites without a node of a kind hold no declaration of that kind. -/
theorem declarationsOf_eq_nil {sites : List Site}
    (none : ∀ site ∈ sites, site.node.kind ≠ kind) :
    declarationsOf bytes kind nameKind sites = [] :=
  List.eq_nil_iff_forall_not_mem.2 fun _ member =>
    none _ (site_of_mem_declarationsOf member).1 (site_of_mem_declarationsOf member).2

/-- Choosing among declarations by their sites is choosing among the sites. -/
theorem filter_declarationsOf (selects : Site → Bool) (sites : List Site) :
    (declarationsOf bytes kind nameKind sites).filter (fun found => selects found.1) =
      declarationsOf bytes kind nameKind (sites.filter selects) := by
  induction sites with
  | nil => rfl
  | cons site others inductionHypothesis =>
      rw [declarationsOf_cons, List.filter_append, inductionHypothesis]
      by_cases chosen : selects site = true
      · rw [List.filter_cons_of_pos chosen, declarationsOf_cons site (others.filter selects),
          List.filter_eq_self.2 fun found member => by rw [site_of_mem_singleton member, chosen]]
      · rw [List.filter_cons_of_neg chosen, List.filter_eq_nil_iff.2 fun found member => by
          rwa [site_of_mem_singleton member], List.nil_append]

/-- Whether some sites stand in the order in which they start. -/
def InOrder (sites : List Site) : Prop :=
  sites.Pairwise fun left right => left.node.start ≤ right.node.start

instance (sites : List Site) : Decidable (InOrder sites) :=
  inferInstanceAs (Decidable (sites.Pairwise _))

/-- Declarations among sites in their order need no sorting. -/
theorem inSourceOrder_declarationsOf {sites : List Site} (ordered : InOrder sites) :
    inSourceOrder (declarationsOf bytes kind nameKind sites) =
      declarationsOf bytes kind nameKind sites := by
  refine List.mergeSort_of_pairwise ?_
  induction ordered with
  | nil => exact List.Pairwise.nil
  | @cons site others later _ inductionHypothesis =>
      rw [declarationsOf_cons, List.pairwise_append]
      refine ⟨List.pairwise_of_forall_mem_list fun left isLeft right isRight => ?_,
        inductionHypothesis, fun left isLeft right isRight => ?_⟩
      · rw [site_of_mem_singleton isLeft, site_of_mem_singleton isRight]
        exact decide_eq_true (Nat.le_refl _)
      · rw [site_of_mem_singleton isLeft]
        exact decide_eq_true (later right.1 (site_of_mem_declarationsOf isRight).1)

/-! ## Positions -/

/-- The position of a class is where its path is listed, if no path is listed twice. -/
theorem get?_positionsOf {classes : List (Site × String)}
    (distinct : (classes.map fun found => found.1.path).Nodup) (path : List Nat)
    (position : Nat) :
    (positionsOf classes).get? path = some position ↔
      (classes[position]?.map fun found => found.1.path) = some path := by
  have keys : (classes.zipIdx.map fun entry => (entry.1.1.path, entry.2)).map Prod.fst =
      classes.map fun found => found.1.path := by
    rw [List.map_map, ← List.zipIdx_map_fst 0 classes, List.map_map, List.zipIdx_map_fst]
    rfl
  have entries : (positionsOf classes).entries =
      classes.zipIdx.map fun entry => (entry.1.1.path, entry.2) :=
    OrderedMap.entries_insertAll_of_nodup (keys ▸ distinct)
  rw [OrderedMap.get?_eq_some_iff, entries, List.mem_map]
  constructor
  · rintro ⟨⟨found, place⟩, member, same⟩
    obtain ⟨rfl, rfl⟩ := Prod.mk.inj same
    rw [List.mem_zipIdx_iff_getElem?.1 member]
    rfl
  · intro listed
    obtain ⟨found, here, same⟩ := Option.map_eq_some_iff.1 listed
    exact ⟨(found, position), List.mem_zipIdx_iff_getElem?.2 here, by rw [same]⟩

/-- Giving a method away changes its owner and no other class. -/
theorem addMethod_map {classes : List (Site × String)}
    (distinct : (classes.map fun found => found.1.path).Nodup)
    (built : Site × String → ClassDeclaration) (method : Site × String) :
    addMethod bytes (positionsOf classes) (classes.map built) method =
      classes.map fun found =>
        if method.1.owner? = some found.1.path then withMethod (methodOf bytes method) (built found)
        else built found := by
  rw [addMethod]
  split
  · next position given =>
      obtain ⟨path, owned, listed⟩ := Option.bind_eq_some_iff.1 given
      refine List.ext_getElem? fun other => ?_
      rw [List.getElem?_modify, List.getElem?_map, List.getElem?_map]
      cases here : classes[other]? with
      | none => rfl
      | some found =>
          have isOwner : position = other ↔ method.1.owner? = some found.1.path := by
            rw [owned, Option.some.injEq]
            constructor
            · rintro rfl
              have same := (get?_positionsOf distinct path position).1 listed
              rw [here] at same
              exact (Option.some.inj same).symm
            · rintro rfl
              have its := (get?_positionsOf distinct found.1.path other).2 (by rw [here]; rfl)
              exact Option.some.inj (listed.symm.trans its)
          simp only [Option.map_some, Option.map_eq_map, isOwner]
  · next nowhere =>
      refine List.map_congr_left fun found member => (if_neg fun owned => ?_).symm
      obtain ⟨position, here⟩ := List.mem_iff_getElem?.1 member
      have listed := (get?_positionsOf distinct found.1.path position).2 (by rw [here]; rfl)
      rw [owned, Option.bind_some, listed] at nowhere
      cases nowhere

/-- A class with some more methods. -/
def withMethods (methods : List MethodDeclaration) (declaration : ClassDeclaration) :
    ClassDeclaration :=
  { declaration with methods := declaration.methods ++ methods }

/-- Giving methods away one after the other gives every class its own, in their order. -/
theorem foldl_addMethod {classes : List (Site × String)}
    (distinct : (classes.map fun found => found.1.path).Nodup)
    (built : Site × String → ClassDeclaration) (methods : List (Site × String)) :
    methods.foldl (addMethod bytes (positionsOf classes)) (classes.map built) =
      classes.map fun found =>
        withMethods ((methods.filter (·.1.owner? = some found.1.path)).map (methodOf bytes))
          (built found) := by
  induction methods generalizing built with
  | nil => simp [withMethods]
  | cons method others inductionHypothesis =>
      rw [List.foldl_cons, addMethod_map distinct, inductionHypothesis]
      refine List.map_congr_left fun found _ => ?_
      by_cases owned : method.1.owner? = some found.1.path
      · simp [owned, withMethods, withMethod]
      · simp [owned]

/-! ## Classes of a tree -/

/-- The class that a declaration declares, with the methods two levels below it. -/
def wholeClass (bytes : ByteArray) (namespaces : List NamespaceScope) (found : Site × String) :
    ClassDeclaration :=
  withMethods ((declarationsOf bytes "method_declaration" "name" found.1.members).map
    (methodOf bytes)) (classOf bytes namespaces found)

/-- That some sites declare certain classes, each one once. -/
structure Declares (bytes : ByteArray) (namespaces : List NamespaceScope) (sites : List Site)
    (classes : List ClassDeclaration) : Prop where
  once : ((declarationsOf bytes "class_declaration" "name" sites).map Prod.fst).Sublist sites
  read : (declarationsOf bytes "class_declaration" "name" sites).map
    (wholeClass bytes namespaces) = classes

/-- Sites without a class declare none. -/
theorem Declares.nothing {sites : List Site}
    (none : ∀ site ∈ sites, site.node.kind ≠ "class_declaration") :
    Declares bytes namespaces sites [] where
  once := by
    rw [declarationsOf_eq_nil none]
    exact List.nil_sublist sites
  read := by
    rw [declarationsOf_eq_nil none]
    rfl

/-- A site that is no class declares none. -/
theorem Declares.nothing_single {site : Site} (differs : site.node.kind ≠ "class_declaration") :
    Declares bytes namespaces [site] [] :=
  .nothing fun _ member => List.mem_singleton.1 member ▸ differs

/-- The classes of some sites are those of the first ones and then those of the others. -/
theorem Declares.append {left right : List Site} {first second : List ClassDeclaration}
    (declaresFirst : Declares bytes namespaces left first)
    (declaresSecond : Declares bytes namespaces right second) :
    Declares bytes namespaces (left ++ right) (first ++ second) where
  once := by
    rw [declarationsOf_append, List.map_append]
    exact declaresFirst.once.append declaresSecond.once
  read := by
    rw [declarationsOf_append, List.map_append, declaresFirst.read, declaresSecond.read]

/-- Sites that declare nothing may come after others. -/
theorem Declares.before_nothing {left right : List Site} {classes : List ClassDeclaration}
    (declares : Declares bytes namespaces left classes)
    (nothing : Declares bytes namespaces right []) :
    Declares bytes namespaces (left ++ right) classes := by
  simpa using declares.append nothing

/-- Sites that declare nothing may come before others. -/
theorem Declares.after_nothing {left right : List Site} {classes : List ClassDeclaration}
    (nothing : Declares bytes namespaces left [])
    (declares : Declares bytes namespaces right classes) :
    Declares bytes namespaces (left ++ right) classes :=
  nothing.append declares

/-- A site with one name declares one class. -/
theorem Declares.single {site : Site} (name : String) {declaration : ClassDeclaration}
    (found : declarationsOf bytes "class_declaration" "name" [site] = [(site, name)])
    (read : wholeClass bytes namespaces (site, name) = declaration) :
    Declares bytes namespaces [site] [declaration] where
  once := by
    rw [found]
    exact List.Sublist.refl [site]
  read := by
    rw [found, List.map_singleton, read]

/-- The methods of a class are the declarations two levels below it, wherever the class stands
in its tree. -/
theorem filter_owned {tree : Node} {site : Site} (member : site ∈ tree.allSites)
    (isClass : site.node.kind = "class_declaration") (isInside : site.path ≠ []) :
    (declarationsOf bytes kind nameKind tree.allSites).filter
        (·.1.owner? = some site.path) =
      declarationsOf bytes kind nameKind site.members := by
  have through : ∀ other : Site, decide (other.owner? = some site.path) = true →
      site.path <:+ other.path := by
    intro other owned
    rw [Site.suffix_of_owner? (of_decide_eq_true owned)]
    exact List.drop_suffix 2 other.path
  rw [filter_declarationsOf fun other => decide (other.owner? = some site.path), Node.allSites,
    tree.filter_sites member through, Site.filter_owner isClass isInside]

/-- What is collected from a tree are the classes that the sites in it declare, if its nodes
start in order. -/
theorem classesOf_allSites {tree : Node} {classes : List ClassDeclaration}
    (root : tree.kind = "program") (ordered : InOrder tree.allSites)
    (declared : Declares bytes (namespacesOf bytes (sitesOf [] [tree] 0 none tree.children))
      (sitesOf [] [tree] 0 none tree.children) classes) :
    classesOf bytes tree.allSites = classes := by
  have whole : tree.allSites = ⟨tree, [], [], none⟩ :: sitesOf [] [tree] 0 none tree.children := by
    cases tree
    rfl
  have plain : ∀ kind nameKind : String, "program" ≠ kind →
      declarationsOf bytes kind nameKind tree.allSites =
        declarationsOf bytes kind nameKind (sitesOf [] [tree] 0 none tree.children) := by
    intro kind nameKind differs
    rw [whole, declarationsOf_cons, declarationsOf_eq_nil, List.nil_append]
    intro site member
    rw [List.mem_singleton.1 member, root]
    exact differs
  have inside : ∀ found ∈ declarationsOf bytes "class_declaration" "name"
      (sitesOf [] [tree] 0 none tree.children),
      found.1 ∈ tree.allSites ∧ found.1.node.kind = "class_declaration" ∧ found.1.path ≠ [] := by
    intro found member
    obtain ⟨inSites, isClass⟩ := site_of_mem_declarationsOf member
    obtain ⟨place, -, through⟩ := exists_suffix_of_mem_sitesOf _ inSites
    refine ⟨whole ▸ List.mem_cons_of_mem _ inSites, isClass, fun empty => ?_⟩
    rw [empty] at through
    cases List.suffix_nil.1 through
  have distinct : ((declarationsOf bytes "class_declaration" "name"
      (sitesOf [] [tree] 0 none tree.children)).map fun found => found.1.path).Nodup := by
    have once := (declared.once.map Site.path).nodup (nodup_path_sitesOf _ _ _ _ _)
    rwa [List.map_map] at once
  rw [classesOf, inSourceOrder_declarationsOf ordered, inSourceOrder_declarationsOf ordered,
    plain "class_declaration" "name" (by decide), foldl_addMethod distinct, ← declared.read]
  refine List.map_congr_left fun found member => ?_
  obtain ⟨inTree, isClass, isInside⟩ := inside found member
  rw [filter_owned inTree isClass isInside, namespacesOf, plain _ _ (by decide)]
  rfl

end DocblockScan.SourceCode
