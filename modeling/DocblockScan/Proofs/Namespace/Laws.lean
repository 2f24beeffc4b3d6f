import DocblockScan.Proofs.ClassLookup

/-!
# Laws of names

Names are joined from parts, put under other names and turned into paths, and are trimmed at
each of these steps. Trimming composes: joining is associative and putting names under others
acts as joining does. A path depends on the trimmed name and the trimmed root only, and a root
is taken off a name at a separator or not at all: `names_compose`.
-/

namespace DocblockScan.Namespace

open Text (Firm)

/-! ## Joining -/

theorem kept_append (front back : List String) : kept (front ++ back) = kept front ++ kept back := by
  rw [kept, List.map_append, List.filter_append]
  rfl

/-- The join of a single part is the trimmed part. -/
theorem join_singleton (name : String) : join [name] = trim name := by
  by_cases blank : trim name = "" <;> simp [join, blank]

/-- A join is that of its front and its back with a separator between them, if both are
there. -/
theorem join_append (front back : List String) :
    join (front ++ back) =
      if join front = "" then join back
      else if join back = "" then join front
      else join front ++ "\\" ++ join back := by
  have whole : ∀ parts, join parts = String.intercalate "\\" (kept parts) := fun _ => rfl
  by_cases noFront : kept front = []
  · rw [if_pos ((join_eq_empty_iff front).2 noFront), whole, whole, kept_append, noFront,
      List.nil_append]
  rw [if_neg (mt (join_eq_empty_iff front).1 noFront)]
  by_cases noBack : kept back = []
  · rw [if_pos ((join_eq_empty_iff back).2 noBack), whole, whole, kept_append, noBack,
      List.append_nil]
  · rw [if_neg (mt (join_eq_empty_iff back).1 noBack), whole, whole, whole, kept_append,
      String.intercalate_append_of_ne_nil noFront noBack]

/-- A join depends on the joins of its front and its back. -/
theorem join_congr {front back otherFront otherBack : List String}
    (sameFront : join front = join otherFront) (sameBack : join back = join otherBack) :
    join (front ++ back) = join (otherFront ++ otherBack) := by
  rw [join_append, join_append, sameFront, sameBack]

/-- Nothing changes when a join is joined on its own. -/
theorem join_self (parts : List String) : join [join parts] = join parts := by
  rw [join_singleton, trim_join]

/-- Joins are joined as their parts are. -/
theorem join_join (front back : List String) :
    join [join front, join back] = join (front ++ back) :=
  @join_congr [join front] [join back] _ _ (join_self front) (join_self back)

/-- The join of two names. -/
theorem join_pair (outer name : String) :
    join [outer, name] =
      if trim outer = "" then trim name
      else if trim name = "" then trim outer
      else trim outer ++ "\\" ++ trim name := by
  have pair : join [outer, name] = join ([outer] ++ [name]) := rfl
  rw [pair, join_append, join_singleton, join_singleton]

/-- A join is blank only if its parts are. -/
theorem join_pair_ne_empty (outer : String) {name : String} (some : trim name ≠ "") :
    join [outer, name] ≠ "" := by
  rw [join_pair]
  split
  · exact some
  · simp [some]

/-! ## Names under other names -/

/-- Names of which something is left when they are trimmed are put under another one by
joining them with it. -/
theorem qualify_eq_map_join (outer : String) {names : List String}
    (some : ∀ name ∈ names, trim name ≠ "") :
    qualify outer names = names.map fun name => join [outer, name] := by
  unfold qualify
  refine List.map_congr_left fun name member => ?_
  rw [join_pair, if_neg (some name member)]

/-- A name is put under another one by joining them, unless nothing is left of it: then the
other one gets a separator at its end. -/
theorem qualify_eq_join_iff (outer name : String) :
    qualify outer [name] = [join [outer, name]] ↔ trim outer = "" ∨ trim name ≠ "" := by
  rw [qualify, List.map_singleton, join_pair]
  by_cases noOuter : trim outer = ""
  · simp [noOuter]
  rw [if_neg noOuter, if_neg noOuter]
  by_cases noName : trim name = ""
  · have longer : (trim outer ++ "\\" ++ "").toList ≠ (trim outer).toList := by simp
    rw [if_pos noName, noName]
    refine iff_of_false (fun same => longer (congrArg String.toList (List.singleton_inj.1 same))) ?_
    simp [noOuter]
  · simp [noName]

/-- Names are put under one name after the other as they are put under both. -/
theorem qualify_qualify (outer inner : String) {names : List String}
    (some : ∀ name ∈ names, trim name ≠ "") :
    qualify outer (qualify inner names) = qualify (join [outer, inner]) names := by
  have someInner : ∀ name ∈ names.map fun name => join [inner, name], trim name ≠ "" := by
    intro joined member
    obtain ⟨name, isName, rfl⟩ := List.mem_map.1 member
    rw [trim_join]
    exact join_pair_ne_empty inner (some name isName)
  rw [qualify_eq_map_join inner some, qualify_eq_map_join outer someInner,
    qualify_eq_map_join _ some, List.map_map]
  refine List.map_congr_left fun name _ => ?_
  have inside : join [outer, join [inner, name]] = join [outer, inner, name] :=
    @join_congr [outer] [join [inner, name]] [outer] _ rfl (join_self [inner, name])
  have outside : join [join [outer, inner], name] = join [outer, inner, name] :=
    @join_congr [join [outer, inner]] [name] _ [name] (join_self [outer, inner]) rfl
  rw [Function.comp_apply, inside, outside]

/-! ## Paths -/

/-- Without a root all of a trimmed name is below. -/
theorem below_empty (name : String) : below name "" = (trim name).toList := by
  have noRoot : (trim "").toList = [] := rfl
  rw [below, noRoot, belowRoot, if_pos rfl]
  exact (firm_trim name).trimBy_eq

/-- Names of which the same is below their roots have the same path. -/
theorem toPath_congr {name other root otherRoot : String}
    (same : below name root = below other otherRoot) : toPath name root = toPath other otherRoot := by
  rw [← String.toList_inj, toList_toPath, toList_toPath, same]

/-- No separator of names is left in a path. -/
theorem separator_not_mem_toPath (name root : String) : separator ∉ (toPath name root).toList := by
  rw [toList_toPath, List.mem_map]
  rintro ⟨char, -, same⟩
  rw [inPath] at same
  split at same
  · exact absurd same (by decide)
  · contradiction

/-- What is below a root consists of characters of the name. -/
theorem mem_of_mem_below {name root : String} {char : Char} (member : char ∈ below name root) :
    char ∈ name.toList := by
  have inTrimmed := (belowRoot_suffix _ _).subset (Text.mem_of_mem_trimBy member)
  rw [trim, String.toList_ofList] at inTrimmed
  exact Text.mem_of_mem_trimBy inTrimmed

/-- Of the characters that are not trimmed only a slash is a slash in a path. -/
theorem eq_slash_of_inPath {char : Char} (stays : isEdge char = false)
    (slash : inPath char = '/') : char = '/' := by
  rw [inPath] at slash
  split at slash
  · next isSeparator => simp [isSeparator, isEdge] at stays
  · exact slash

/-- A slash at an end of a path is one of the name. -/
theorem slash_mem_of_toPath {name root : String}
    (ends : '/' ∈ (toPath name root).toList.head? ∨ '/' ∈ (toPath name root).toList.getLast?) :
    '/' ∈ name.toList := by
  have firm : Firm isEdge (below name root) := Text.firm_trimBy _ _
  rw [toList_toPath, List.head?_map, List.getLast?_map, Option.mem_def, Option.mem_def,
    Option.map_eq_some_iff, Option.map_eq_some_iff] at ends
  rcases ends with ⟨char, first, slash⟩ | ⟨char, last, slash⟩
  · rw [← eq_slash_of_inPath (firm.starts char first) slash]
    exact mem_of_mem_below (List.mem_of_head? first)
  · rw [← eq_slash_of_inPath (firm.ends char last) slash]
    exact mem_of_mem_below (List.mem_of_getLast? last)

/-- Of a name that is put under a root only the name is below the root. -/
theorem below_join_root (name root : String) :
    below (join [root, name]) root = (trim name).toList := by
  rw [below, trim_join, join_pair]
  by_cases noRoot : trim root = ""
  · rw [if_pos noRoot, noRoot, String.toList_empty, belowRoot, if_pos rfl]
    exact (firm_trim name).trimBy_eq
  rw [if_neg noRoot, belowRoot, if_neg (by simpa using noRoot)]
  by_cases noName : trim name = ""
  · rw [if_pos noName, if_pos rfl, noName]
    rfl
  · have letters : (trim root ++ "\\" ++ trim name).toList =
        ((trim root).toList ++ [separator]) ++ (trim name).toList := by
      simp [separator]
    have longer : (trim root ++ "\\" ++ trim name).toList ≠ (trim root).toList := by
      rw [letters, List.append_assoc]
      simp
    rw [if_neg noName, if_neg longer, letters, dropStart?_append]
    exact (firm_trim name).trimBy_eq

/-- Below a root that a name does not stand under is the whole name. -/
theorem below_of_foreign {name root : String} (other : trim name ≠ trim root)
    (notUnder : ∀ rest, trim name ≠ trim root ++ "\\" ++ rest) :
    below name root = (trim name).toList := by
  have apart : ¬ (trim root).toList ++ [separator] <+: (trim name).toList := by
    rintro ⟨rest, same⟩
    refine notUnder (.ofList rest) ?_
    rw [← String.toList_inj, ← same]
    simp [separator]
  have otherLetters : (trim name).toList ≠ (trim root).toList := mt String.toList_inj.1 other
  have whole : belowRoot (trim root).toList (trim name).toList = (trim name).toList := by
    rw [belowRoot, if_neg otherLetters, dropStart?_eq_none apart]
    split <;> rfl
  rw [below, whole]
  exact (firm_trim name).trimBy_eq

/-- The laws of the path of a name below a root. -/
structure PathLaws (name root : String) : Prop where
  /-- A path has no separators of names. -/
  plain : separator ∉ (toPath name root).toList
  /-- Separators and blanks around the name and the root do not count. -/
  padded : ∀ front back start final : String,
    (∀ char ∈ front.toList ++ back.toList, isEdge char = true) →
    (∀ char ∈ start.toList ++ final.toList, isEdge char = true) →
    toPath (front ++ name ++ back) (start ++ root ++ final) = toPath name root
  /-- A path starts or ends with a slash only if the name has one. -/
  slash : '/' ∈ (toPath name root).toList.head? ∨ '/' ∈ (toPath name root).toList.getLast? →
    '/' ∈ name.toList
  /-- The root is taken off a name that is put under it. -/
  rooted : toPath (join [root, name]) root = toPath name ""
  /-- A root that is neither the name nor ends at one of its separators is not taken off,
  whatever they have in common at their starts. -/
  foreign : trim name ≠ trim root → (∀ rest, trim name ≠ trim root ++ "\\" ++ rest) →
    toPath name root = toPath name ""

theorem pathLaws (name root : String) : PathLaws name root where
  plain := separator_not_mem_toPath name root
  padded := fun _ _ _ _ edges rootEdges => toPath_congr <| by
    rw [below, below, trim_padded edges, trim_padded rootEdges]
  slash := slash_mem_of_toPath
  rooted := toPath_congr ((below_join_root name root).trans (below_empty name).symm)
  foreign := fun other notUnder =>
    toPath_congr ((below_of_foreign other notUnder).trans (below_empty name).symm)

/-! ## All laws -/

/-- Trimming composes. Joins are joined as their parts are, and have neither blanks nor
separators at their ends. A name of which something is left when it is trimmed is put under
another one by joining the two, so that names are put under one name after the other as under
the join of these. The path of a name below a root obeys its laws, whatever both are. -/
theorem names_compose :
    (∀ front back, join [join front, join back] = join (front ++ back)) ∧
    (∀ parts, Firm isEdge (join parts).toList) ∧
    (∀ outer name, qualify outer [name] = [join [outer, name]] ↔
      trim outer = "" ∨ trim name ≠ "") ∧
    (∀ outer inner names, (∀ name ∈ names, trim name ≠ "") →
      qualify outer (qualify inner names) = qualify (join [outer, inner]) names) ∧
    ∀ name root, PathLaws name root :=
  ⟨join_join, firm_join, qualify_eq_join_iff, fun outer inner _ => qualify_qualify outer inner,
    pathLaws⟩

/-- A class with blanks around it is put under two names, and a root that is only the start of
a longer segment stays in a path. -/
theorem names_compose_application :
    qualify "\\App " (qualify " Http\\" ["\\ Page  \\"]) =
        qualify (join ["\\App ", " Http\\"]) ["\\ Page  \\"] ∧
      qualify (join ["\\App ", " Http\\"]) ["\\ Page  \\"] = ["App\\Http\\Page"] ∧
      toPath "Application\\Page" "App" = toPath "Application\\Page" "" ∧
      toPath "Application\\Page" "" = "Application/Page" := by
  obtain ⟨-, -, -, composes, paths⟩ := names_compose
  refine ⟨composes _ _ _ (by decide), by decide, (paths _ _).foreign (by decide) ?_, by decide⟩
  intro rest same
  have trimmed : trim "Application\\Page" = "Application\\Page" := by decide
  have root : trim "App" = "App" := by decide
  rw [trimmed, root, ← String.toList_inj] at same
  simp at same

end DocblockScan.Namespace
