import DocblockScan.Proofs.Endpoint.Contribution
import DocblockScan.Proofs.Endpoint.Turns
import DocblockScan.Proofs.Text.Blank

/-!
# Paths put below one another

Slashes at the end of an outer path and at the start of an inner one mean nothing, and a path
of nothing but slashes is no outer path at all. So it makes no difference whether a path is put
below two others one after the other, or below the two put together: `joinRoutePath_assoc`.
Two tags in a row that put paths below others can be written as one: `joinRoutePath_acts`.
-/

namespace DocblockScan

open Text (Firm)

/-- Whether a character is a slash. -/
abbrev isSlash (char : Char) : Bool :=
  char == '/'

/-- A text of nothing but slashes. -/
def OnlySlashes (text : List Char) : Prop :=
  ∀ char ∈ text, isSlash char = true

instance (text : List Char) : Decidable (OnlySlashes text) :=
  decidable_of_iff (text.all isSlash = true) List.all_eq_true

/-- A path with other characters than slashes: a core that starts and ends with one of them
has slashes before and after it. -/
structure Cored (path front core back : List Char) : Prop where
  whole : path = front ++ (core ++ back)
  front : OnlySlashes front
  back : OnlySlashes back
  firm : Firm isSlash core
  some : core ≠ []

/-- A path is nothing but slashes, or it has a core. -/
theorem onlySlashes_or_cored (path : List Char) :
    OnlySlashes path ∨ ∃ front core back, Cored path front core back := by
  obtain ⟨front, back, frontSlashes, backSlashes, whole⟩ := Text.exists_padding isSlash path
  by_cases nothing : Text.trimBy isSlash path = []
  · left
    rw [nothing, List.nil_append] at whole
    rw [whole]
    exact List.forall_mem_append.2 ⟨frontSlashes, backSlashes⟩
  · exact .inr ⟨front, _, back, whole, frontSlashes, backSlashes, Text.firm_trimBy _ _, nothing⟩

/-! ## Joining texts -/

/-- How the characters of two paths are joined. -/
def joinCharacters (outer inner : List Char) : List Char :=
  let front := Text.dropEndWhile isSlash outer
  if front = [] then inner
  else
    match inner.dropWhile isSlash with
    | [] => front
    | back => front ++ '/' :: back

theorem toList_joinRoutePath (outer inner : String) :
    (joinRoutePath outer inner).toList = joinCharacters outer.toList inner.toList := by
  unfold joinRoutePath joinCharacters
  by_cases nothing : Text.dropEndWhile isSlash outer.toList = []
  · simp [nothing]
  · cases kept : inner.toList.dropWhile isSlash <;> simp [nothing, kept]

/-- An outer path of nothing but slashes leaves the inner one as it is. -/
theorem joinCharacters_of_onlySlashes {outer : List Char} (slashes : OnlySlashes outer)
    (inner : List Char) : joinCharacters outer inner = inner :=
  if_pos (Text.dropEndWhile_of_forall slashes)

namespace Cored

variable {outer inner front core back innerFront innerCore innerBack : List Char}

/-- Slashes after the core of an outer path make no difference. -/
theorem joinCharacters_eq (cored : Cored outer front core back) (inner : List Char) :
    joinCharacters outer inner =
      match inner.dropWhile isSlash with
      | [] => front ++ core
      | kept => front ++ core ++ '/' :: kept := by
  have notEmpty : front ++ core ≠ [] := List.append_ne_nil_of_right_ne_nil front cored.some
  rw [joinCharacters, cored.whole, cored.firm.dropEndWhile_append cored.some cored.back,
    if_neg notEmpty]

/-- The slashes after the core of an outer path can be left out. -/
theorem withoutBack (cored : Cored outer front core back) : Cored (front ++ core) front core [] :=
  ⟨by rw [List.append_nil], cored.front, nofun, cored.firm, cored.some⟩

/-- An inner path of nothing but slashes adds nothing to an outer one. -/
theorem joinCharacters_onlySlashes (cored : Cored outer front core back)
    (slashes : OnlySlashes inner) : joinCharacters outer inner = front ++ core := by
  have nothing : inner.dropWhile isSlash = [] := List.dropWhile_eq_nil_iff.2 slashes
  rw [cored.joinCharacters_eq, nothing]

/-- Two paths with cores are joined by one slash. -/
theorem joinCharacters_cored (cored : Cored outer front core back)
    (innerCored : Cored inner innerFront innerCore innerBack) :
    joinCharacters outer inner = front ++ (core ++ '/' :: innerCore ++ innerBack) := by
  obtain ⟨first, rest, split⟩ := List.exists_cons_of_ne_nil
    (List.append_ne_nil_of_left_ne_nil innerCored.some innerBack)
  rw [cored.joinCharacters_eq, innerCored.whole,
    innerCored.firm.dropWhile_append innerCored.some innerCored.front, split]
  simp [← split]

/-- The join of two paths with cores has the two cores and one slash as its core. -/
theorem join (cored : Cored outer front core back)
    (innerCored : Cored inner innerFront innerCore innerBack) :
    Cored (front ++ (core ++ '/' :: innerCore ++ innerBack)) front (core ++ '/' :: innerCore)
      innerBack where
  whole := rfl
  front := cored.front
  back := innerCored.back
  firm := cored.firm.append cored.some innerCored.firm innerCored.some ['/']
  some := by simp

end Cored

/-- A path may be put below two others one after the other, or below the two joined. -/
theorem joinCharacters_assoc (outer middle inner : List Char) :
    joinCharacters outer (joinCharacters middle inner) =
      joinCharacters (joinCharacters outer middle) inner := by
  rcases onlySlashes_or_cored outer with slashes | ⟨front, core, back, outerCored⟩
  · rw [joinCharacters_of_onlySlashes slashes, joinCharacters_of_onlySlashes slashes]
  rcases onlySlashes_or_cored middle with slashes | ⟨middleFront, middleCore, _, middleCored⟩
  · rw [outerCored.joinCharacters_onlySlashes slashes, joinCharacters_of_onlySlashes slashes,
      outerCored.joinCharacters_eq, outerCored.withoutBack.joinCharacters_eq]
  have joined := outerCored.join middleCored
  rw [outerCored.joinCharacters_cored middleCored]
  rcases onlySlashes_or_cored inner with slashes | ⟨_, innerCore, _, innerCored⟩
  · rw [middleCored.joinCharacters_onlySlashes slashes, joined.joinCharacters_onlySlashes slashes,
      outerCored.joinCharacters_cored middleCored.withoutBack, List.append_nil]
  · rw [middleCored.joinCharacters_cored innerCored, joined.joinCharacters_cored innerCored,
      outerCored.joinCharacters_cored (middleCored.join innerCored)]
    simp

theorem joinRoutePath_assoc (outer middle inner : String) :
    joinRoutePath outer (joinRoutePath middle inner) =
      joinRoutePath (joinRoutePath outer middle) inner := by
  rw [← String.toList_inj]
  simp only [toList_joinRoutePath, joinCharacters_assoc]

/-- Endpoints that are put below two paths one after the other are put below the two joined. -/
theorem Endpoint.moveBelow_comp (outer inner : String) :
    Endpoint.moveBelow outer ∘ Endpoint.moveBelow inner =
      Endpoint.moveBelow (joinRoutePath outer inner) := by
  funext endpoint
  simp [Endpoint.moveBelow, joinRoutePath_assoc]

/-! ## Tags that put paths below others -/

variable {className : String} {tag : Tag} {path : String}

/-- A tag with a path puts the endpoints that are there below it, whichever way the path is
given. -/
theorem takeTurns_pathStart (kind : tag.kind = .pathStart)
    (given : tag.arguments.mainText? "prefix" = some path) (current : List Endpoint)
    (later : List Tag) :
    takeTurns className current (tag :: later) =
      takeTurns className (current.map (Endpoint.moveBelow path)) later := by
  have read : ClassRule.readPathStart tag.arguments = .ok (.refine { path := some path }) := by
    rw [ClassRule.readPathStart, Arguments.requiredText_of_mainText? given]
    rfl
  have moved : Refinement.apply { path := some path } = Endpoint.moveBelow path := by
    funext endpoint
    have noMiddleware : Refinement.middlewareFor { path := some path } endpoint.method = [] :=
      Refinement.middlewareFor_of_unlisted rfl rfl endpoint.method
    rw [Refinement.apply, noMiddleware]
    simp [Endpoint.moveBelow, OrderedMap.insertAllNew, OrderedMap.empty]
  rw [takeTurns_cons (by rw [kind]; rfl) read, ClassRule.apply, moved]

/-- Joining is an action of paths on paths, for all texts: putting a path below two others one
after the other is putting it below the two joined, and an outer path of nothing but slashes
does nothing. Of other paths what stands before the slashes at the end of the outer one is
joined by one slash to what stands after the slashes at the start of the inner one. So two tags
in a row on a class that put paths below others make the same of it as one tag with the joined
path, whatever else is on the class and its methods: the same endpoints or the same error. -/
theorem joinRoutePath_acts :
    (∀ outer middle inner : String, joinRoutePath outer (joinRoutePath middle inner) =
      joinRoutePath (joinRoutePath outer middle) inner) ∧
    (∀ outer inner : String, OnlySlashes outer.toList → joinRoutePath outer inner = inner) ∧
    (∀ front back slashes innerSlashes : List Char, ∀ last first : Char,
      last ≠ '/' → first ≠ '/' → OnlySlashes slashes → OnlySlashes innerSlashes →
      joinRoutePath (.ofList (front ++ last :: slashes)) (.ofList (innerSlashes ++ first :: back)) =
        .ofList (front ++ last :: '/' :: first :: back)) ∧
    ∀ (className : String) (methods : OrderedMap String (List Tag)) (before after : List Tag)
      (first second joined : Tag) (inner outer : String),
      first.kind = .pathStart → first.arguments.mainText? "prefix" = some inner →
      second.kind = .pathStart → second.arguments.mainText? "prefix" = some outer →
      joined.kind = .pathStart →
      joined.arguments.mainText? "prefix" = some (joinRoutePath outer inner) →
      classEndpoints className ⟨before ++ first :: second :: after, methods⟩ =
        classEndpoints className ⟨before ++ joined :: after, methods⟩ := by
  refine ⟨joinRoutePath_assoc, fun outer inner slashes => ?_, ?_, ?_⟩
  · rw [← String.toList_inj, toList_joinRoutePath, joinCharacters_of_onlySlashes slashes]
  · intro front back slashes innerSlashes last first endsFirm startsFirm outerSlashes slashesBefore
    have ends : Text.dropEndWhile isSlash (front ++ last :: slashes) = front ++ [last] := by
      rw [Text.dropEndWhile_append_cons (by simpa using endsFirm),
        Text.dropEndWhile_of_forall outerSlashes]
    have starts : (innerSlashes ++ first :: back).dropWhile isSlash = first :: back := by
      rw [List.dropWhile_append_of_pos slashesBefore,
        List.dropWhile_cons_of_neg (by simpa using startsFirm)]
    rw [← String.toList_inj, toList_joinRoutePath]
    simp [joinCharacters, ends, starts]
  · intro className methods before after first second joined inner outer firstKind firstPath
      secondKind secondPath joinedKind joinedPath
    rw [classEndpoints_append, classEndpoints_append]
    congr 1
    funext current
    rw [takeTurns_pathStart firstKind firstPath, takeTurns_pathStart secondKind secondPath,
      takeTurns_pathStart joinedKind joinedPath, List.map_map, Endpoint.moveBelow_comp]

/-- A tag that puts the endpoints of a class below a path. -/
def pathStartTag (path : String) : Tag :=
  ⟨"Prefix", .pathStart, ⟨[.string path], .empty⟩⟩

/-- A method with a route at the path of its class. -/
def listMethods : OrderedMap String (List Tag) :=
  .ofList [("list", [⟨"Get", .route .get, ⟨[.string "/"], .empty⟩⟩])]

/-- Two paths with slashes too many, and one of nothing but slashes. -/
theorem joinRoutePath_acts_versioned :
    joinRoutePath "/" "users//" = "users//" ∧
    joinRoutePath "/v1//" "//users//" = "/v1/users//" ∧
    classEndpoints "Users"
        ⟨[pathStartTag "/", pathStartTag "//users//", pathStartTag "/v1//"], listMethods⟩ =
      classEndpoints "Users" ⟨[pathStartTag "/", pathStartTag "/v1/users//"], listMethods⟩ ∧
    (classEndpoints "Users" ⟨[pathStartTag "/", pathStartTag "/v1/users//"], listMethods⟩).map
      (·.map Endpoint.path) = .ok ["/v1/users"] := by
  obtain ⟨-, slashes, cored, tags⟩ := joinRoutePath_acts
  have joined : joinRoutePath "/v1//" "//users//" = "/v1/users//" :=
    cored "/v".toList "sers//".toList "//".toList "//".toList '1' 'u' (by decide) (by decide)
      (by decide) (by decide)
  refine ⟨slashes "/" "users//" (by decide), joined, ?_, by decide +kernel⟩
  exact tags "Users" listMethods [pathStartTag "/"] [] (pathStartTag "//users//")
    (pathStartTag "/v1//") (pathStartTag "/v1/users//") "//users//" "/v1//" rfl rfl rfl rfl rfl
    (joined ▸ rfl)

end DocblockScan
