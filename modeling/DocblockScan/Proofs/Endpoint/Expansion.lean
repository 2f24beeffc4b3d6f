import DocblockScan.Proofs.Endpoint.OuterPaths
import DocblockScan.Proofs.Text.LastPart
import DocblockScan.Proofs.Text.Lines

/-!
# What a resource stands for

The name of a resource is cut at its dots, and every segment but the last one is a parent with
a parameter of its own: `Nests`. The endpoints of a resource are those of the actions that its
lists let through, in a fixed order, with paths and names that follow from the segments:
`Expands`. They come after all endpoints that are there when the resource has its turn, and
slashes around the name, the order of the lists and names of no action make no difference:
`resource_expands`.
-/

namespace DocblockScan

open Text (Firm)

/-! ## Names of resources -/

/-- A name has slashes around its trimmed text, which is made of pieces with dots between them;
the pieces that are not empty are its segments. -/
structure IsSegmented (name trimmed : List Char) (segments : List (List Char)) : Prop where
  slashes : ∃ front back, OnlySlashes front ∧ OnlySlashes back ∧ name = front ++ (trimmed ++ back)
  firm : Firm isSlash trimmed
  pieces : ∃ pieces, pieces ≠ [] ∧ (∀ piece ∈ pieces, '.' ∉ piece) ∧
    trimmed = List.intercalate ['.'] pieces ∧ segments = pieces.filter (· != [])

/-- What follows the last slash of a segment. -/
def IsParameter (segment parameter : List Char) : Prop :=
  '/' ∉ parameter ∧ (segment = parameter ∨ ∃ front, segment = front ++ '/' :: parameter)

/-- The path of nested resources, and the parameter of the last one. Every other segment is
followed by its parameter in braces. -/
inductive Nests : List (List Char) → List Char → List Char → Prop where
  | last {segment parameter : List Char} (isParameter : IsParameter segment parameter) :
      Nests [segment] ('/' :: segment) parameter
  | parent {segment outer path parameter : List Char} {others : List (List Char)}
      (isParameter : IsParameter segment outer) (rest : Nests others path parameter) :
      Nests (segment :: others) ('/' :: segment ++ '/' :: '\x7b' :: outer ++ '\x7d' :: path) parameter

namespace Resource

theorem isParameter_parameterOf (segment : List Char) :
    IsParameter segment (parameterOf segment) :=
  ⟨Text.not_mem_afterLast '/' segment, Text.exists_append_afterLast '/' segment⟩

/-- The path of a resource with some segments nests them. -/
theorem nests_segments {names : List (List Char)} (some : names ≠ []) (other : List Char) :
    Nests names (names.dropLast.flatMap parentPath ++ '/' :: names.getLast?.getD other)
      (parameterOf (names.getLast?.getD other)) := by
  induction names with
  | nil => exact absurd rfl some
  | cons first rest inductionHypothesis =>
      cases rest with
      | nil => exact .last (isParameter_parameterOf first)
      | cons second others =>
          have nested := Nests.parent (isParameter_parameterOf first)
            (inductionHypothesis (by simp))
          simpa [parentPath] using nested

end Resource

/-- Every name is segmented, in one way only. -/
theorem isSegmented_iff (resource : Resource) (trimmed : List Char) (segments : List (List Char)) :
    IsSegmented resource.name.toList trimmed segments ↔
      trimmed = resource.trimmedName ∧ segments = Resource.segments resource.trimmedName := by
  constructor
  · rintro ⟨⟨front, back, frontSlashes, backSlashes, whole⟩, firm, pieces, some, single, rfl, rfl⟩
    have same : List.intercalate ['.'] pieces = resource.trimmedName := by
      rw [Resource.trimmedName, whole, Text.trimBy_padded frontSlashes backSlashes, firm.trimBy_eq]
    refine ⟨same, ?_⟩
    rw [← same, Resource.segments, List.splitOn_intercalate '.' single some]
  · rintro ⟨rfl, rfl⟩
    refine ⟨Text.exists_padding isSlash _, Text.firm_trimBy isSlash _, ?_⟩
    exact ⟨resource.trimmedName.splitOn '.', List.splitOn_ne_nil '.' _,
      fun _ member => Text.not_mem_of_mem_splitOn member, (List.intercalate_splitOn '.').symm, rfl⟩

/-! ## The endpoints of a resource -/

/-- The actions of resources, in the order of registration, with the verbs they answer. -/
def actionTable : List (String × List Verb) :=
  [("index", [.get]), ("create", [.get]), ("store", [.post]), ("show", [.get]), ("edit", [.get]),
    ("update", [.put, .patch]), ("destroy", [.delete])]

/-- Whether two lists let an action through: the first one is empty or has it, and the second
one has it not. -/
def LetsThrough (only except : List String) (action : String) : Prop :=
  (only = [] ∨ action ∈ only) ∧ action ∉ except

instance (only except : List String) (action : String) :
    Decidable (LetsThrough only except action) :=
  inferInstanceAs (Decidable (_ ∧ _))

/-- The endpoints that a resource stands for, where its segments nest in a path with a
parameter. -/
structure Expands (className : String) (trimmed path parameter : List Char)
    (only except : List String) (names : OrderedMap String String) (endpoints : List Endpoint) :
    Prop where
  /-- There is one endpoint for each action that the lists let through, in a fixed order. -/
  actions : endpoints.map (fun endpoint => (endpoint.method, endpoint.verbs)) =
    actionTable.filter fun row => LetsThrough only except row.1
  collection : ∀ endpoint ∈ endpoints, endpoint.method ∈ ["index", "store"] →
    endpoint.path = .ofList path
  form : ∀ endpoint ∈ endpoints, endpoint.method = "create" →
    endpoint.path = .ofList (path ++ "/create".toList)
  item : ∀ endpoint ∈ endpoints, endpoint.method ∈ ["show", "update", "destroy"] →
    endpoint.path = .ofList (path ++ ('/' :: '\x7b' :: parameter ++ ['\x7d']))
  editor : ∀ endpoint ∈ endpoints, endpoint.method = "edit" →
    endpoint.path = .ofList (path ++ ('/' :: '\x7b' :: parameter ++ '\x7d' :: "/edit".toList))
  /-- The name is the one given for the action, or else made from the name of the resource. -/
  name : ∀ endpoint ∈ endpoints, endpoint.name =
    some ((names.get? endpoint.method).getD (.ofList trimmed ++ "." ++ endpoint.method))
  /-- Nothing else is said of the endpoints. -/
  plain : ∀ endpoint ∈ endpoints, endpoint.className = className ∧
    endpoint.uses = className ++ "@" ++ endpoint.method ∧ endpoint.classMiddleware = [] ∧
    endpoint.middleware = [] ∧ endpoint.patterns = .empty ∧ endpoint.domain = none

namespace Resource

variable (resource : Resource) (className : String)

theorem selects_iff (action : ResourceAction) :
    resource.selects action = true ↔ LetsThrough resource.only resource.except action.method := by
  simp [selects, LetsThrough]

/-- The endpoints of a resource with at least one segment. -/
theorem expands_endpoints (some : segments resource.trimmedName ≠ []) :
    ∃ path parameter, Nests (segments resource.trimmedName) path parameter ∧
      Expands className resource.trimmedName path parameter resource.only resource.except
        resource.names (resource.endpoints className) := by
  refine ⟨resource.basePath, parameterOf resource.lastSegment, nests_segments some _, ?_⟩
  have ofAction : ∀ {property : Endpoint → Prop},
      (∀ action, property (resource.endpoint className action)) →
        ∀ endpoint ∈ resource.endpoints className, property endpoint := by
    intro property holds endpoint member
    obtain ⟨action, -, rfl⟩ := List.mem_map.1 member
    exact holds action
  refine ⟨?table, ofAction fun action => ?collection, ofAction fun action => ?form,
    ofAction fun action => ?item, ofAction fun action => ?editor, ofAction fun _ => rfl,
    ofAction fun _ => ⟨rfl, rfl, rfl, rfl, rfl, rfl⟩⟩
  case table =>
    have table : actionTable = ResourceAction.all.map fun action => (action.method, action.verbs) :=
      rfl
    rw [table, List.filter_map, endpoints, List.map_map]
    refine congrArg _ (List.filter_congr fun action _ => ?_)
    exact Bool.eq_iff_iff.2 ((resource.selects_iff action).trans decide_eq_true_iff.symm)
  all_goals
    unfold endpoint ResourceAction.pathEnd
    cases action <;> simp [ResourceAction.method]

end Resource

/-- The form for a new item is registered before the item itself, whose path would match it. -/
theorem Expands.create_before_show {className : String} {trimmed path parameter : List Char}
    {only except : List String} {names : OrderedMap String String} {endpoints : List Endpoint}
    (expands : Expands className trimmed path parameter only except names endpoints)
    {front back : List String}
    (split : endpoints.map Endpoint.method = front ++ "show" :: back) : "create" ∉ back := by
  have inOrder : (endpoints.map Endpoint.method).Sublist (actionTable.map Prod.fst) := by
    have selected := congrArg (List.map Prod.fst) expands.actions
    rw [List.map_map] at selected
    rw [show endpoints.map Endpoint.method = _ from selected]
    exact List.filter_sublist.map Prod.fst
  have apart : (actionTable.map Prod.fst).Pairwise fun left right =>
      ¬(left = "show" ∧ right = "create") := by decide
  have kept := List.Pairwise.sublist inOrder apart
  rw [split] at kept
  intro member
  exact List.rel_of_pairwise_cons (List.pairwise_append.1 kept).2.1 member ⟨rfl, rfl⟩

/-! ## The turn of a resource -/

/-- Two lists have the same actions; the order of them, how often they are there and names of
no action make no difference. -/
structure SameActions (left right : List String) : Prop where
  nil_iff : left = [] ↔ right = []
  mem_iff : ∀ row ∈ actionTable, row.1 ∈ left ↔ row.1 ∈ right

namespace Resource

variable {className : String} {current : List Endpoint}

theorem read_eq_ok {arguments : Arguments} {name : String} {only except : List String}
    {names : OrderedMap String String} (readName : arguments.requiredText "name" = .ok name)
    (readOnly : arguments.optionalTextList "only" = .ok only)
    (readExcept : arguments.optionalTextList "except" = .ok except)
    (readNames : arguments.optionalTextMap "names" = .ok names) :
    read arguments = .ok ⟨name, only, except, names⟩ := by
  rw [read, readName, readOnly, readExcept, readNames]
  rfl

/-- The endpoints of a resource come after those that are there. -/
theorem takeTurns_resource {tag : Tag} {resource : Resource} (kind : tag.kind = .resource)
    (read : Resource.read tag.arguments = .ok resource) (later : List Tag) :
    takeTurns className current (tag :: later) =
      takeTurns className (current ++ resource.endpoints className) later := by
  have readRule : ClassRule.expand <$> Resource.read tag.arguments = .ok (.expand resource) := by
    rw [read]
    rfl
  rw [takeTurns_cons (by rw [kind]; rfl) readRule, ClassRule.apply]

/-- Resources with the same trimmed name and the same actions have the same endpoints. -/
theorem endpoints_congr {left right : Resource} (trimmed : left.trimmedName = right.trimmedName)
    (only : SameActions left.only right.only) (except : SameActions left.except right.except)
    (names : left.names = right.names) : left.endpoints className = right.endpoints className := by
  have selects : ∀ action, left.selects action = right.selects action := by
    intro action
    have row : (action.method, action.verbs) ∈ actionTable := by cases action <;> decide
    rw [Bool.eq_iff_iff, selects_iff, selects_iff]
    simp only [LetsThrough, only.nil_iff, only.mem_iff _ row, except.mem_iff _ row]
  have same : left.endpoint className = right.endpoint className := by
    funext action
    simp only [endpoint, basePath, lastSegment, routeName, trimmed, names]
  rw [endpoints, endpoints, same, List.filter_congr fun action _ => selects action]

end Resource

/-- Whatever else is on a class and its methods, a resource with at least one segment adds its
endpoints after those that are there when it has its turn: one for each action that its lists
let through, in the fixed order, so that the form for a new item comes before the item. Slashes
around its name make no difference to the class, nor does anything in its lists but which
actions they have. -/
theorem resource_expands (className : String) (methods : OrderedMap String (List Tag))
    (before after : List Tag) (tag : Tag) {name : String} {only except : List String}
    {names : OrderedMap String String} {trimmed : List Char} {segments : List (List Char)}
    (kind : tag.kind = .resource) (readName : tag.arguments.requiredText "name" = .ok name)
    (readOnly : tag.arguments.optionalTextList "only" = .ok only)
    (readExcept : tag.arguments.optionalTextList "except" = .ok except)
    (readNames : tag.arguments.optionalTextMap "names" = .ok names)
    (segmented : IsSegmented name.toList trimmed segments) (some : segments ≠ []) :
    (∃ path parameter endpoints, Nests segments path parameter ∧
      Expands className trimmed path parameter only except names endpoints ∧
      (∀ front back, endpoints.map Endpoint.method = front ++ "show" :: back → "create" ∉ back) ∧
      classEndpoints className ⟨before ++ tag :: after, methods⟩ =
        classEndpoints className ⟨before, methods⟩ >>= fun current =>
          takeTurns className (current ++ endpoints) after) ∧
    ∀ (other : Tag) (otherName : String) (otherOnly otherExcept : List String),
      other.kind = .resource → other.arguments.requiredText "name" = .ok otherName →
      other.arguments.optionalTextList "only" = .ok otherOnly →
      other.arguments.optionalTextList "except" = .ok otherExcept →
      other.arguments.optionalTextMap "names" = .ok names →
      IsSegmented otherName.toList trimmed segments →
      SameActions otherOnly only → SameActions otherExcept except →
      classEndpoints className ⟨before ++ other :: after, methods⟩ =
        classEndpoints className ⟨before ++ tag :: after, methods⟩ := by
  have read := Resource.read_eq_ok readName readOnly readExcept readNames
  obtain ⟨sameTrimmed, sameSegments⟩ :=
    (isSegmented_iff ⟨name, only, except, names⟩ _ _).1 segmented
  constructor
  · obtain ⟨path, parameter, nests, expands⟩ :=
      Resource.expands_endpoints ⟨name, only, except, names⟩ className (sameSegments ▸ some)
    refine ⟨path, parameter, _, sameSegments ▸ nests, sameTrimmed ▸ expands,
      fun _ _ => expands.create_before_show, ?_⟩
    simp only [classEndpoints_append, Resource.takeTurns_resource kind read]
  · intro other otherName otherOnly otherExcept otherKind readOtherName readOtherOnly
      readOtherExcept readOtherNames otherSegmented sameOnly sameExcept
    have readOther := Resource.read_eq_ok readOtherName readOtherOnly readOtherExcept readOtherNames
    obtain ⟨otherTrimmed, -⟩ :=
      (isSegmented_iff ⟨otherName, otherOnly, otherExcept, names⟩ _ _).1 otherSegmented
    have same : (⟨otherName, otherOnly, otherExcept, names⟩ : Resource).endpoints className =
        (⟨name, only, except, names⟩ : Resource).endpoints className :=
      Resource.endpoints_congr (otherTrimmed.symm.trans sameTrimmed) sameOnly sameExcept rfl
    simp only [classEndpoints_append, Resource.takeTurns_resource kind read,
      Resource.takeTurns_resource otherKind readOther, same]

/-- A resource with a parent, and with a list of wanted actions. -/
def photosTag (name : String) (only : List Literal) : Tag :=
  ⟨"Resource", .resource, ⟨[.string name], .ofList [("only", .array (only.map (none, ·))),
    ("names", .array [(some "create", .string "upload")])]⟩⟩

/-- The resource is declared between two tags that put endpoints below paths, once with slashes
around its name and a list in disorder, and once plainly. -/
theorem resource_expands_photos :
    (∃ path parameter endpoints,
      Nests ["users".toList, "admin/photos".toList] path parameter ∧
      Expands "Photos" "users.admin/photos".toList path parameter ["show", "archive", "create", "show"]
        [] (.ofList [("create", "upload")]) endpoints ∧
      classEndpoints "Photos" ⟨[pathStartTag "/v1"] ++ photosTag "//users.admin/photos/"
          [.string "show", .string "archive", .string "create", .string "show"] ::
          [pathStartTag "/api"], listMethods⟩ =
        classEndpoints "Photos" ⟨[pathStartTag "/v1"], listMethods⟩ >>= fun current =>
          takeTurns "Photos" (current ++ endpoints) [pathStartTag "/api"]) ∧
    classEndpoints "Photos" ⟨[pathStartTag "/v1"] ++ photosTag "users.admin/photos"
        [.string "create", .string "show"] :: [pathStartTag "/api"], listMethods⟩ =
      classEndpoints "Photos" ⟨[pathStartTag "/v1"] ++ photosTag "//users.admin/photos/"
        [.string "show", .string "archive", .string "create", .string "show"] ::
        [pathStartTag "/api"], listMethods⟩ ∧
    (classEndpoints "Photos" ⟨[pathStartTag "/v1"] ++ photosTag "users.admin/photos"
        [.string "create", .string "show"] :: [pathStartTag "/api"], listMethods⟩).map
        (·.map fun endpoint => (endpoint.path, endpoint.name)) =
      .ok [("/api/v1", none), ("/api/users/\x7busers\x7d/admin/photos/create", some "upload"),
        ("/api/users/\x7busers\x7d/admin/photos/\x7bphotos\x7d",
          some "users.admin/photos.show")] := by
  have pieces : ∃ pieces : List (List Char), pieces ≠ [] ∧ (∀ piece ∈ pieces, '.' ∉ piece) ∧
      "users.admin/photos".toList = List.intercalate ['.'] pieces ∧
      ["users".toList, "admin/photos".toList] = pieces.filter (· != []) :=
    ⟨["users".toList, "admin/photos".toList], by decide +kernel⟩
  have padded : IsSegmented "//users.admin/photos/".toList "users.admin/photos".toList
      ["users".toList, "admin/photos".toList] :=
    ⟨⟨"//".toList, "/".toList, by decide +kernel⟩, by decide +kernel, pieces⟩
  have plain : IsSegmented "users.admin/photos".toList "users.admin/photos".toList
      ["users".toList, "admin/photos".toList] :=
    ⟨⟨[], [], by decide +kernel⟩, by decide +kernel, pieces⟩
  have expands := @resource_expands "Photos" listMethods [pathStartTag "/v1"] [pathStartTag "/api"]
    (photosTag "//users.admin/photos/"
      [.string "show", .string "archive", .string "create", .string "show"])
    "//users.admin/photos/" ["show", "archive", "create", "show"] []
    (.ofList [("create", "upload")]) _ _ rfl rfl rfl rfl rfl padded (by simp)
  obtain ⟨⟨path, parameter, endpoints, nests, isExpanded, -, turns⟩, others⟩ := expands
  refine ⟨⟨path, parameter, endpoints, nests, isExpanded, turns⟩, ?_, by decide +kernel⟩
  exact others (photosTag "users.admin/photos" [.string "create", .string "show"])
    "users.admin/photos" ["create", "show"] [] rfl rfl rfl rfl rfl plain ⟨by simp, by decide⟩
    ⟨Iff.rfl, by decide⟩

end DocblockScan
