import DocblockScan.Proofs.Endpoint.Creation

/-!
# How the tags of a class settle its endpoints

An endpoint starts as its method or its resource creates it, and each tag on the class
that is declared later refines it. The result has a closed form, field by field:
`Settles`. One turn of a tag is `settled_cons`; by induction on the tags every endpoint
of the class has that form: `endpoints_settled`.
-/

namespace DocblockScan

namespace Endpoint

/-- An endpoint after the turns of some tags on its class. -/
def settled (later : List Tag) (original : Endpoint) : Endpoint :=
  { original with
    path := (later.filterMap Tag.outerPath?).foldl (fun path outer => joinRoutePath outer path)
      original.path
    name := original.name.map (String.join (later.filterMap Tag.nameStart?).reverse ++ ·)
    classMiddleware :=
      original.classMiddleware ++ later.flatMap (Tag.classMiddleware original.method)
    domain := original.domain.or (later.findSome? Tag.domain?)
    patterns := original.patterns.insertAllNew (later.flatMap Tag.classPatterns) }

@[simp] theorem settled_nil : settled [] = id := by
  funext original
  simp [settled, OrderedMap.insertAllNew]

/-- The first tag has its turn before the others. -/
theorem settled_cons {tag : Tag} {refinement : Refinement} (describes : tag.Describes refinement)
    (later : List Tag) (original : Endpoint) :
    settled (tag :: later) original = settled later (refinement.apply original) := by
  have path : ((tag :: later).filterMap Tag.outerPath?).foldl
      (fun path outer => joinRoutePath outer path) original.path =
        (later.filterMap Tag.outerPath?).foldl (fun path outer => joinRoutePath outer path)
          (refinement.path.elim original.path (joinRoutePath · original.path)) := by
    rw [describes.path, List.filterMap_cons]
    cases tag.outerPath? <;> rfl
  have name : original.name.map
      (String.join ((tag :: later).filterMap Tag.nameStart?).reverse ++ ·) =
        (original.name.map ((refinement.name.getD "") ++ ·)).map
          (String.join (later.filterMap Tag.nameStart?).reverse ++ ·) := by
    rw [describes.name, List.filterMap_cons, Option.map_map]
    cases tag.nameStart? with
    | none => simp [Function.comp_def]
    | some start => simp [Function.comp_def, String.append_assoc]
  have domain : original.domain.or ((tag :: later).findSome? Tag.domain?) =
      (original.domain.or refinement.domain).or (later.findSome? Tag.domain?) := by
    rw [describes.domain, List.findSome?_cons, Option.or_assoc]
    cases tag.domain? <;> rfl
  simp [settled, Refinement.apply, path, name, domain, describes.middleware, describes.patterns,
    OrderedMap.insertAllNew]

/-- A tag that contributes nothing has no effect. -/
theorem settled_of_describes_nothing {tag : Tag} (nothing : tag.Describes {})
    (later : List Tag) : settled (tag :: later) = settled later := by
  funext original
  have unchanged : Refinement.apply {} original = original := by
    have noMiddleware : Refinement.middlewareFor {} original.method = [] :=
      Refinement.middlewareFor_of_unlisted rfl rfl original.method
    rw [Refinement.apply, noMiddleware]
    simp [OrderedMap.insertAllNew, OrderedMap.empty]
  rw [settled_cons nothing, unchanged]

end Endpoint

/-! ## Where endpoints come from -/

/-- The endpoints that resources among some tags add, each with the tags that are declared
after its resource. -/
def resourceOrigins (className : String) : List Tag → List (Endpoint × List Tag)
  | [] => []
  | tag :: later =>
      (tag.resourceEndpoints className).map (·, later) ++ resourceOrigins className later

/-- The endpoints of a class as they are created, each with the tags of the class that are
declared after it was created: those of the methods, and those of the resources. -/
def endpointOrigins (className : String) (tags : TagSet) : List (Endpoint × List Tag) :=
  (tags.onMethods.entries.flatMap fun entry => createdEndpoints className entry.1 entry.2).map
    (·, tags.onClass) ++ resourceOrigins className tags.onClass

/-- Every origin after the turns of its tags. -/
def settledOrigins (origins : List (Endpoint × List Tag)) : List Endpoint :=
  origins.map fun origin => origin.1.settled origin.2

/-- All rules of some tags settle the endpoints before them and those of the resources. -/
theorem foldl_classRules {className : String} {tags : List Tag} {rules : List ClassRule}
    (read : readChosen className none ClassRule.reading? tags = .ok rules)
    (current : List Endpoint) :
    rules.foldl (ClassRule.apply className) current =
      current.map (Endpoint.settled tags) ++ settledOrigins (resourceOrigins className tags) := by
  induction tags generalizing rules current with
  | nil =>
      obtain rfl := Except.ok.inj read
      simp [resourceOrigins, settledOrigins]
  | cons tag later inductionHypothesis =>
      rcases readChosen_cons_eq_ok read with
        ⟨unread, readLater⟩ | ⟨reading, rule, others, chosen, readRule, readLater, rfl⟩
      · have nothing := ClassRule.describes_nothing (.inl unread)
        have noResource : tag.kind ≠ .resource := by
          rintro isResource
          simp [isResource, ClassRule.reading?] at unread
        rw [inductionHypothesis readLater, resourceOrigins,
          ClassRule.resourceEndpoints_of_ne noResource]
        simp only [Endpoint.settled_of_describes_nothing nothing, List.map_nil, List.nil_append]
      · rw [List.foldl_cons, inductionHypothesis readLater, resourceOrigins]
        by_cases isResource : tag.kind = .resource
        · obtain ⟨resource, rfl, added⟩ :=
            ClassRule.resourceEndpoints_of_expand chosen readRule isResource
          have nothing := ClassRule.describes_nothing (.inr isResource)
          simp [ClassRule.apply, added, settledOrigins, Function.comp_def,
            Endpoint.settled_of_describes_nothing nothing]
        · obtain ⟨refinement, rfl, describes⟩ :=
            ClassRule.describes_of_refine chosen readRule isResource
          simp [ClassRule.apply, ClassRule.resourceEndpoints_of_ne isResource,
            Endpoint.settled_cons describes, Function.comp_def]

/-- The endpoints of a class are its origins after the turns of their tags. -/
theorem classEndpoints_eq {className : String} {tags : TagSet} {endpoints : List Endpoint}
    (found : classEndpoints className tags = .ok endpoints) :
    endpoints = settledOrigins (endpointOrigins className tags) := by
  obtain ⟨created, readMethods, found⟩ := (Outcome.bind_eq_ok_iff _ _ _).1 found
  obtain ⟨rules, readRules, result⟩ := (Outcome.bind_eq_ok_iff _ _ _).1 found
  obtain rfl := Except.ok.inj result
  rw [foldl_classRules readRules, allMethodEndpoints_eq readMethods]
  simp [endpointOrigins, settledOrigins, Function.comp_def]

/-! ## The closed form -/

/-- What some later tags on the class make of an endpoint, field by field. -/
structure Settles (later : List Tag) (original settled : Endpoint) : Prop where
  /-- The path is put below the given ones, one after the other. -/
  path : settled.path =
    (later.filterMap Tag.outerPath?).foldl (fun path outer => joinRoutePath outer path)
      original.path
  /-- A name gets the given beginnings, the last one first; no name stays none. -/
  name : settled.name =
    original.name.map (String.join (later.filterMap Tag.nameStart?).reverse ++ ·)
  /-- The own domain counts, or else the first one that is given. -/
  domain : settled.domain = original.domain.or (later.findSome? Tag.domain?)
  /-- The class middleware is what the tags give to the method, in order. -/
  classMiddleware :
    settled.classMiddleware = later.flatMap (Tag.classMiddleware original.method)
  /-- The own patterns stay as they are, and of each new parameter the first pattern that
  is given comes after them. -/
  patterns : settled.patterns.entries = original.patterns.entries ++
    OrderedMap.novelEntries original.patterns.keys (later.flatMap Tag.classPatterns)
  /-- All else is as it was created. -/
  others : settled.className = original.className ∧ settled.method = original.method ∧
    settled.uses = original.uses ∧ settled.verbs = original.verbs ∧ settled.middleware = original.middleware

/-- An endpoint that starts without class middleware is settled as the closed form says. -/
theorem Settles.of_settled {original : Endpoint} (bare : original.classMiddleware = [])
    (later : List Tag) : Settles later original (original.settled later) where
  path := rfl
  name := rfl
  domain := rfl
  classMiddleware := by simp [Endpoint.settled, bare]
  patterns := OrderedMap.entries_insertAllNew _ _
  others := ⟨rfl, rfl, rfl, rfl, rfl⟩

/-- The endpoints of resources start without class middleware. -/
theorem bare_of_mem_resourceOrigins {className : String} {tags : List Tag}
    {origin : Endpoint × List Tag} (member : origin ∈ resourceOrigins className tags) :
    origin.1.classMiddleware = [] := by
  induction tags with
  | nil => simp [resourceOrigins] at member
  | cons tag later inductionHypothesis =>
      rcases List.mem_append.1 member with first | member
      · obtain ⟨endpoint, added, rfl⟩ := List.mem_map.1 first
        unfold Tag.resourceEndpoints at added
        split at added
        · cases read : Resource.read tag.arguments with
          | error fault => simp [read, Except.toOption] at added
          | ok resource =>
              simp only [read, Except.toOption, Option.elim_some, Resource.endpoints,
                List.mem_map] at added
              obtain ⟨action, -, rfl⟩ := added
              rfl
        · simp at added
      · exact inductionHypothesis member

/-- All endpoints start without class middleware. -/
theorem bare_of_mem_endpointOrigins {className : String} {tags : TagSet}
    {origin : Endpoint × List Tag} (member : origin ∈ endpointOrigins className tags) :
    origin.1.classMiddleware = [] := by
  rcases List.mem_append.1 member with created | added
  · obtain ⟨endpoint, isCreated, rfl⟩ := List.mem_map.1 created
    obtain ⟨entry, -, ofMethod⟩ := List.mem_flatMap.1 isCreated
    obtain ⟨tag, -, isCreated⟩ := List.mem_filterMap.1 ofMethod
    split at isCreated
    · obtain rfl := Option.some.inj isCreated
      rfl
    · simp at isCreated
  · exact bare_of_mem_resourceOrigins added

/-- Whatever tags a class and its methods have, if its endpoints can be resolved they are
the origins in order, each of them settled by the tags on the class that come after it. -/
theorem endpoints_settled (className : String) (tags : TagSet) (endpoints : List Endpoint)
    (resolves : classEndpoints className tags = .ok endpoints) :
    List.Forall₂ (fun origin endpoint => Settles origin.2 origin.1 endpoint)
      (endpointOrigins className tags) endpoints := by
  rw [classEndpoints_eq resolves, settledOrigins, List.forall₂_map_right_iff]
  rw [List.forall₂_same]
  intro origin member
  exact .of_settled (bare_of_mem_endpointOrigins member) origin.2

/-- A class with one route and one resource, and with a tag of every kind on it. The
resource is declared between the others. -/
def layeredTags : TagSet where
  onClass := [
    ⟨"Prefix", .pathStart, ⟨[.string "inner/"], .empty⟩⟩,
    ⟨"Where", .whereClause, ⟨[.array [(some "id", .string "[0-9]+"), (some "tab", .string "b")]],
      .empty⟩⟩,
    ⟨"Resource", .resource, ⟨[.string "photos"], .ofList [("only", .string "index")]⟩⟩,
    ⟨"Controller", .controller, ⟨[.string "/middle"], .ofList [("domain", .string "a.org")]⟩⟩,
    ⟨"Middleware", .middleware, ⟨[.string "auth"], .ofList [("except", .string "index")]⟩⟩,
    ⟨"Group", .group, ⟨[], .ofList [("prefix", .string "/outer"), ("as", .string "api."),
      ("middleware", .array [(none, .string "web"), (none, .string "log")]),
      ("domain", .string "b.org"), ("where", .array [(some "tab", .string "c")])]⟩⟩]
  onMethods := .ofList [("home", [
    ⟨"Middleware", .middleware, ⟨[.string "shared"], .empty⟩⟩,
    ⟨"Get", .route .get, ⟨[.string "home"], .ofList [("as", .string "home"),
      ("middleware", .string "own"), ("where", .array [(some "id", .string "[a-z]+")])]⟩⟩])]

/-- The route has the turns of all tags, the resource those of the tags after it. -/
theorem endpoints_settled_layered :
    ∃ endpoints, classEndpoints "Photos" layeredTags = .ok endpoints ∧
      endpoints.map Endpoint.path = ["/outer/middle/inner/home", "/outer/middle/photos"] ∧
      endpoints.map Endpoint.name = [some "api.home", some "api.photos.index"] ∧
      endpoints.map Endpoint.classMiddleware = [["auth", "web", "log"], ["web", "log"]] ∧
      endpoints.map (·.patterns.entries) =
        [[("id", "[a-z]+"), ("tab", "b")], [("tab", "c")]] ∧
      List.Forall₂ (fun origin endpoint => Settles origin.2 origin.1 endpoint)
        (endpointOrigins "Photos" layeredTags) endpoints := by
  refine ⟨(classEndpoints "Photos" layeredTags).toOption.getD [], by decide +kernel,
    by decide +kernel, by decide +kernel, by decide +kernel, by decide +kernel, ?_⟩
  exact endpoints_settled "Photos" layeredTags _ (by decide +kernel)

end DocblockScan
