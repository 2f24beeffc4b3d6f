import DocblockScan.Proofs.Endpoint.Settling

/-!
# Which endpoints a class has

The provenance of an endpoint is what never changes after it was created: its handler,
its verbs and the middleware of its method. The provenances of the endpoints of a class
are known from the routes on its methods and the resources on it, in order:
`classEndpoints_provenance`.
-/

namespace DocblockScan

/-- What is known of an endpoint from the tag that creates it and the other tags of its
method. -/
structure Provenance where
  className : String
  method : String
  uses : String
  verbs : List Verb
  middleware : List String
deriving Repr, DecidableEq

/-- The provenance of an endpoint. -/
def Endpoint.provenance (endpoint : Endpoint) : Provenance where
  className := endpoint.className
  method := endpoint.method
  uses := endpoint.uses
  verbs := endpoint.verbs
  middleware := endpoint.middleware

namespace Tag

/-- Whether a tag is a resource. -/
def isResource (tag : Tag) : Bool :=
  tag.kind = .resource

/-- The provenances of the endpoints of a resource: those of the selected actions, in
registration order. -/
def resourceProvenances (className : String) (tag : Tag) : List Provenance :=
  (ResourceAction.all.filter fun action => tag.Admits action.method).map fun action =>
    { className, method := action.method, uses := className ++ "@" ++ action.method
      verbs := action.verbs, middleware := [] }

end Tag

/-- The provenances of the endpoints of a method with some tags: one for each route, in
order, with the middleware of the route before that of the method. -/
def methodProvenances (className method : String) (tags : List Tag) : List Provenance :=
  tags.filterMap fun tag =>
    match tag.kind with
    | .route verb => some
        { className, method, uses := className ++ "@" ++ method, verbs := [verb]
          middleware :=
            tag.arguments.textsAt "middleware" ++ tags.flatMap Tag.methodMiddleware }
    | _ => none

/-- The provenances of all endpoints of a class with its tags: those of the methods and
then those of the resources. -/
def classProvenances (className : String) (tags : TagSet) : List Provenance :=
  (tags.onMethods.entries.flatMap fun entry => methodProvenances className entry.1 entry.2) ++
    (tags.onClass.filter Tag.isResource).flatMap (Tag.resourceProvenances className)

/-- The tags on a class change no provenance. -/
@[simp] theorem Endpoint.provenance_settled (later : List Tag) (original : Endpoint) :
    (original.settled later).provenance = original.provenance :=
  rfl

/-- A resource stands for the actions that the lists of its tag let through. -/
theorem Resource.selects_eq {tag : Tag} {resource : Resource}
    (read : Resource.read tag.arguments = .ok resource) (action : ResourceAction) :
    resource.selects action = decide (tag.Admits action.method) := by
  obtain ⟨name, -, read⟩ := (Outcome.bind_eq_ok_iff _ _ _).1 read
  obtain ⟨only, readOnly, read⟩ := (Outcome.bind_eq_ok_iff _ _ _).1 read
  obtain ⟨except, readExcept, read⟩ := (Outcome.bind_eq_ok_iff _ _ _).1 read
  obtain ⟨names, -, result⟩ := (Outcome.bind_eq_ok_iff _ _ _).1 read
  obtain rfl := Except.ok.inj result
  cases only <;>
    simp [Resource.selects, Tag.Admits, Arguments.optionalTextList_eq_ok readOnly,
      Arguments.optionalTextList_eq_ok readExcept]

/-- The endpoints that a resource adds have the provenances of its selected actions. -/
theorem Tag.map_provenance_resourceEndpoints {tag : Tag} {resource : Resource}
    (kind : tag.kind = .resource) (read : Resource.read tag.arguments = .ok resource)
    (className : String) :
    (tag.resourceEndpoints className).map Endpoint.provenance =
      tag.resourceProvenances className := by
  have selected : ResourceAction.all.filter resource.selects =
      ResourceAction.all.filter fun action => tag.Admits action.method :=
    List.filter_congr fun action _ => Resource.selects_eq read action
  have added : tag.resourceEndpoints className = resource.endpoints className := by
    simp [resourceEndpoints, kind, read, Except.toOption]
  rw [added, Resource.endpoints, selected, List.map_map]
  rfl

/-- The endpoints that a method creates have the provenances of its routes. -/
theorem map_provenance_createdEndpoints (className method : String) (tags : List Tag) :
    (createdEndpoints className method tags).map Endpoint.provenance =
      methodProvenances className method tags := by
  rw [createdEndpoints, methodProvenances, List.map_filterMap]
  apply List.filterMap_congr
  intro tag _
  cases tag.kind <;> rfl

/-- Resources that are read add endpoints with the provenances of their selected actions. -/
theorem map_provenance_resourceOrigins {className : String} {tags : List Tag}
    {rules : List ClassRule}
    (read : readChosen className none ClassRule.reading? tags = .ok rules) :
    (resourceOrigins className tags).map (·.1.provenance) =
      (tags.filter Tag.isResource).flatMap (Tag.resourceProvenances className) := by
  induction tags generalizing rules with
  | nil => rfl
  | cons tag later inductionHypothesis =>
      rw [resourceOrigins, List.map_append, List.filter_cons]
      rcases readChosen_cons_eq_ok read with
        ⟨unread, readLater⟩ | ⟨reading, rule, others, chosen, readRule, readLater, rfl⟩
      · have noResource : tag.kind ≠ .resource := by
          intro isResource
          simp [isResource, ClassRule.reading?] at unread
        rw [ClassRule.resourceEndpoints_of_ne noResource, inductionHypothesis readLater]
        simp [Tag.isResource, noResource]
      · rw [inductionHypothesis readLater]
        by_cases isResource : tag.kind = .resource
        · rw [isResource] at chosen
          obtain rfl := Option.some.inj chosen
          obtain ⟨resource, readResource, -⟩ := (Outcome.map_eq_ok_iff _ _ _).1 readRule
          have added := Tag.map_provenance_resourceEndpoints isResource readResource className
          simp [Tag.isResource, isResource, ← added]
        · rw [ClassRule.resourceEndpoints_of_ne isResource]
          simp [Tag.isResource, isResource]

/-- If the endpoints of a class can be resolved, their provenances are known. -/
theorem map_provenance_of_resolves {className : String} {tags : TagSet}
    {endpoints : List Endpoint} (resolves : classEndpoints className tags = .ok endpoints) :
    endpoints.map Endpoint.provenance = classProvenances className tags := by
  obtain ⟨_, -, afterMethods⟩ := (Outcome.bind_eq_ok_iff _ _ _).1 resolves
  obtain ⟨_, readRules, -⟩ := (Outcome.bind_eq_ok_iff _ _ _).1 afterMethods
  rw [classEndpoints_eq resolves, classProvenances, ← map_provenance_resourceOrigins readRules]
  simp [settledOrigins, endpointOrigins, Function.comp_def, List.map_flatMap,
    ← map_provenance_createdEndpoints]

/-- A route and a resource make endpoints that their methods handle. -/
theorem uses_of_mem_classProvenances {className : String} {tags : TagSet}
    {provenance : Provenance} (member : provenance ∈ classProvenances className tags) :
    provenance.uses = provenance.className ++ "@" ++ provenance.method := by
  rcases List.mem_append.1 member with ofMethod | ofResource
  · obtain ⟨entry, -, ofTag⟩ := List.mem_flatMap.1 ofMethod
    obtain ⟨tag, -, made⟩ := List.mem_filterMap.1 ofTag
    split at made
    · obtain rfl := Option.some.inj made
      rfl
    · cases made
  · obtain ⟨tag, -, selected⟩ := List.mem_flatMap.1 ofResource
    obtain ⟨action, -, rfl⟩ := List.mem_map.1 selected
    rfl

/-- If the endpoints of a class can be resolved, their provenances are those of the
routes on its methods and of the resources on it, in order. So the other tags on the class
change neither the endpoints nor anything of their provenances, and every endpoint is
handled by its method of its class, which no tag rewrites. -/
theorem classEndpoints_provenance (className : String) (tags : TagSet)
    (endpoints : List Endpoint) (resolves : classEndpoints className tags = .ok endpoints) :
    endpoints.map Endpoint.provenance = classProvenances className tags ∧
      (∀ (other : TagSet) (others : List Endpoint),
        classEndpoints className other = .ok others →
        other.onMethods = tags.onMethods →
        other.onClass.filter Tag.isResource = tags.onClass.filter Tag.isResource →
        others.map Endpoint.provenance = endpoints.map Endpoint.provenance) ∧
      ∀ endpoint ∈ endpoints, endpoint.uses = endpoint.className ++ "@" ++ endpoint.method := by
  have known := map_provenance_of_resolves resolves
  refine ⟨known, ?_, ?_⟩
  · intro other others resolvesToo sameMethods sameResources
    rw [map_provenance_of_resolves resolvesToo, known, classProvenances, classProvenances,
      sameMethods, sameResources]
  · intro endpoint member
    have among : endpoint.provenance ∈ classProvenances className tags :=
      known ▸ List.mem_map_of_mem member
    exact uses_of_mem_classProvenances among

/-- The tags around the resource leave the provenances of `layeredTags` alone. -/
theorem classEndpoints_provenance_layered :
    ∃ endpoints, classEndpoints "Photos" layeredTags = .ok endpoints ∧
      endpoints.map Endpoint.provenance =
        [⟨"Photos", "home", "Photos@home", [.get], ["own", "shared"]⟩,
          ⟨"Photos", "index", "Photos@index", [.get], []⟩] ∧
      endpoints.map Endpoint.provenance = classProvenances "Photos" layeredTags := by
  refine ⟨(classEndpoints "Photos" layeredTags).toOption.getD [], by decide +kernel,
    by decide +kernel, ?_⟩
  exact (classEndpoints_provenance "Photos" layeredTags _ (by decide +kernel)).1

end DocblockScan
