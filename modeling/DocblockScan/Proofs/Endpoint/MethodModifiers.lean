import DocblockScan.Proofs.Endpoint.Creation
import DocblockScan.Proofs.Endpoint.IdleTags

/-!
# Modifications of a method, wherever they stand

The routes of a method are read in one pass over its tags and its modifications in another
one, so that the result depends on the order among the routes and on that among the
modifications, and not on how the two are mixed. Every route of the method gets every
modification, after what it says of itself: `methodEndpoints_mixed`.
-/

namespace DocblockScan

/-- Some tags mix routes with modifications: each of the two are in their order, and tags that
say nothing on a method stand anywhere. -/
inductive Mixes : List Tag → List Tag → List Tag → Prop where
  | nil : Mixes [] [] []
  | route {tag : Tag} {verb : Verb} {routes modifiers tags : List Tag}
      (kind : tag.kind = .route verb) (rest : Mixes routes modifiers tags) :
      Mixes (tag :: routes) modifiers (tag :: tags)
  | modifier {tag : Tag} {routes modifiers tags : List Tag}
      (kind : tag.kind = .middleware ∨ tag.kind = .whereClause)
      (rest : Mixes routes modifiers tags) :
      Mixes routes (tag :: modifiers) (tag :: tags)
  | other {tag : Tag} {routes modifiers tags : List Tag} (idle : tag.kind.IdleOnMethod)
      (rest : Mixes routes modifiers tags) : Mixes routes modifiers (tag :: tags)

namespace Mixes

variable {routes modifiers tags : List Tag} {className method : String}

/-- The routes are read as if they stood alone. -/
theorem readChosen_routes (mixes : Mixes routes modifiers tags) {target : Option String} :
    readChosen className target (routeReading? className method) tags =
      readChosen className target (routeReading? className method) routes := by
  induction mixes with
  | nil => rfl
  | route _ _ inductionHypothesis => simp only [readChosen, inductionHypothesis]
  | modifier kind _ inductionHypothesis =>
      rcases kind with kind | kind <;> simp only [readChosen, kind, routeReading?, inductionHypothesis]
  | @other tag _ _ _ idle _ inductionHypothesis =>
      have unread := routeReading?_of_idle className method tag.kind
        (TagKind.countsOnMethod_eq_false_iff.2 idle)
      simp only [readChosen, unread, inductionHypothesis]

/-- The modifications are read as if they stood alone. -/
theorem readChosen_modifiers (mixes : Mixes routes modifiers tags) {target : Option String} :
    readChosen className target MethodModifier.reading? tags =
      readChosen className target MethodModifier.reading? modifiers := by
  induction mixes with
  | nil => rfl
  | route kind _ inductionHypothesis =>
      simp only [readChosen, kind, MethodModifier.reading?, inductionHypothesis]
  | modifier _ _ inductionHypothesis => simp only [readChosen, inductionHypothesis]
  | @other tag _ _ _ idle _ inductionHypothesis =>
      have unread := MethodModifier.reading?_of_idle tag.kind
        (TagKind.countsOnMethod_eq_false_iff.2 idle)
      simp only [readChosen, unread, inductionHypothesis]

/-- Only modifications give the endpoints of a method anything. -/
theorem flatMap_modifiers {Item : Type} {give : Tag → List Item} (mixes : Mixes routes modifiers tags)
    (nothing : ∀ tag : Tag, tag.kind ≠ .middleware → tag.kind ≠ .whereClause → give tag = []) :
    tags.flatMap give = modifiers.flatMap give := by
  induction mixes with
  | nil => rfl
  | @route tag _ _ _ _ kind _ inductionHypothesis =>
      rw [List.flatMap_cons, nothing tag (by simp [kind]) (by simp [kind]), inductionHypothesis,
        List.nil_append]
  | modifier _ _ inductionHypothesis =>
      rw [List.flatMap_cons, List.flatMap_cons, inductionHypothesis]
  | @other tag _ _ _ idle _ inductionHypothesis =>
      rw [List.flatMap_cons, nothing tag (idle.ne rfl) (idle.ne rfl), inductionHypothesis,
        List.nil_append]

/-- What is made of the routes among the tags is made of the routes, one by one. -/
theorem forall₂_filterMap {Result : Type} (make : Verb → Arguments → Result)
    (mixes : Mixes routes modifiers tags) :
    List.Forall₂ (fun route result => ∃ verb, route.kind = .route verb ∧
        result = make verb route.arguments) routes
      (tags.filterMap fun tag =>
        match tag.kind with
        | .route verb => some (make verb tag.arguments)
        | _ => none) := by
  induction mixes with
  | nil => exact .nil
  | @route tag verb _ _ _ kind _ inductionHypothesis =>
      simp only [List.filterMap_cons, kind]
      exact .cons ⟨verb, kind, rfl⟩ inductionHypothesis
  | modifier kind _ inductionHypothesis =>
      rcases kind with kind | kind <;> simpa only [List.filterMap_cons, kind] using inductionHypothesis
  | other idle _ inductionHypothesis =>
      rw [List.filterMap_cons_none]
      · exact inductionHypothesis
      · split
        · next verb kind => exact absurd kind (idle.ne rfl)
        · rfl

end Mixes

/-- An endpoint has what its route says and then what all modifications of the method say. -/
structure Modified (route : Tag) (modifiers : List Tag) (endpoint : Endpoint) : Prop where
  /-- The middleware of the route stands before that of the modifications, in order. -/
  middleware : endpoint.middleware =
    route.arguments.textsAt "middleware" ++ modifiers.flatMap Tag.methodMiddleware
  /-- The parameters of the route keep their places, and new ones follow in the order of the
  modifications. -/
  parameters : endpoint.patterns.keys = (route.arguments.textMapAt "where").keys ++
    (OrderedMap.novelEntries (route.arguments.textMapAt "where").keys
      (modifiers.flatMap Tag.methodPatterns)).map Prod.fst
  /-- The last modification that gives a pattern for a parameter counts, and the route only if
  there is none. -/
  pattern : ∀ parameter, endpoint.patterns.get? parameter =
    (OrderedMap.lookupIn parameter (modifiers.flatMap Tag.methodPatterns).reverse).or
      ((route.arguments.textMapAt "where").get? parameter)

/-- The endpoint that a route creates on a method has all modifications of the method. -/
theorem Modified.of_created {routes modifiers tags : List Tag} (mixes : Mixes routes modifiers tags)
    (className method : String) (verb : Verb) (route : Tag) :
    Modified route modifiers (createdEndpoint className method tags verb route.arguments) := by
  have middleware : tags.flatMap Tag.methodMiddleware = modifiers.flatMap Tag.methodMiddleware :=
    mixes.flatMap_modifiers fun tag noMiddleware _ => by
      unfold Tag.methodMiddleware
      split
      · next kind => exact absurd kind noMiddleware
      · rfl
  have given : tags.flatMap Tag.methodPatterns = modifiers.flatMap Tag.methodPatterns :=
    mixes.flatMap_modifiers fun tag _ noPatterns => by
      unfold Tag.methodPatterns
      split
      · next kind => exact absurd kind noPatterns
      · rfl
  have patterns : (createdEndpoint className method tags verb route.arguments).patterns =
      (route.arguments.textMapAt "where").insertAll (modifiers.flatMap Tag.methodPatterns) := by
    rw [createdEndpoint, given, OrderedMap.ofList_append, OrderedMap.ofList_entries]
  refine ⟨by rw [createdEndpoint, middleware], ?_, fun parameter => ?_⟩
  · rw [patterns, OrderedMap.keys_insertAll]
  · rw [patterns, OrderedMap.get?_insertAll]

/-- Whatever the class and the method, two lists of tags that mix the same routes with the
same modifications give the same endpoints or the same error, and each endpoint has all
modifications after what its route says. -/
theorem methodEndpoints_mixed (className method : String) (routes modifiers left right : List Tag)
    (mixesLeft : Mixes routes modifiers left) (mixesRight : Mixes routes modifiers right) :
    methodEndpoints className method left = methodEndpoints className method right ∧
    ∀ endpoints, methodEndpoints className method left = .ok endpoints →
      List.Forall₂ (fun route endpoint => Modified route modifiers endpoint) routes endpoints := by
  constructor
  · rw [methodEndpoints, methodEndpoints, mixesLeft.readChosen_routes, mixesRight.readChosen_routes,
      mixesLeft.readChosen_modifiers, mixesRight.readChosen_modifiers]
  · intro endpoints found
    rw [methodEndpoints_eq found]
    refine (mixesLeft.forall₂_filterMap (createdEndpoint className method left)).imp ?_
    rintro route _ ⟨verb, -, rfl⟩
    exact .of_created mixesLeft className method verb route

/-- A route with middleware of its own. -/
def putTag : Tag :=
  ⟨"Put", .route .put, ⟨[.string "/users/{id}"], .ofList [("middleware", .string "log")]⟩⟩

/-- A route with a pattern of its own. -/
def patchTag : Tag :=
  ⟨"Patch", .route .patch, ⟨[.string "/users/{id}"],
    .ofList [("where", .array [(some "id", .string "[a-z]+")])]⟩⟩

/-- A modification that adds middleware. -/
def authTag : Tag := ⟨"Middleware", .middleware, ⟨[.string "auth"], .empty⟩⟩

/-- A modification that gives a pattern. -/
def digitsTag : Tag := ⟨"Where", .whereClause, ⟨[], .ofList [("id", .string "[0-9]+")]⟩⟩

/-- A tag that says nothing. -/
def auditTag : Tag := ⟨"Audit", .custom "Audit", ⟨[.integer 5], .empty⟩⟩

/-- The modifications may stand around the routes or between them. -/
theorem methodEndpoints_mixed_update :
    methodEndpoints "Users" "update" [authTag, putTag, patchTag, digitsTag] =
        methodEndpoints "Users" "update" [putTag, authTag, auditTag, digitsTag, patchTag] ∧
      ∃ endpoints,
        methodEndpoints "Users" "update" [authTag, putTag, patchTag, digitsTag] = .ok endpoints ∧
        endpoints.map Endpoint.middleware = [["log", "auth"], ["auth"]] ∧
        endpoints.map (·.patterns.entries) = [[("id", "[0-9]+")], [("id", "[0-9]+")]] ∧
        List.Forall₂ (fun route endpoint => Modified route [authTag, digitsTag] endpoint)
          [putTag, patchTag] endpoints := by
  have around : Mixes [putTag, patchTag] [authTag, digitsTag]
      [authTag, putTag, patchTag, digitsTag] :=
    .modifier (.inl rfl) (.route rfl (.route rfl (.modifier (.inr rfl) .nil)))
  have between : Mixes [putTag, patchTag] [authTag, digitsTag]
      [putTag, authTag, auditTag, digitsTag, patchTag] :=
    .route rfl (.modifier (.inl rfl) (.other (.custom "Audit")
      (.modifier (.inr rfl) (.route rfl .nil))))
  have mixed := methodEndpoints_mixed "Users" "update" _ _ _ _ around between
  refine ⟨mixed.1, (methodEndpoints "Users" "update"
    [authTag, putTag, patchTag, digitsTag]).toOption.getD [], rfl, rfl, rfl, mixed.2 _ rfl⟩

end DocblockScan
