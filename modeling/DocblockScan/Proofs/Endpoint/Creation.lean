import DocblockScan.Endpoint.Resolution
import DocblockScan.Proofs.Endpoint.Contribution
import DocblockScan.Proofs.OrderedMap

/-!
# The endpoints that methods create

The endpoints of a method are those of its route tags, in order, and each of them has
what every modifier of the method contributes: `methodEndpoints_eq`. Nothing of the
class is part of them yet.
-/

namespace DocblockScan

/-! ## Chosen tags -/

section Choosing

variable {Value : Type} {className : String} {method : Option String}
variable {reading? : TagKind → Option (Arguments → Except ArgumentFault Value)}
variable {tag : Tag} {rest : List Tag} {values : List Value}

/-- The first of some tags is not chosen, or it is read before the others. -/
theorem readChosen_cons_eq_ok
    (read : readChosen className method reading? (tag :: rest) = .ok values) :
    (reading? tag.kind = none ∧ readChosen className method reading? rest = .ok values) ∨
      ∃ reading value others, reading? tag.kind = some reading ∧
        reading tag.arguments = .ok value ∧
        readChosen className method reading? rest = .ok others ∧ values = value :: others := by
  rw [readChosen] at read
  cases chosen : reading? tag.kind with
  | none =>
      simp only [chosen] at read
      exact .inl ⟨rfl, read⟩
  | some reading =>
      simp only [chosen] at read
      obtain ⟨value, readFirst, read⟩ := (Outcome.bind_eq_ok_iff _ _ _).1 read
      obtain ⟨others, readOthers, result⟩ := (Outcome.bind_eq_ok_iff _ _ _).1 read
      exact .inr ⟨reading, value, others, rfl, (Outcome.mapError_eq_ok_iff _ _ _).1 readFirst,
        readOthers, (Except.ok.inj result).symm⟩

end Choosing

/-! ## Endpoints of a method -/

variable {className method : String} {tags : List Tag}

/-- The endpoint that a route tag with some verb creates on a method with some tags. A
route that has no path is never read. -/
def createdEndpoint (className method : String) (tags : List Tag) (verb : Verb)
    (route : Arguments) : Endpoint where
  className
  method
  uses := handlerText className method
  verbs := [verb]
  path := (route.mainText? "path").getD ""
  name := route.textAt? "as"
  classMiddleware := []
  middleware := route.textsAt "middleware" ++ tags.flatMap Tag.methodMiddleware
  patterns := .ofList ((route.textMapAt "where").entries ++ tags.flatMap Tag.methodPatterns)
  domain := route.textAt? "domain"

/-- The endpoints that the route tags among some tags create. -/
def createdEndpoints (className method : String) (tags : List Tag) : List Endpoint :=
  tags.filterMap fun tag =>
    match tag.kind with
    | .route verb => some (createdEndpoint className method tags verb tag.arguments)
    | _ => none

/-- What a route tag is read as is known from its arguments. -/
theorem ofRoute_eq_ok {verb : Verb} {arguments : Arguments} {route : Endpoint}
    (read : Endpoint.ofRoute className method verb arguments = .ok route) :
    route = createdEndpoint className method [] verb arguments := by
  obtain ⟨path, readPath, read⟩ := (Outcome.bind_eq_ok_iff _ _ _).1 read
  obtain ⟨name, readName, read⟩ := (Outcome.bind_eq_ok_iff _ _ _).1 read
  obtain ⟨middleware, readMiddleware, read⟩ := (Outcome.bind_eq_ok_iff _ _ _).1 read
  obtain ⟨patterns, readPatterns, read⟩ := (Outcome.bind_eq_ok_iff _ _ _).1 read
  obtain ⟨domain, readDomain, result⟩ := (Outcome.bind_eq_ok_iff _ _ _).1 read
  obtain rfl := Except.ok.inj result
  simp [createdEndpoint, Endpoint.plain, Arguments.requiredText_eq_ok readPath,
    Arguments.optionalText_eq_ok readName, Arguments.optionalTextList_eq_ok readMiddleware,
    Arguments.optionalTextMap_eq_ok readPatterns, Arguments.optionalText_eq_ok readDomain]

/-- The routes among some tags are read in order. -/
theorem readChosen_routes {target : Option String} {routes : List Endpoint}
    (read : readChosen className target (routeReading? className method) tags = .ok routes) :
    routes = tags.filterMap fun tag =>
      match tag.kind with
      | .route verb => some (createdEndpoint className method [] verb tag.arguments)
      | _ => none := by
  induction tags generalizing routes with
  | nil => exact (Except.ok.inj read).symm
  | cons tag rest inductionHypothesis =>
      rw [List.filterMap_cons]
      rcases readChosen_cons_eq_ok read with
        ⟨unread, readRest⟩ | ⟨reading, route, others, chosen, readRoute, readRest, rfl⟩
      · cases kind : tag.kind <;> simp only [kind, routeReading?, reduceCtorEq] at unread
        all_goals exact inductionHypothesis readRest
      · cases kind : tag.kind <;>
          simp only [kind, routeReading?, Option.some.injEq, reduceCtorEq] at chosen
        subst chosen
        simp only [ofRoute_eq_ok readRoute, inductionHypothesis readRest]

/-- Modifications add what the tags that they are read from contribute. -/
theorem foldl_modifiers {target : Option String} {modifiers : List MethodModifier}
    (read : readChosen className target MethodModifier.reading? tags = .ok modifiers)
    (endpoint : Endpoint) :
    modifiers.foldl MethodModifier.apply endpoint =
      { endpoint with
        middleware := endpoint.middleware ++ tags.flatMap Tag.methodMiddleware
        patterns := endpoint.patterns.insertAll (tags.flatMap Tag.methodPatterns) } := by
  induction tags generalizing modifiers endpoint with
  | nil =>
      obtain rfl := Except.ok.inj read
      simp [OrderedMap.insertAll]
  | cons tag rest inductionHypothesis =>
      rw [List.flatMap_cons, List.flatMap_cons]
      rcases readChosen_cons_eq_ok read with
        ⟨unread, readRest⟩ | ⟨reading, modifier, others, chosen, readModifier, readRest, rfl⟩
      · rw [inductionHypothesis readRest]
        cases kind : tag.kind <;>
          simp_all [MethodModifier.reading?, Tag.methodMiddleware, Tag.methodPatterns]
      · rw [List.foldl_cons, inductionHypothesis readRest]
        cases kind : tag.kind <;>
          simp only [kind, MethodModifier.reading?, Option.some.injEq, reduceCtorEq] at chosen
        case middleware =>
          subst chosen
          obtain ⟨names, readNames, result⟩ := (Outcome.bind_eq_ok_iff _ _ _).1 readModifier
          obtain rfl := Except.ok.inj result
          simp [MethodModifier.apply, Tag.methodMiddleware, Tag.methodPatterns, kind,
            Arguments.requiredTextList_eq_ok readNames]
        case whereClause =>
          subst chosen
          obtain ⟨patterns, readPatterns, result⟩ :=
            (Outcome.bind_eq_ok_iff _ _ _).1 readModifier
          obtain rfl := Except.ok.inj result
          simp [MethodModifier.apply, Tag.methodMiddleware, Tag.methodPatterns, kind,
            Arguments.textMap_eq_ok readPatterns, OrderedMap.insertAll]

/-- A method has the endpoints that its route tags create. -/
theorem methodEndpoints_eq {endpoints : List Endpoint}
    (found : methodEndpoints className method tags = .ok endpoints) :
    endpoints = createdEndpoints className method tags := by
  obtain ⟨routes, readRoutes, found⟩ := (Outcome.bind_eq_ok_iff _ _ _).1 found
  obtain ⟨modifiers, readModifiers, result⟩ := (Outcome.bind_eq_ok_iff _ _ _).1 found
  obtain rfl := Except.ok.inj result
  have modified : ∀ route, modifiers.foldl MethodModifier.apply route = _ :=
    foldl_modifiers readModifiers
  rw [readChosen_routes readRoutes, createdEndpoints, List.map_filterMap]
  apply List.filterMap_congr
  intro tag _
  cases tag.kind with
  | route verb =>
      simp only [Option.map_some, modified]
      simp [createdEndpoint, OrderedMap.ofList_append]
  | _ => rfl

/-- All methods of a class have the endpoints that their route tags create. -/
theorem allMethodEndpoints_eq {methods : List (String × List Tag)} {endpoints : List Endpoint}
    (found : allMethodEndpoints className methods = .ok endpoints) :
    endpoints = methods.flatMap fun entry => createdEndpoints className entry.1 entry.2 := by
  obtain ⟨perMethod, each, result⟩ := (Outcome.bind_eq_ok_iff _ _ _).1 found
  obtain rfl := Except.ok.inj result
  rw [Outcome.eq_map_of_mapM (fun entry _ => methodEndpoints_eq) each]
  rfl

end DocblockScan
