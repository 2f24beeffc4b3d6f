import DocblockScan.Endpoint.ClassRule
import DocblockScan.Proofs.Outcome

/-!
# What a tag contributes to endpoints

The path, name, middleware, domain and patterns that a tag gives, read off its kind and
its arguments. `Describes` says that a refinement is just what a tag gives; every rule
that is read from a tag on a class is described by it: `describes_of_refine`.
-/

namespace DocblockScan

/-! ## Values of arguments -/

namespace Arguments

variable (arguments : Arguments)

/-- The text of a named argument, if it is one. -/
def textAt? (key : String) : Option String :=
  (arguments.get? key).bind Literal.text?

/-- The texts that a named argument lists. -/
def textsAt (key : String) : List String :=
  ((arguments.get? key).bind Literal.textList?).getD []

/-- The map of texts that a named argument is. -/
def textMapAt (key : String) : OrderedMap String String :=
  ((arguments.get? key).bind Literal.textMap?).getD .empty

/-- The text of the default argument or else of a named one. -/
def mainText? (key : String) : Option String :=
  (arguments.default?.or (arguments.get? key)).bind Literal.text?

/-- The texts that the default argument lists. -/
def mainTexts : List String :=
  (arguments.default?.bind Literal.textList?).getD []

/-- The map of texts that the arguments of a where tag stand for. -/
def mainTextMap : OrderedMap String String :=
  arguments.textMap.toOption.getD .empty

variable {arguments}

/-- A reading that refuses null sees an argument exactly if it is present. -/
theorem present?_bind {Value : Type} {read : Literal → Option Value}
    (refuses : read .null = Option.none) (key : String) :
    (arguments.present? key).bind read = (arguments.get? key).bind read := by
  unfold present?
  split
  · next isNull => simp [isNull, refuses]
  · rfl

theorem optionalText_eq_ok {key : String} {text : Option String}
    (read : arguments.optionalText key = .ok text) : arguments.textAt? key = text := by
  rw [textAt?, ← present?_bind rfl]
  unfold optionalText at read
  split at read
  · next absent => simpa [absent] using read
  · next literal present =>
      split at read
      · next found isText => simpa [present, isText] using read
      · simp at read

theorem optionalTextList_eq_ok {key : String} {texts : List String}
    (read : arguments.optionalTextList key = .ok texts) : arguments.textsAt key = texts := by
  rw [textsAt, ← present?_bind rfl]
  unfold optionalTextList at read
  split at read
  · next absent => simpa [absent] using read
  · next literal present =>
      split at read
      · next found areTexts => simpa [present, areTexts] using read
      · simp at read

theorem optionalTextMap_eq_ok {key : String} {texts : OrderedMap String String}
    (read : arguments.optionalTextMap key = .ok texts) : arguments.textMapAt key = texts := by
  rw [textMapAt, ← present?_bind rfl]
  unfold optionalTextMap at read
  split at read
  · next absent => simpa [absent] using read
  · next literal present =>
      split at read
      · next found areTexts => simpa [present, areTexts] using read
      · simp at read

theorem requiredText_eq_ok {fallback text : String}
    (read : arguments.requiredText fallback = .ok text) :
    arguments.mainText? fallback = some text := by
  unfold requiredText at read
  unfold mainText?
  split at read
  · simp at read
  · next literal present =>
      split at read
      · next found isText => simpa [present, isText] using read
      · simp at read

/-- The text of the main argument is what is read. -/
theorem requiredText_of_mainText? {fallback text : String}
    (main : arguments.mainText? fallback = some text) :
    arguments.requiredText fallback = .ok text := by
  obtain ⟨literal, present, isText⟩ := Option.bind_eq_some_iff.1 main
  simp only [requiredText, present, isText]

theorem requiredTextList_eq_ok {texts : List String}
    (read : arguments.requiredTextList = .ok texts) : arguments.mainTexts = texts := by
  unfold requiredTextList at read
  unfold mainTexts
  split at read
  · simp at read
  · next literal present =>
      split at read
      · next first others areTexts => simpa [present, areTexts] using read
      · simp at read

theorem textMap_eq_ok {texts : OrderedMap String String}
    (read : arguments.textMap = .ok texts) : arguments.mainTextMap = texts := by
  simp [mainTextMap, read, Except.toOption]

end Arguments

/-! ## Contributions -/

namespace Tag

/-- The path below which a tag on a class puts the paths of endpoints. -/
def outerPath? (tag : Tag) : Option String :=
  match tag.kind with
  | .pathStart => tag.arguments.mainText? "prefix"
  | .controller => tag.arguments.mainText? "prefix"
  | .group => tag.arguments.textAt? "prefix"
  | _ => none

/-- The beginning that a tag on a class gives to names of endpoints. -/
def nameStart? (tag : Tag) : Option String :=
  match tag.kind with
  | .group => tag.arguments.textAt? "as"
  | _ => none

/-- The domain that a tag on a class gives to endpoints. -/
def domain? (tag : Tag) : Option String :=
  match tag.kind with
  | .controller => tag.arguments.textAt? "domain"
  | .group => tag.arguments.textAt? "domain"
  | _ => none

/-- Whether the lists of a tag let a method through: the list of wanted ones is empty or
has it, and the list of unwanted ones has it not. -/
def Admits (tag : Tag) (method : String) : Prop :=
  (tag.arguments.textsAt "only" = [] ∨ method ∈ tag.arguments.textsAt "only") ∧
    method ∉ tag.arguments.textsAt "except"

instance (tag : Tag) (method : String) : Decidable (tag.Admits method) :=
  inferInstanceAs (Decidable (_ ∧ _))

/-- The middleware that a tag on a class gives to endpoints of a method. -/
def classMiddleware (method : String) (tag : Tag) : List String :=
  match tag.kind with
  | .group => tag.arguments.textsAt "middleware"
  | .middleware => if tag.Admits method then tag.arguments.mainTexts else []
  | _ => []

/-- The patterns that a tag on a class gives to endpoints, in order. -/
def classPatterns (tag : Tag) : List (String × String) :=
  match tag.kind with
  | .group => (tag.arguments.textMapAt "where").entries
  | .whereClause => tag.arguments.mainTextMap.entries
  | _ => []

/-- The middleware that a tag on a method gives to the endpoints of the method. -/
def methodMiddleware (tag : Tag) : List String :=
  match tag.kind with
  | .middleware => tag.arguments.mainTexts
  | _ => []

/-- The patterns that a tag on a method gives to the endpoints of the method. -/
def methodPatterns (tag : Tag) : List (String × String) :=
  match tag.kind with
  | .whereClause => tag.arguments.mainTextMap.entries
  | _ => []

/-- The endpoints that a tag on a class adds. -/
def resourceEndpoints (className : String) (tag : Tag) : List Endpoint :=
  match tag.kind with
  | .resource => (Resource.read tag.arguments).toOption.elim [] (·.endpoints className)
  | _ => []

/-- A refinement that consists of what a tag contributes. -/
structure Describes (tag : Tag) (refinement : Refinement) : Prop where
  path : refinement.path = tag.outerPath?
  name : refinement.name = tag.nameStart?
  middleware : ∀ method, refinement.middlewareFor method = tag.classMiddleware method
  domain : refinement.domain = tag.domain?
  patterns : refinement.patterns.entries = tag.classPatterns

end Tag

/-- Middleware without lists of methods is for all of them. -/
theorem Refinement.middlewareFor_of_unlisted {refinement : Refinement}
    (only : refinement.only = []) (except : refinement.except = []) (method : String) :
    refinement.middlewareFor method = refinement.middleware := by
  simp [middlewareFor, covers, only, except]

namespace ClassRule

open Arguments Tag

variable {tag : Tag} {rule : ClassRule}

theorem readPathStart_eq_ok (kind : tag.kind = .pathStart)
    (read : readPathStart tag.arguments = .ok rule) :
    ∃ refinement, rule = .refine refinement ∧ Describes tag refinement := by
  obtain ⟨path, readPath, result⟩ := (Outcome.bind_eq_ok_iff _ _ _).1 read
  obtain rfl := Except.ok.inj result
  refine ⟨_, rfl, ?_, ?_, fun method => ?_, ?_, ?_⟩
  · simp [outerPath?, kind, requiredText_eq_ok readPath]
  · simp [nameStart?, kind]
  · simp [classMiddleware, kind, Refinement.middlewareFor]
  · simp [domain?, kind]
  · simp [classPatterns, kind, OrderedMap.empty]

theorem readController_eq_ok (kind : tag.kind = .controller)
    (read : readController tag.arguments = .ok rule) :
    ∃ refinement, rule = .refine refinement ∧ Describes tag refinement := by
  -- a default argument counts before the one that is named `prefix`
  obtain ⟨path, isPath, read⟩ : ∃ path, tag.arguments.mainText? "prefix" = path ∧
      (do let domain ← tag.arguments.optionalText "domain"; return refine { path, domain }) =
        Except.ok rule := by
    unfold readController at read
    dsimp only at read
    split at read
    · obtain ⟨path, readPath, read⟩ := (Outcome.bind_eq_ok_iff _ _ _).1 read
      obtain ⟨text, readText, rfl⟩ := (Outcome.map_eq_ok_iff _ _ _).1 readPath
      exact ⟨some text, requiredText_eq_ok readText, read⟩
    · next noDefault =>
        obtain ⟨path, readPath, read⟩ := (Outcome.bind_eq_ok_iff _ _ _).1 read
        refine ⟨path, ?_, read⟩
        rw [mainText?, noDefault, Option.none_or]
        exact optionalText_eq_ok readPath
  obtain ⟨domain, readDomain, result⟩ := (Outcome.bind_eq_ok_iff _ _ _).1 read
  obtain rfl := Except.ok.inj result
  refine ⟨_, rfl, ?_, ?_, fun method => ?_, ?_, ?_⟩
  · simp [outerPath?, kind, isPath]
  · simp [nameStart?, kind]
  · simp [classMiddleware, kind, Refinement.middlewareFor]
  · simp [domain?, kind, optionalText_eq_ok readDomain]
  · simp [classPatterns, kind, OrderedMap.empty]

theorem readGroup_eq_ok (kind : tag.kind = .group)
    (read : readGroup tag.arguments = .ok rule) :
    ∃ refinement, rule = .refine refinement ∧ Describes tag refinement := by
  obtain ⟨path, readPath, read⟩ := (Outcome.bind_eq_ok_iff _ _ _).1 read
  obtain ⟨name, readName, read⟩ := (Outcome.bind_eq_ok_iff _ _ _).1 read
  obtain ⟨middleware, readMiddleware, read⟩ := (Outcome.bind_eq_ok_iff _ _ _).1 read
  obtain ⟨domain, readDomain, read⟩ := (Outcome.bind_eq_ok_iff _ _ _).1 read
  obtain ⟨patterns, readPatterns, result⟩ := (Outcome.bind_eq_ok_iff _ _ _).1 read
  obtain rfl := Except.ok.inj result
  refine ⟨_, rfl, ?_, ?_, fun method => ?_, ?_, ?_⟩
  · simp [outerPath?, kind, optionalText_eq_ok readPath]
  · simp [nameStart?, kind, optionalText_eq_ok readName]
  · rw [Refinement.middlewareFor_of_unlisted rfl rfl]
    simp [classMiddleware, kind, optionalTextList_eq_ok readMiddleware]
  · simp [domain?, kind, optionalText_eq_ok readDomain]
  · simp [classPatterns, kind, optionalTextMap_eq_ok readPatterns]

theorem readMiddleware_eq_ok (kind : tag.kind = .middleware)
    (read : readMiddleware tag.arguments = .ok rule) :
    ∃ refinement, rule = .refine refinement ∧ Describes tag refinement := by
  obtain ⟨middleware, readNames, read⟩ := (Outcome.bind_eq_ok_iff _ _ _).1 read
  obtain ⟨only, readOnly, read⟩ := (Outcome.bind_eq_ok_iff _ _ _).1 read
  obtain ⟨except, readExcept, result⟩ := (Outcome.bind_eq_ok_iff _ _ _).1 read
  obtain rfl := Except.ok.inj result
  refine ⟨_, rfl, ?_, ?_, fun method => ?_, ?_, ?_⟩
  · simp [outerPath?, kind]
  · simp [nameStart?, kind]
  · simp [classMiddleware, kind, Refinement.middlewareFor, Refinement.covers, Admits,
      requiredTextList_eq_ok readNames, optionalTextList_eq_ok readOnly,
      optionalTextList_eq_ok readExcept]
  · simp [domain?, kind]
  · simp [classPatterns, kind, OrderedMap.empty]

theorem readPatterns_eq_ok (kind : tag.kind = .whereClause)
    (read : readPatterns tag.arguments = .ok rule) :
    ∃ refinement, rule = .refine refinement ∧ Describes tag refinement := by
  obtain ⟨patterns, readMap, result⟩ := (Outcome.bind_eq_ok_iff _ _ _).1 read
  obtain rfl := Except.ok.inj result
  refine ⟨_, rfl, ?_, ?_, fun method => ?_, ?_, ?_⟩
  · simp [outerPath?, kind]
  · simp [nameStart?, kind]
  · simp [classMiddleware, kind, Refinement.middlewareFor]
  · simp [domain?, kind]
  · simp [classPatterns, kind, textMap_eq_ok readMap]

/-- A rule that is read from a tag other than a resource refines endpoints by just what
the tag contributes. -/
theorem describes_of_refine {reading : Arguments → Except ArgumentFault ClassRule}
    (chosen : reading? tag.kind = some reading) (read : reading tag.arguments = .ok rule)
    (noResource : tag.kind ≠ .resource) :
    ∃ refinement, rule = .refine refinement ∧ Describes tag refinement := by
  cases kind : tag.kind <;> rw [kind] at chosen
  case pathStart =>
    obtain rfl := Option.some.inj chosen
    exact readPathStart_eq_ok kind read
  case controller =>
    obtain rfl := Option.some.inj chosen
    exact readController_eq_ok kind read
  case group =>
    obtain rfl := Option.some.inj chosen
    exact readGroup_eq_ok kind read
  case middleware =>
    obtain rfl := Option.some.inj chosen
    exact readMiddleware_eq_ok kind read
  case whereClause =>
    obtain rfl := Option.some.inj chosen
    exact readPatterns_eq_ok kind read
  case resource => exact absurd kind noResource
  all_goals simp [reading?] at chosen

/-- A rule that is read from a resource adds the endpoints of the tag. -/
theorem resourceEndpoints_of_expand {reading : Arguments → Except ArgumentFault ClassRule}
    (chosen : reading? tag.kind = some reading) (read : reading tag.arguments = .ok rule)
    (isResource : tag.kind = .resource) :
    ∃ resource, rule = .expand resource ∧
      ∀ className, tag.resourceEndpoints className = resource.endpoints className := by
  rw [isResource] at chosen
  obtain rfl := Option.some.inj chosen
  obtain ⟨resource, readResource, rfl⟩ := (Outcome.map_eq_ok_iff _ _ _).1 read
  exact ⟨resource, rfl, by simp [resourceEndpoints, isResource, readResource, Except.toOption]⟩

/-- Only resources add endpoints. -/
theorem resourceEndpoints_of_ne (noResource : tag.kind ≠ .resource) (className : String) :
    tag.resourceEndpoints className = [] := by
  cases kind : tag.kind <;> simp_all [resourceEndpoints]

/-- A tag that is no rule, or a resource, refines nothing. -/
theorem describes_nothing
    (refinesNothing : reading? tag.kind = Option.none ∨ tag.kind = .resource) :
    Describes tag {} := by
  cases kind : tag.kind <;> simp only [kind, reading?, reduceCtorEq, or_self, or_false] at refinesNothing
  all_goals
    refine ⟨?_, ?_, fun method => ?_, ?_, ?_⟩
    · simp [outerPath?, kind]
    · simp [nameStart?, kind]
    · simp [classMiddleware, kind, Refinement.middlewareFor]
    · simp [domain?, kind]
    · simp [classPatterns, kind, OrderedMap.empty]

end ClassRule

end DocblockScan
