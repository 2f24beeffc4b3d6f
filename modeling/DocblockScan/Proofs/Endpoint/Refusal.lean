import DocblockScan.Endpoint.Resolution
import DocblockScan.Proofs.ArgumentDemands
import DocblockScan.Proofs.Namespace

/-!
# When a class has no endpoints to give

A class with its tags is refused exactly if the arguments of a relevant tag break what
its kind demands, whatever endpoints there are so far. The tags are looked at in a fixed
order, their `turns`, and the error names the first one that breaks a demand:
`classEndpoints_eq_error_iff`.
-/

namespace DocblockScan

open Outcome (First)

/-! ## Demands of tags -/

namespace Tag

/-- The name that an error gives a tag is what follows the last separator of its full name. -/
theorem shortName_eq_iff (tag : Tag) (short : String) :
    tag.shortName = short ↔ Namespace.separator ∉ short.toList ∧
      (tag.name = short ∨ ∃ outer, tag.name = outer ++ "\\" ++ short) :=
  Namespace.lastSegment_eq_iff tag.name short

/-- What a tag on a method demands as a route, in the order in which it is checked. -/
def routeDemands (tag : Tag) : List Demand :=
  match tag.kind with
  | .route _ =>
      [.mainText "path", .text "as", .textList "middleware", .textMap "where", .text "domain"]
  | _ => []

/-- What a tag on a method demands as a modification of the routes of the method. -/
def modifierDemands (tag : Tag) : List Demand :=
  match tag.kind with
  | .middleware => [.mainTexts]
  | .whereClause => [.mainMap]
  | _ => []

/-- What a tag on a class demands. A default argument of a controller is its path; without
one the path may be null or absent. -/
def classDemands (tag : Tag) : List Demand :=
  match tag.kind with
  | .pathStart => [.mainText "prefix"]
  | .controller =>
      [if tag.arguments.default?.isSome then .mainText "prefix" else .text "prefix",
        .text "domain"]
  | .group =>
      [.text "prefix", .text "as", .textList "middleware", .text "domain", .textMap "where"]
  | .middleware => [.mainTexts, .textList "only", .textList "except"]
  | .whereClause => [.mainMap]
  | .resource => [.mainText "name", .textList "only", .textList "except", .textMap "names"]
  | _ => []

end Tag

/-! ## Readings -/

section Readings

open Arguments

variable (className method : String) (arguments : Arguments)

theorem checks_ofRoute (verb : Verb) :
    arguments.Checks
      [.mainText "path", .text "as", .textList "middleware", .textMap "where", .text "domain"]
      (Endpoint.ofRoute className method verb arguments) :=
  .bind (fun _ => requiredText_eq_error_iff) fun _ =>
  .bind (fun _ => optionalText_eq_error_iff) fun _ =>
  .bind (fun _ => optionalTextList_eq_error_iff) fun _ =>
  .bind (fun _ => optionalTextMap_eq_error_iff) fun _ =>
  .bind (fun _ => optionalText_eq_error_iff) fun _ => checks_ok _

theorem checks_readController :
    arguments.Checks
      [if arguments.default?.isSome then .mainText "prefix" else .text "prefix", .text "domain"]
      (ClassRule.readController arguments) := by
  unfold ClassRule.readController
  cases main : arguments.default? with
  | some literal =>
      refine .bind (fun fault => ?_) fun _ =>
        .bind (fun _ => optionalText_eq_error_iff) fun _ => checks_ok _
      rw [Outcome.map_eq_error_iff]
      exact requiredText_eq_error_iff
  | none =>
      exact .bind (fun _ => optionalText_eq_error_iff) fun _ =>
        .bind (fun _ => optionalText_eq_error_iff) fun _ => checks_ok _

theorem checks_readGroup :
    arguments.Checks
      [.text "prefix", .text "as", .textList "middleware", .text "domain", .textMap "where"]
      (ClassRule.readGroup arguments) :=
  .bind (fun _ => optionalText_eq_error_iff) fun _ =>
  .bind (fun _ => optionalText_eq_error_iff) fun _ =>
  .bind (fun _ => optionalTextList_eq_error_iff) fun _ =>
  .bind (fun _ => optionalText_eq_error_iff) fun _ =>
  .bind (fun _ => optionalTextMap_eq_error_iff) fun _ => checks_ok _

theorem checks_readMiddleware :
    arguments.Checks [.mainTexts, .textList "only", .textList "except"]
      (ClassRule.readMiddleware arguments) :=
  .bind (fun _ => requiredTextList_eq_error_iff) fun _ =>
  .bind (fun _ => optionalTextList_eq_error_iff) fun _ =>
  .bind (fun _ => optionalTextList_eq_error_iff) fun _ => checks_ok _

theorem checks_readResource :
    arguments.Checks
      [.mainText "name", .textList "only", .textList "except", .textMap "names"]
      (Resource.read arguments) :=
  .bind (fun _ => requiredText_eq_error_iff) fun _ =>
  .bind (fun _ => optionalTextList_eq_error_iff) fun _ =>
  .bind (fun _ => optionalTextList_eq_error_iff) fun _ =>
  .bind (fun _ => optionalTextMap_eq_error_iff) fun _ => checks_ok _

end Readings

/-- What is demanded of arguments that are read in some way if at all: nothing, if they
are not read. -/
def ChecksChosen {Value : Type} (reading? : Option (Arguments → Except ArgumentFault Value))
    (arguments : Arguments) (demands : List Demand) : Prop :=
  match reading? with
  | none => demands = []
  | some reading => arguments.Checks demands (reading arguments)

theorem checksChosen_route (className method : String) (tag : Tag) :
    ChecksChosen (routeReading? className method tag.kind) tag.arguments tag.routeDemands := by
  cases kind : tag.kind <;> simp only [ChecksChosen, routeReading?, Tag.routeDemands, kind]
  case route verb => exact checks_ofRoute className method tag.arguments verb

theorem checksChosen_modifier (tag : Tag) :
    ChecksChosen (MethodModifier.reading? tag.kind) tag.arguments tag.modifierDemands := by
  cases kind : tag.kind <;>
    simp only [ChecksChosen, MethodModifier.reading?, Tag.modifierDemands, kind]
  case middleware =>
    exact .bind (fun _ => Arguments.requiredTextList_eq_error_iff) fun _ => Arguments.checks_ok _
  case whereClause =>
    exact .bind (fun _ => Arguments.textMap_eq_error_iff) fun _ => Arguments.checks_ok _

theorem checksChosen_classRule (tag : Tag) :
    ChecksChosen (ClassRule.reading? tag.kind) tag.arguments tag.classDemands := by
  cases kind : tag.kind <;> simp only [ChecksChosen, ClassRule.reading?, Tag.classDemands, kind]
  case pathStart =>
    exact .bind (fun _ => Arguments.requiredText_eq_error_iff) fun _ => Arguments.checks_ok _
  case controller => exact checks_readController tag.arguments
  case group => exact checks_readGroup tag.arguments
  case middleware => exact checks_readMiddleware tag.arguments
  case whereClause =>
    exact .bind (fun _ => Arguments.textMap_eq_error_iff) fun _ => Arguments.checks_ok _
  case resource => exact (checks_readResource tag.arguments).map _

/-! ## Turns -/

/-- A look at the arguments of a tag on a method, or on the class, that checks some
demands. -/
structure Turn where
  method : Option String
  tag : Tag
  demands : List Demand
deriving Repr

namespace Turn

/-- The error that reports a fault of the tag. -/
def error (className : String) (turn : Turn) (fault : ArgumentFault) : ScanError :=
  .badTag className turn.method (.arguments turn.tag.shortName fault)

/-- The tag breaks a demand, and the first one that it breaks makes the error. -/
def Fails (className : String) (turn : Turn) (error : ScanError) : Prop :=
  ∃ fault, First turn.tag.arguments.Unmet turn.demands fault ∧ error = turn.error className fault

end Turn

/-- The looks at the tags of a method: all of them as routes, then all as modifications. -/
def methodTurns (method : String) (tags : List Tag) : List Turn :=
  tags.map (fun tag => ⟨some method, tag, tag.routeDemands⟩) ++
    tags.map fun tag => ⟨some method, tag, tag.modifierDemands⟩

/-- The looks at the tags of a class: those on its methods, method after method, then those
on the class itself. -/
def TagSet.turns (tags : TagSet) : List Turn :=
  tags.onMethods.entries.flatMap (fun entry => methodTurns entry.1 entry.2) ++
    tags.onClass.map fun tag => ⟨none, tag, tag.classDemands⟩

variable {className : String} {error : ScanError}

/-- A tag cannot be read exactly if it breaks a demand. -/
theorem read_eq_error_iff {Value : Type} {method : Option String} {tag : Tag}
    {demands : List Demand} {reading : Arguments → Except ArgumentFault Value}
    (checks : tag.arguments.Checks demands (reading tag.arguments)) :
    tag.read className method reading = .error error ↔
      Turn.Fails className ⟨method, tag, demands⟩ error := by
  rw [Tag.read, Outcome.mapError_eq_error_iff]
  refine exists_congr fun fault => ?_
  rw [checks fault, eq_comm]
  rfl

/-- Chosen tags cannot be read exactly if one of them breaks a demand. -/
theorem readChosen_eq_error_iff {Value : Type} {method : Option String}
    {demands : Tag → List Demand}
    {reading? : TagKind → Option (Arguments → Except ArgumentFault Value)} {tags : List Tag}
    (checks : ∀ tag, ChecksChosen (reading? tag.kind) tag.arguments (demands tag)) :
    readChosen className method reading? tags = .error error ↔
      First (Turn.Fails className) (tags.map fun tag => ⟨method, tag, demands tag⟩) error := by
  induction tags generalizing error with
  | nil => simp [readChosen, First.not_nil]
  | cons tag rest inductionHypothesis =>
      rw [readChosen, List.map_cons, First.cons_iff]
      have demanded := checks tag
      cases chosen : reading? tag.kind with
      | none =>
          simp only [ChecksChosen, chosen] at demanded
          simp [Turn.Fails, demanded, First.not_nil, inductionHypothesis]
      | some reading =>
          simp only [ChecksChosen, chosen] at demanded
          refine Outcome.bind_eq_error_iff_or (fun _ => read_eq_error_iff demanded)
            (fun _ fault => ?_) error
          exact (Outcome.map_eq_error_iff _ _ _).trans inductionHypothesis

/-- A method is refused with its first tag that breaks a demand. -/
theorem methodEndpoints_eq_error_iff {method : String} {tags : List Tag} :
    methodEndpoints className method tags = .error error ↔
      First (Turn.Fails className) (methodTurns method tags) error := by
  rw [methodTurns, First.append_iff]
  refine Outcome.bind_eq_error_iff_or
    (fun _ => readChosen_eq_error_iff (checksChosen_route className method)) (fun _ fault => ?_) error
  exact (Outcome.map_eq_error_iff _ _ _).trans (readChosen_eq_error_iff checksChosen_modifier)

/-- Methods are refused with the first method that is. -/
theorem allMethodEndpoints_eq_error_iff {methods : List (String × List Tag)} :
    allMethodEndpoints className methods = .error error ↔
      First (Turn.Fails className) (methods.flatMap fun entry => methodTurns entry.1 entry.2)
        error := by
  refine (Outcome.map_eq_error_iff _ _ _).trans ?_
  rw [Outcome.mapM_eq_error_iff_first, First.flatMap_iff]
  exact First.congr fun _ _ _ => methodEndpoints_eq_error_iff

/-- A class is refused with its first tag that breaks a demand. -/
theorem classEndpoints_eq_error_iff_first {tags : TagSet} :
    classEndpoints className tags = .error error ↔
      First (Turn.Fails className) tags.turns error := by
  rw [TagSet.turns, First.append_iff]
  refine Outcome.bind_eq_error_iff_or (fun _ => allMethodEndpoints_eq_error_iff)
    (fun _ fault => ?_) error
  exact (Outcome.map_eq_error_iff _ _ _).trans (readChosen_eq_error_iff checksChosen_classRule)

/-! ## Refusal -/

namespace Turn

/-- A look at a tag finds a fault exactly if the tag breaks one of the demands. -/
theorem exists_fails_iff {turn : Turn} :
    (∃ error, turn.Fails className error) ↔ turn.tag.arguments.Breaks turn.demands := by
  rw [Arguments.Breaks, ← First.exists_iff]
  constructor
  · rintro ⟨error, fault, first, -⟩
    exact ⟨fault, first⟩
  · rintro ⟨fault, first⟩
    exact ⟨_, fault, first, rfl⟩

end Turn

theorem Arguments.breaks_append_iff {arguments : Arguments} {some others : List Demand} :
    arguments.Breaks (some ++ others) ↔ arguments.Breaks some ∨ arguments.Breaks others := by
  simp only [Breaks, List.mem_append, or_and_right, exists_or]

/-- Some look at the tags of a class finds a fault exactly if a tag on a method breaks a
demand, or a tag on the class. -/
theorem exists_turn_breaks_iff {tags : TagSet} :
    (∃ turn ∈ tags.turns, turn.tag.arguments.Breaks turn.demands) ↔
      (∃ entry ∈ tags.onMethods.entries, ∃ tag ∈ entry.2,
        tag.arguments.Breaks (tag.routeDemands ++ tag.modifierDemands)) ∨
      ∃ tag ∈ tags.onClass, tag.arguments.Breaks tag.classDemands := by
  simp only [TagSet.turns, methodTurns, List.mem_append, List.mem_flatMap, List.mem_map,
    Arguments.breaks_append_iff]
  constructor
  · rintro ⟨turn, (⟨entry, memEntry, (⟨tag, memTag, rfl⟩ | ⟨tag, memTag, rfl⟩)⟩ |
      ⟨tag, memTag, rfl⟩), breaks⟩
    · exact .inl ⟨entry, memEntry, tag, memTag, .inl breaks⟩
    · exact .inl ⟨entry, memEntry, tag, memTag, .inr breaks⟩
    · exact .inr ⟨tag, memTag, breaks⟩
  · rintro (⟨entry, memEntry, tag, memTag, (breaks | breaks)⟩ | ⟨tag, memTag, breaks⟩)
    · exact ⟨_, .inl ⟨entry, memEntry, .inl ⟨tag, memTag, rfl⟩⟩, breaks⟩
    · exact ⟨_, .inl ⟨entry, memEntry, .inr ⟨tag, memTag, rfl⟩⟩, breaks⟩
    · exact ⟨_, .inr ⟨tag, memTag, rfl⟩, breaks⟩

/-- A class is refused, for whatever reason, exactly if one of its tags breaks a demand. -/
theorem exists_refusal_iff {tags : TagSet} :
    (∃ error, classEndpoints className tags = .error error) ↔
      (∃ entry ∈ tags.onMethods.entries, ∃ tag ∈ entry.2,
        tag.arguments.Breaks (tag.routeDemands ++ tag.modifierDemands)) ∨
      ∃ tag ∈ tags.onClass, tag.arguments.Breaks tag.classDemands := by
  simp only [classEndpoints_eq_error_iff_first, First.exists_iff, Turn.exists_fails_iff,
    exists_turn_breaks_iff]

/-- A class has no endpoints to give exactly if a tag on one of its methods or on the class
breaks a demand of its kind. The error names the class, the method if there is one, and the
short name of the first such tag in the order of the turns. -/
theorem classEndpoints_eq_error_iff (className : String) (tags : TagSet) :
    ((∃ error, classEndpoints className tags = .error error) ↔
        (∃ entry ∈ tags.onMethods.entries, ∃ tag ∈ entry.2,
          tag.arguments.Breaks (tag.routeDemands ++ tag.modifierDemands)) ∨
        ∃ tag ∈ tags.onClass, tag.arguments.Breaks tag.classDemands) ∧
      ∀ error, classEndpoints className tags = .error error ↔
        ∃ before turn after fault, tags.turns = before ++ turn :: after ∧
          (∀ earlier ∈ before, ¬ earlier.tag.arguments.Breaks earlier.demands) ∧
          First turn.tag.arguments.Unmet turn.demands fault ∧
          error = .badTag className turn.method (.arguments turn.tag.shortName fault) ∧
          error.message = "malformed annotation on " ++ className ++
            (turn.method.map ("::" ++ ·)).getD "" ++ ": " ++
            ("@" ++ turn.tag.shortName ++ " " ++ fault.message) := by
  refine ⟨?_, fun error => ?_⟩
  · exact exists_refusal_iff
  · have passes (turn : Turn) : (∀ other, ¬ turn.Fails className other) ↔
        ¬ turn.tag.arguments.Breaks turn.demands := by
      rw [← not_exists, Turn.exists_fails_iff]
    rw [classEndpoints_eq_error_iff_first, First.iff_exists_split]
    simp only [passes]
    constructor
    · rintro ⟨before, turn, after, split, earlier, fault, first, rfl⟩
      exact ⟨before, turn, after, fault, split, earlier, first, rfl, rfl⟩
    · rintro ⟨before, turn, after, fault, split, earlier, first, rfl, -⟩
      exact ⟨before, turn, after, split, earlier, fault, first, rfl⟩

/-- A route without a path is reported before a modification above it that is no map. -/
example :
    classEndpoints "Page"
        ⟨[], .ofList [("show",
          [⟨"Where", .whereClause, ⟨[.null], .empty⟩⟩, ⟨"Get", .route .get, .none⟩])]⟩ =
      .error (.badTag "Page" (some "show") (.arguments "Get" (.missing "path"))) := by
  rfl

end DocblockScan
