import DocblockScan.Endpoint.Resolution
import DocblockScan.Proofs.Listener
import DocblockScan.Proofs.OrderedMap
import Mathlib.Logic.Relation

/-!
# Tags without meaning

What a kind of tag means depends on where the tag stands. On a method only routes and their
modifications say something about endpoints, on a class only prefixes, controllers, groups,
middleware, where clauses and resources; only hears tags on methods say something about
listeners. All other tags are idle: they are not even read, so that they can be written, left
out or moved without a change of what a class resolves to, or of why it is refused:
`resolution_ignores_idle_tags`.
-/

namespace DocblockScan

/-! ## Kinds -/

namespace TagKind

/-- Whether tags of a kind say something about endpoints where they stand on a method. -/
def countsOnMethod : TagKind → Bool
  | .route _ | .middleware | .whereClause => true
  | _ => false

/-- Whether tags of a kind say something about endpoints where they stand on a class. -/
def countsOnClass : TagKind → Bool
  | .pathStart | .controller | .group | .middleware | .whereClause | .resource => true
  | _ => false

/-- The kinds that say nothing about endpoints on a method. -/
inductive IdleOnMethod : TagKind → Prop where
  | pathStart : IdleOnMethod .pathStart
  | controller : IdleOnMethod .controller
  | group : IdleOnMethod .group
  | resource : IdleOnMethod .resource
  | hears : IdleOnMethod .hears
  | custom (name : String) : IdleOnMethod (.custom name)

/-- The kinds that say nothing about endpoints on a class. -/
inductive IdleOnClass : TagKind → Prop where
  | route (verb : Verb) : IdleOnClass (.route verb)
  | hears : IdleOnClass .hears
  | custom (name : String) : IdleOnClass (.custom name)

/-- A kind is idle on methods exactly if it does not count there. -/
theorem countsOnMethod_eq_false_iff {kind : TagKind} :
    kind.countsOnMethod = false ↔ kind.IdleOnMethod := by
  constructor
  · intro idle
    cases kind with
    | route | middleware | whereClause => simp [countsOnMethod] at idle
    | _ => constructor
  · rintro (_ | _) <;> rfl

/-- An idle kind is none of those that count. -/
theorem IdleOnMethod.ne {kind other : TagKind} (idle : kind.IdleOnMethod)
    (counts : other.countsOnMethod = true) : kind ≠ other := by
  rintro rfl
  simp [countsOnMethod_eq_false_iff.2 idle] at counts

/-- A kind is idle on classes exactly if it does not count there. -/
theorem countsOnClass_eq_false_iff {kind : TagKind} :
    kind.countsOnClass = false ↔ kind.IdleOnClass := by
  constructor
  · intro idle
    cases kind with
    | route | hears | custom => constructor
    | _ => simp [countsOnClass] at idle
  · rintro (_ | _) <;> rfl

end TagKind

/-! ## Sets of tags that agree -/

/-- Two lists of tags have the same tags of the kinds that count, in the same order. -/
def SameTagsOf (counts : TagKind → Bool) (left right : List Tag) : Prop :=
  left.filter (fun tag => counts tag.kind) = right.filter fun tag => counts tag.kind

/-- Two sets of tags have the same methods in the same order, and agree in order on all tags
that say something about endpoints where they stand. -/
structure TagSet.AgreeOnEndpoints (left right : TagSet) : Prop where
  onMethods : OrderedMap.RelatedEntries (SameTagsOf TagKind.countsOnMethod)
    left.onMethods.entries right.onMethods.entries
  onClass : SameTagsOf TagKind.countsOnClass left.onClass right.onClass

/-- A tag of an idle kind is written somewhere among others. -/
inductive Writes (idle : TagKind → Prop) : List Tag → List Tag → Prop where
  | insert (front back : List Tag) {tag : Tag} (isIdle : idle tag.kind) :
      Writes idle (front ++ back) (front ++ tag :: back)

/-- Tags of idle kinds are written and left out, any number of them; so they are also
moved. -/
def Edits (idle : TagKind → Prop) : List Tag → List Tag → Prop :=
  Relation.EqvGen (Writes idle)

/-- The tags on each method and those on the class are edited. -/
structure TagSet.EditsIdly (left right : TagSet) : Prop where
  onMethods : OrderedMap.RelatedEntries (Edits TagKind.IdleOnMethod)
    left.onMethods.entries right.onMethods.entries
  onClass : Edits TagKind.IdleOnClass left.onClass right.onClass

/-- Tags of kinds that do not count make no difference to those that do. -/
theorem Edits.sameTagsOf {counts : TagKind → Bool} {idle : TagKind → Prop}
    (apart : ∀ kind, idle kind → counts kind = false) {left right : List Tag}
    (edits : Edits idle left right) : SameTagsOf counts left right := by
  induction edits with
  | rel _ _ writes =>
      obtain ⟨front, back, isIdle⟩ := writes
      simp [SameTagsOf, List.filter_append, apart _ isIdle]
  | refl _ => rfl
  | symm _ _ _ inductionHypothesis => exact inductionHypothesis.symm
  | trans _ _ _ _ _ first second => exact first.trans second

/-- Sets that are edited agree. -/
theorem TagSet.EditsIdly.agree {left right : TagSet} (edits : left.EditsIdly right) :
    left.AgreeOnEndpoints right where
  onMethods := List.Forall₂.imp
    (fun _ _ entry => ⟨entry.1, entry.2.sameTagsOf fun _ => TagKind.countsOnMethod_eq_false_iff.2⟩)
    edits.onMethods
  onClass := edits.onClass.sameTagsOf fun _ => TagKind.countsOnClass_eq_false_iff.2

/-! ## Reading only what counts -/

section Reading

variable {Value : Type} {className : String} {method : Option String}
variable {reading? : TagKind → Option (Arguments → Except ArgumentFault Value)}

/-- Tags of kinds for which there is no reading can be left out. -/
theorem readChosen_filter {counts : TagKind → Bool}
    (unread : ∀ kind, counts kind = false → reading? kind = none) (tags : List Tag) :
    readChosen className method reading? (tags.filter fun tag => counts tag.kind) =
      readChosen className method reading? tags := by
  induction tags with
  | nil => rfl
  | cons tag rest inductionHypothesis =>
      rw [List.filter_cons]
      cases isRead : counts tag.kind with
      | true => simp only [if_true, readChosen, inductionHypothesis]
      | false => simp only [Bool.false_eq_true, if_false, inductionHypothesis, readChosen, unread _ isRead]

/-- Lists with the same tags of all kinds that are read are read alike. -/
theorem SameTagsOf.readChosen_eq {counts : TagKind → Bool} {left right : List Tag}
    (same : SameTagsOf counts left right)
    (unread : ∀ kind, counts kind = false → reading? kind = none) :
    readChosen className method reading? left = readChosen className method reading? right := by
  rw [← readChosen_filter unread left, same, readChosen_filter unread right]

end Reading

/-- Kinds that do not count on methods are not read as routes. -/
theorem routeReading?_of_idle (className method : String) (kind : TagKind)
    (idle : kind.countsOnMethod = false) : routeReading? className method kind = none := by
  cases kind with
  | route => simp [TagKind.countsOnMethod] at idle
  | _ => rfl

/-- Kinds that do not count on methods are not read as modifications. -/
theorem MethodModifier.reading?_of_idle (kind : TagKind) (idle : kind.countsOnMethod = false) :
    reading? kind = none := by
  cases kind with
  | middleware | whereClause => simp [TagKind.countsOnMethod] at idle
  | _ => rfl

/-- Kinds that do not count on classes are not read as rules. -/
theorem ClassRule.reading?_of_idle (kind : TagKind) (idle : kind.countsOnClass = false) :
    reading? kind = none := by
  cases kind with
  | route | hears | custom => rfl
  | _ => simp [TagKind.countsOnClass] at idle

variable {className : String}

/-- The endpoints of a method depend on the tags that count there. -/
theorem SameTagsOf.methodEndpoints_eq {left right : List Tag}
    (same : SameTagsOf TagKind.countsOnMethod left right) (method : String) :
    methodEndpoints className method left = methodEndpoints className method right := by
  rw [methodEndpoints, methodEndpoints, same.readChosen_eq (routeReading?_of_idle className method),
    same.readChosen_eq MethodModifier.reading?_of_idle]

/-- The endpoints of a class depend on those of its methods and on the rules of the class. -/
theorem classEndpoints_congr {left right : TagSet}
    (methods : OrderedMap.RelatedEntries (fun tags others => ∀ method,
      methodEndpoints className method tags = methodEndpoints className method others)
      left.onMethods.entries right.onMethods.entries)
    (rules : readChosen className none ClassRule.reading? left.onClass =
      readChosen className none ClassRule.reading? right.onClass) :
    classEndpoints className left = classEndpoints className right := by
  have created : allMethodEndpoints className left.onMethods.entries =
      allMethodEndpoints className right.onMethods.entries := by
    have each : List.Forall₂ (fun one other =>
        methodEndpoints className one.1 one.2 = methodEndpoints className other.1 other.2)
        left.onMethods.entries right.onMethods.entries :=
      List.Forall₂.imp (fun one _ entry => entry.1 ▸ entry.2 one.1) methods
    rw [allMethodEndpoints, allMethodEndpoints, Outcome.mapM_congr each]
  rw [classEndpoints, classEndpoints, created, rules]

/-- The endpoints of a class depend on the tags that count where they stand. -/
theorem TagSet.AgreeOnEndpoints.classEndpoints_eq {left right : TagSet}
    (agree : left.AgreeOnEndpoints right) :
    classEndpoints className left = classEndpoints className right :=
  classEndpoints_congr
    (List.Forall₂.imp (fun _ _ entry => ⟨entry.1, entry.2.methodEndpoints_eq⟩) agree.onMethods)
    (agree.onClass.readChosen_eq ClassRule.reading?_of_idle)

/-! ## Idle tags have no effect -/

/-- Whatever the class, two sets of tags that agree on all tags that count give the same
endpoints or the same error; in particular tags that say nothing where they stand can be
written, left out and moved, with any arguments. Two sets with the same hears tags on their
methods give the same listeners or the same error. -/
theorem resolution_ignores_idle_tags (className : String) (left right : TagSet) :
    (left.AgreeOnEndpoints right →
      classEndpoints className left = classEndpoints className right) ∧
    (left.EditsIdly right →
      classEndpoints className left = classEndpoints className right) ∧
    (left.hearings = right.hearings →
      classListeners className left = classListeners className right) := by
  refine ⟨fun agree => agree.classEndpoints_eq, fun edits => edits.agree.classEndpoints_eq, ?_⟩
  intro sameHearings
  rw [classListeners_eq, classListeners_eq, sameHearings]

/-- A page with a route and a listener. -/
def pageTags : TagSet where
  onClass := [⟨"Prefix", .pathStart, ⟨[.string "/pages"], .empty⟩⟩]
  onMethods := .ofList [
    ("show", [⟨"Get", .route .get, ⟨[.string "/{id}"], .empty⟩⟩]),
    ("update", [⟨"Hears", .hears, ⟨[.string "Edited"], .empty⟩⟩])]

/-- The page with tags that say nothing where they stand, and whose arguments are wrong for
their kinds. -/
def clutteredPageTags : TagSet where
  onClass := [
    ⟨"Get", .route .get, ⟨[.integer 1], .empty⟩⟩,
    ⟨"Prefix", .pathStart, ⟨[.string "/pages"], .empty⟩⟩,
    ⟨"Hears", .hears, ⟨[], .empty⟩⟩]
  onMethods := .ofList [
    ("show", [
      ⟨"Resource", .resource, ⟨[], .empty⟩⟩,
      ⟨"Get", .route .get, ⟨[.string "/{id}"], .empty⟩⟩]),
    ("update", [
      ⟨"Hears", .hears, ⟨[.string "Edited"], .empty⟩⟩,
      ⟨"Audit", .custom "Audit", ⟨[.null], .empty⟩⟩])]

/-- The page resolves to its endpoint and its listener with and without those tags. -/
theorem resolution_ignores_idle_page :
    classEndpoints "Page" clutteredPageTags = classEndpoints "Page" pageTags ∧
    classListeners "Page" clutteredPageTags = classListeners "Page" pageTags ∧
    (classEndpoints "Page" pageTags).map (·.map Endpoint.path) = .ok ["/pages/{id}"] ∧
    classListeners "Page" pageTags = .ok [⟨"Page", "update", "Page@update", ["Edited"]⟩] := by
  have agree : pageTags.AgreeOnEndpoints clutteredPageTags :=
    ⟨.cons ⟨rfl, rfl⟩ (.cons ⟨rfl, rfl⟩ .nil), rfl⟩
  have edits : pageTags.EditsIdly clutteredPageTags := by
    refine ⟨.cons ⟨rfl, .rel _ _ (.insert [] _ .resource)⟩
      (.cons ⟨rfl, .rel _ _ (.insert [_] [] (.custom "Audit"))⟩ .nil), ?_⟩
    exact .trans _ _ _ (.rel _ _ (.insert [] _ (.route .get))) (.rel _ _ (.insert [_, _] [] .hears))
  have same := resolution_ignores_idle_tags "Page" pageTags clutteredPageTags
  exact ⟨((same.1 agree).symm.trans (same.2.1 edits)).trans (same.2.1 edits).symm,
    (same.2.2 rfl).symm, rfl, rfl⟩

end DocblockScan
