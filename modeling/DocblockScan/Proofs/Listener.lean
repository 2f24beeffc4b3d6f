import DocblockScan.Listener
import DocblockScan.Proofs.ArgumentDemands

/-!
# Listeners are the hears tags on methods

The hears tags on the methods of a class are read one by one, in order, and each gives one
listener or the error that names it: `classListeners_eq`. So listeners and hears tags
correspond one to one, and a class is refused with its first hears tag that lists no events.
-/

namespace DocblockScan

open Outcome (First)

/-! ## Events of a tag -/

/-- The texts that a literal lists: a string is a list of one text. -/
inductive Literal.Lists : Literal → List String → Prop where
  | text {text : String} : Lists (.string text) [text]
  | array {entries : List (Option String × Literal)} {texts : List String}
      (each : List.Forall₂ (fun entry text => entry.2 = .string text) entries texts) :
      Lists (.array entries) texts

theorem Literal.textList?_eq_some_iff {literal : Literal} {texts : List String} :
    literal.textList? = some texts ↔ literal.Lists texts := by
  have text (entry : Option String × Literal) (found : String) :
      entry.2.text? = some found ↔ entry.2 = .string found := by
    cases entry.2 <;> simp [text?]
  have array (entries : List (Option String × Literal)) :
      (entries.mapM fun entry => entry.2.text?) = some texts ↔
        List.Forall₂ (fun entry text => entry.2 = .string text) entries texts := by
    simp only [Outcome.mapM_eq_some_iff, text]
  constructor
  · intro found
    cases literal with
    | string content =>
        obtain rfl := Option.some.inj found
        exact .text
    | array entries => exact .array ((array entries).1 found)
    | _ => simp [textList?] at found
  · rintro (_ | each)
    · rfl
    · exact (array _).2 each

namespace Arguments

variable {arguments : Arguments} {fault : ArgumentFault}

/-- The events that arguments list: those of the default argument, or without one those of
the argument named `events`. There is at least one. -/
structure ListsEvents (arguments : Arguments) (events : List String) : Prop where
  nonempty : events ≠ []
  lists : ∃ literal, (arguments.default?.or (arguments.get? "events")) = some literal ∧
    literal.Lists events

theorem requiredTextList_eq_ok_iff {texts : List String} :
    arguments.requiredTextList = .ok texts ↔
      texts ≠ [] ∧ ∃ literal, arguments.default? = some literal ∧ literal.textList? = some texts := by
  unfold requiredTextList
  cases arguments.default? with
  | none => simp
  | some literal =>
      simp only [Option.some.injEq, exists_eq_left']
      split
      · next first others found =>
          rw [found, Option.some.injEq, Except.ok.injEq]
          constructor
          · rintro rfl
            exact ⟨List.cons_ne_nil _ _, rfl⟩
          · exact And.right
      · next others =>
          refine ⟨nofun, ?_⟩
          rintro ⟨nonempty, found⟩
          cases texts with
          | nil => exact absurd rfl nonempty
          | cons first rest => exact absurd found (others first rest)

/-- A named argument is read as a list of texts that is not empty exactly if it lists them:
one that is absent or null is read as the empty list. -/
theorem optionalTextList_eq_ok_iff {key : String} {texts : List String} (nonempty : texts ≠ []) :
    arguments.optionalTextList key = .ok texts ↔
      ∃ literal, arguments.get? key = some literal ∧ literal.textList? = some texts := by
  have present (literal : Literal) (found : literal.textList? = some texts) : literal ≠ .null := by
    rintro rfl
    simp [Literal.textList?] at found
  rw [optionalTextList_eq, Outcome.map_eq_ok_iff]
  constructor
  · rintro ⟨_ | found, read, rfl⟩
    · exact absurd rfl nonempty
    · obtain ⟨literal, has, lists⟩ := readForm_eq_some_iff.1 read
      exact ⟨literal, has.1, lists⟩
  · rintro ⟨literal, has, lists⟩
    exact ⟨some texts, readForm_eq_some_iff.2 ⟨literal, ⟨has, present literal lists⟩, lists⟩, rfl⟩

/-- A named argument is read as the empty list exactly if it is the empty array, absent, or
null. -/
theorem optionalTextList_eq_nil_iff {key : String} :
    arguments.optionalTextList key = .ok [] ↔
      ∀ literal, arguments.Has key literal → literal = .array [] := by
  rw [optionalTextList_eq, Outcome.map_eq_ok_iff]
  constructor
  · rintro ⟨_ | found, read, isNil⟩ literal has
    · exact absurd has (readForm_eq_none_iff.1 read literal)
    · obtain ⟨other, hasToo, lists⟩ := readForm_eq_some_iff.1 read
      obtain rfl := Option.some.inj (has.1.symm.trans hasToo.1)
      obtain rfl : found = [] := isNil
      exact (Literal.textList?_eq_nil_iff _).1 lists
  · intro nothing
    by_cases has : ∃ literal, arguments.Has key literal
    · obtain ⟨literal, has⟩ := has
      obtain rfl := nothing literal has
      exact ⟨some [], readForm_eq_some_iff.2 ⟨_, has, rfl⟩, rfl⟩
    · exact ⟨Option.none, readForm_eq_none_iff.2 (not_exists.1 has), rfl⟩

/-- The check that there is an event, after a reading of events. -/
theorem checkEvents_eq_ok_iff {reading : Except ArgumentFault (List String)}
    {events : List String} :
    (do let found ← reading
        if found.isEmpty then .error .noEvents else .ok found) = Except.ok events ↔
      events ≠ [] ∧ reading = .ok events := by
  cases reading with
  | error fault => simp [bind, Except.bind]
  | ok found =>
      cases found with
      | nil => simp [bind, Except.bind, eq_comm]
      | cons first others =>
          simp only [bind, Except.bind, List.isEmpty_cons, Bool.false_eq_true, if_false,
            Except.ok.injEq]
          constructor
          · rintro rfl
            exact ⟨List.cons_ne_nil _ _, rfl⟩
          · exact And.right

theorem checkEvents_eq_error_iff {reading : Except ArgumentFault (List String)} :
    (do let found ← reading
        if found.isEmpty then .error .noEvents else .ok found) = Except.error fault ↔
      reading = .error fault ∨ reading = .ok [] ∧ fault = .noEvents := by
  cases reading with
  | error fault => simp [bind, Except.bind]
  | ok found => cases found <;> simp [bind, Except.bind, eq_comm]

/-- Events are read exactly if the arguments list them. -/
theorem readEvents_eq_ok_iff {events : List String} :
    Listener.readEvents arguments = .ok events ↔ arguments.ListsEvents events := by
  unfold Listener.readEvents
  cases main : arguments.default? with
  | some literal =>
      rw [checkEvents_eq_ok_iff, requiredTextList_eq_ok_iff]
      simp only [main, Literal.textList?_eq_some_iff]
      constructor
      · rintro ⟨nonempty, -, lists⟩
        exact ⟨nonempty, by simpa [main] using lists⟩
      · rintro ⟨nonempty, lists⟩
        exact ⟨nonempty, nonempty, by simpa [main] using lists⟩
  | none =>
      rw [checkEvents_eq_ok_iff]
      constructor
      · rintro ⟨nonempty, read⟩
        obtain ⟨literal, named, lists⟩ := (optionalTextList_eq_ok_iff nonempty).1 read
        exact ⟨nonempty, literal, by simp [main, named], Literal.textList?_eq_some_iff.1 lists⟩
      · rintro ⟨nonempty, literal, found, lists⟩
        rw [main, Option.none_or] at found
        exact ⟨nonempty, (optionalTextList_eq_ok_iff nonempty).2
          ⟨literal, found, Literal.textList?_eq_some_iff.2 lists⟩⟩

/-- Events cannot be read exactly if the demand for them is broken. -/
theorem readEvents_eq_error_iff :
    Listener.readEvents arguments = .error fault ↔ arguments.Unmet .events fault := by
  unfold Listener.readEvents
  cases main : arguments.default? with
  | some literal =>
      rw [checkEvents_eq_error_iff, requiredTextList_eq_error_iff, requiredTextList_eq_ok_iff]
      constructor
      · rintro (unmet | ⟨⟨nonempty, -⟩, -⟩)
        · cases unmet with
          | noValues noDefault => simp [main] at noDefault
          | notTextList main other => exact .eventsNotTextList main other
        · exact absurd rfl nonempty
      · intro unmet
        cases unmet with
        | eventsNotTextList main other => exact .inl (.notTextList main other)
        | namedEventsNotTextList noDefault _ _ => simp [main] at noDefault
        | noEvents noDefault _ => simp [main] at noDefault
  | none =>
      rw [checkEvents_eq_error_iff, optionalTextList_eq_error_iff, optionalTextList_eq_nil_iff]
      constructor
      · rintro (unmet | ⟨nothing, rfl⟩)
        · cases unmet with
          | keyNotTextList has other => exact .namedEventsNotTextList main has other
        · exact .noEvents main nothing
      · intro unmet
        cases unmet with
        | eventsNotTextList isDefault _ => simp [main] at isDefault
        | namedEventsNotTextList _ has other => exact .inl (.keyNotTextList has other)
        | noEvents _ nothing => exact .inr ⟨nothing, rfl⟩

end Arguments

/-! ## Hears tags -/

/-- A hears tag on a method. -/
structure Hearing where
  method : String
  tag : Tag
deriving Repr

/-- The hears tags among the tags of a method. -/
def hearingsOn (method : String) (tags : List Tag) : List Hearing :=
  (tags.filter fun tag => tag.kind = .hears).map fun tag => ⟨method, tag⟩

/-- The hears tags on the methods of a class, method after method. -/
def TagSet.hearings (tags : TagSet) : List Hearing :=
  tags.onMethods.entries.flatMap fun entry => hearingsOn entry.1 entry.2

namespace Hearing

/-- The listener that a hears tag makes. -/
def read (className : String) (hearing : Hearing) : Except ScanError Listener :=
  hearing.tag.read className (some hearing.method) fun arguments => do
    return .plain className hearing.method (← Listener.readEvents arguments)

/-- A listener is what a hears tag says. -/
structure MakesListener (className : String) (hearing : Hearing) (listener : Listener) : Prop where
  ofClass : listener.className = className
  ofMethod : listener.method = hearing.method
  handler : listener.handler = className ++ "@" ++ hearing.method
  events : hearing.tag.arguments.ListsEvents listener.events

/-- A hears tag lists no events, and the error names it. -/
def Fails (className : String) (hearing : Hearing) (error : ScanError) : Prop :=
  ∃ fault, hearing.tag.arguments.Unmet .events fault ∧
    error = .badTag className (some hearing.method) (.arguments hearing.tag.shortName fault)

variable {className : String} {hearing : Hearing}

theorem read_eq_ok_iff {listener : Listener} :
    hearing.read className = .ok listener ↔ hearing.MakesListener className listener := by
  unfold read Tag.read
  rw [Outcome.mapError_eq_ok_iff, Outcome.bind_eq_ok_iff]
  constructor
  · rintro ⟨events, read, made⟩
    obtain rfl := Except.ok.inj made
    exact ⟨rfl, rfl, rfl, Arguments.readEvents_eq_ok_iff.1 read⟩
  · obtain ⟨ofClass, method, handler, events⟩ := listener
    rintro ⟨sameClass, sameMethod, isHandler, lists⟩
    dsimp only at sameClass sameMethod isHandler
    subst sameClass sameMethod isHandler
    exact ⟨events, Arguments.readEvents_eq_ok_iff.2 lists, rfl⟩

theorem read_eq_error_iff {error : ScanError} :
    hearing.read className = .error error ↔ hearing.Fails className error := by
  unfold read Tag.read
  rw [Outcome.mapError_eq_error_iff]
  refine exists_congr fun fault => and_congr ?_ eq_comm
  exact (Outcome.map_eq_error_iff _ _ _).trans Arguments.readEvents_eq_error_iff

end Hearing

/-! ## Listeners of classes -/

variable {className : String}

/-- Of the tags on a method the hears tags are read. -/
theorem methodListeners_eq (method : String) (tags : List Tag) :
    methodListeners className method tags =
      (hearingsOn method tags).mapM (Hearing.read className) := by
  induction tags with
  | nil => rfl
  | cons tag rest inductionHypothesis =>
      unfold methodListeners at inductionHypothesis ⊢
      rw [readChosen, inductionHypothesis]
      cases kind : tag.kind <;> simp [Listener.reading?, hearingsOn, kind, Hearing.read]

/-- The listeners of a class are those of its hears tags, in order. -/
theorem classListeners_eq (tags : TagSet) :
    classListeners className tags = tags.hearings.mapM (Hearing.read className) := by
  rw [TagSet.hearings, Outcome.mapM_flatMap]
  unfold classListeners
  simp only [methodListeners_eq]

/-- A class has listeners exactly if each of its hears tags makes one. -/
theorem classListeners_eq_ok_iff {tags : TagSet} {listeners : List Listener} :
    classListeners className tags = .ok listeners ↔
      List.Forall₂ (Hearing.MakesListener className) tags.hearings listeners := by
  simp only [classListeners_eq, Outcome.mapM_eq_ok_iff, Hearing.read_eq_ok_iff]

/-- A class is refused with its first hears tag that lists no events. -/
theorem classListeners_eq_error_iff {tags : TagSet} {error : ScanError} :
    classListeners className tags = .error error ↔
      First (Hearing.Fails className) tags.hearings error := by
  simp only [classListeners_eq, Outcome.mapM_eq_error_iff_first, Hearing.read_eq_error_iff]

variable {registry : Registry} {declaration : ClassDeclaration}

/-- The tags of a declaration can be read, and its listeners are what its hears tags say. -/
def MakesListeners (registry : Registry) (declaration : ClassDeclaration)
    (listeners : List Listener) : Prop :=
  ∃ tags, TagSet.read registry declaration = .ok tags ∧
    List.Forall₂ (Hearing.MakesListener declaration.name) tags.hearings listeners

/-- A docblock of a declaration cannot be read, or one of its hears tags lists no events. -/
inductive FailsToListen (registry : Registry) (declaration : ClassDeclaration) :
    ScanError → Prop where
  | unread {error : ScanError} (unread : TagSet.read registry declaration = .error error) :
      FailsToListen registry declaration error
  | unheard {error : ScanError} {tags : TagSet}
      (read : TagSet.read registry declaration = .ok tags)
      (first : First (Hearing.Fails declaration.name) tags.hearings error) :
      FailsToListen registry declaration error

theorem declaredListeners_eq_ok_iff {listeners : List Listener} :
    declaredListeners registry declaration = .ok listeners ↔
      MakesListeners registry declaration listeners := by
  simp only [declaredListeners, Outcome.bind_eq_ok_iff, classListeners_eq_ok_iff, MakesListeners]

theorem declaredListeners_eq_error_iff {error : ScanError} :
    declaredListeners registry declaration = .error error ↔
      FailsToListen registry declaration error := by
  simp only [declaredListeners, Outcome.bind_eq_error_iff, classListeners_eq_error_iff]
  constructor
  · rintro (unread | ⟨tags, read, first⟩)
    · exact .unread unread
    · exact .unheard read first
  · rintro (unread | ⟨read, first⟩)
    · exact .inl unread
    · exact .inr ⟨_, read, first⟩

/-- The listeners of a list of classes are those of each class, class by class. -/
theorem listenersOf_eq_ok_iff {declarations : List ClassDeclaration} {listeners : List Listener} :
    listenersOf registry declarations = .ok listeners ↔
      ∃ perClass, List.Forall₂ (MakesListeners registry) declarations perClass ∧
        listeners = perClass.flatten := by
  unfold listenersOf
  rw [Outcome.bind_eq_ok_iff]
  simp only [Outcome.mapM_eq_ok_iff, declaredListeners_eq_ok_iff]
  constructor
  · rintro ⟨perClass, each, result⟩
    exact ⟨perClass, each, (Except.ok.inj result).symm⟩
  · rintro ⟨perClass, each, rfl⟩
    exact ⟨perClass, each, rfl⟩

/-- A list of classes is refused with the first class that is. -/
theorem listenersOf_eq_error_iff {declarations : List ClassDeclaration} {error : ScanError} :
    listenersOf registry declarations = .error error ↔
      First (FailsToListen registry) declarations error := by
  refine (Outcome.map_eq_error_iff _ _ _).trans ?_
  simp only [Outcome.mapM_eq_error_iff_first, declaredListeners_eq_error_iff]

end DocblockScan
