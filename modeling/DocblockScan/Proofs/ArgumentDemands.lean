import DocblockScan.ArgumentReading
import DocblockScan.Proofs.Outcome

/-!
# What is demanded of arguments

The shapes that a tag can demand of its arguments, one demand for each way of reading
them. `Unmet` says in which ways arguments break a demand, and with what fault; it looks
at literals only and calls no reading. Each reading fails exactly if its demand is broken,
and several readings one after the other fail with the fault of the first one that is
broken: `Checks.bind`.
-/

namespace DocblockScan

open Outcome (First)

/-! ## Shapes of literals -/

namespace Literal

/-- A string. -/
def IsText : Literal → Prop
  | .string _ => True
  | _ => False

/-- A string, or an array of strings. -/
def IsTextList : Literal → Prop
  | .string _ => True
  | .array entries => ∀ entry ∈ entries, entry.2.IsText
  | _ => False

/-- An array of strings that all have keys. -/
def IsTextMap : Literal → Prop
  | .array entries => ∀ entry ∈ entries, entry.1 ≠ none ∧ entry.2.IsText
  | _ => False

theorem text?_eq_none_iff (literal : Literal) : literal.text? = none ↔ ¬ literal.IsText := by
  cases literal <;> simp [text?, IsText]

theorem textList?_eq_none_iff (literal : Literal) :
    literal.textList? = none ↔ ¬ literal.IsTextList := by
  cases literal with
  | array entries => simp [textList?, IsTextList, Outcome.mapM_eq_none_iff, text?_eq_none_iff]
  | _ => simp [textList?, IsTextList]

theorem textMap?_eq_none_iff (literal : Literal) :
    literal.textMap? = none ↔ ¬ literal.IsTextMap := by
  have entry (entry : Option String × Literal) :
      textEntry? entry = none ↔ ¬(entry.1 ≠ none ∧ entry.2.IsText) := by
    obtain ⟨key, value⟩ := entry
    rw [not_and_or, ← text?_eq_none_iff]
    cases key <;> cases text : value.text? <;> simp [ textEntry?, text]
  cases literal with
  | array entries =>
      simp only [textMap?, Option.map_eq_none_iff, Outcome.mapM_eq_none_iff, entry, IsTextMap]
      push Not
      rfl
  | _ => simp [textMap?, IsTextMap]

/-- Only the empty array lists no texts. -/
theorem textList?_eq_nil_iff (literal : Literal) :
    literal.textList? = some [] ↔ literal = .array [] := by
  cases literal with
  | array entries =>
      cases entries with
      | nil => simp [textList?]
      | cons entry others =>
          cases text : entry.2.text? <;> cases texts : others.mapM fun entry => entry.2.text? <;>
            simp [textList?, List.mapM_cons, text, texts]
  | _ => simp [textList?]

end Literal

/-! ## Demands -/

/-- What a tag demands of its arguments. The demands with a key are on the argument of
that name; those on the main argument are on the default one. -/
inductive Demand where
  /-- The default argument, or without one the argument of the name, is a text. -/
  | mainText (key : String)
  /-- The default argument lists at least one text. -/
  | mainTexts
  /-- The first argument without a name is a map of texts, or all named ones are texts. -/
  | mainMap
  /-- The argument is a text, if it is there and not null. -/
  | text (key : String)
  /-- The argument lists texts, if it is there and not null. -/
  | textList (key : String)
  /-- The argument is a map of texts, if it is there and not null. -/
  | textMap (key : String)
  /-- The default argument, or without one the argument `events`, lists at least one text. -/
  | events
deriving Repr, DecidableEq

namespace Arguments

variable (arguments : Arguments)

/-- The argument of a name is there and has a content. -/
def Has (key : String) (literal : Literal) : Prop :=
  arguments.get? key = some literal ∧ literal ≠ .null

/-- The ways in which arguments break a demand, and the fault that names each of them. -/
inductive Unmet : Demand → ArgumentFault → Prop where
  | missing {key : String} (noDefault : arguments.default? = Option.none)
      (absent : arguments.get? key = Option.none) : Unmet (.mainText key) (.missing key)
  | notText {key : String} {literal : Literal}
      (main : arguments.default?.or (arguments.get? key) = some literal)
      (other : ¬ literal.IsText) : Unmet (.mainText key) (.notText key)
  | noValues (noDefault : arguments.default? = Option.none) : Unmet .mainTexts .noValues
  | notTextList {literal : Literal} (main : arguments.default? = some literal)
      (other : ¬(literal.IsTextList ∧ literal ≠ .array [])) : Unmet .mainTexts .notTextList
  | notTextMap {literal : Literal} {others : List Literal}
      (main : arguments.positional = literal :: others) (other : ¬ literal.IsTextMap) :
      Unmet .mainMap .notTextMap
  | namedNotText {before after : List (String × Literal)} {key : String} {literal : Literal}
      (allNamed : arguments.positional = [])
      (named : arguments.named.entries = before ++ (key, literal) :: after)
      (earlier : ∀ entry ∈ before, entry.2.IsText) (other : ¬ literal.IsText) :
      Unmet .mainMap (.keyNotText key)
  | keyNotText {key : String} {literal : Literal} (has : arguments.Has key literal)
      (other : ¬ literal.IsText) : Unmet (.text key) (.keyNotText key)
  | keyNotTextList {key : String} {literal : Literal} (has : arguments.Has key literal)
      (other : ¬ literal.IsTextList) : Unmet (.textList key) (.keyNotTextList key)
  | keyNotTextMap {key : String} {literal : Literal} (has : arguments.Has key literal)
      (other : ¬ literal.IsTextMap) : Unmet (.textMap key) (.keyNotTextMap key)
  | eventsNotTextList {literal : Literal} (main : arguments.default? = some literal)
      (other : ¬(literal.IsTextList ∧ literal ≠ .array [])) : Unmet .events .notTextList
  | namedEventsNotTextList {literal : Literal} (noDefault : arguments.default? = Option.none)
      (has : arguments.Has "events" literal) (other : ¬ literal.IsTextList) :
      Unmet .events (.keyNotTextList "events")
  | noEvents (noDefault : arguments.default? = Option.none)
      (nothing : ∀ literal, arguments.Has "events" literal → literal = .array []) :
      Unmet .events .noEvents

/-- Arguments that break one of some demands. -/
def Breaks (demands : List Demand) : Prop :=
  ∃ demand ∈ demands, ∃ fault, arguments.Unmet demand fault

variable {arguments} {fault : ArgumentFault}

theorem present?_eq_some_iff {key : String} {literal : Literal} :
    arguments.present? key = some literal ↔ arguments.Has key literal := by
  unfold present? Has
  split
  · next isNull =>
      rw [isNull]
      refine ⟨nofun, ?_⟩
      rintro ⟨⟨⟩, noNull⟩
      exact absurd rfl noNull
  · next notNull =>
      refine ⟨fun found => ⟨found, ?_⟩, And.left⟩
      rintro rfl
      exact notNull found

theorem present?_eq_none_iff {key : String} :
    arguments.present? key = Option.none ↔ ∀ literal, ¬ arguments.Has key literal := by
  simp only [Option.eq_none_iff_forall_ne_some, ne_eq, present?_eq_some_iff]

/-! ## One reading -/

theorem requiredText_eq_error_iff {key : String} :
    arguments.requiredText key = .error fault ↔ arguments.Unmet (.mainText key) fault := by
  unfold requiredText
  constructor
  · intro fails
    split at fails
    · next absent =>
        obtain ⟨noDefault, absent⟩ := Option.or_eq_none_iff.1 absent
        obtain rfl := Except.error.inj fails
        exact .missing noDefault absent
    · next literal main =>
        split at fails
        · simp at fails
        · next noText =>
            obtain rfl := Except.error.inj fails
            exact .notText main ((Literal.text?_eq_none_iff _).1 noText)
  · rintro (⟨noDefault, absent⟩ | ⟨main, other⟩)
    · simp [noDefault, absent]
    · simp [main, (Literal.text?_eq_none_iff _).2 other]

theorem requiredTextList_eq_error_iff :
    arguments.requiredTextList = .error fault ↔ arguments.Unmet .mainTexts fault := by
  unfold requiredTextList
  constructor
  · intro fails
    split at fails
    · next noDefault =>
        obtain rfl := Except.error.inj fails
        exact .noValues noDefault
    · next literal main =>
        split at fails
        · simp at fails
        · next noneListed =>
            obtain rfl := Except.error.inj fails
            refine .notTextList main fun lists => ?_
            cases texts : literal.textList? with
            | none => exact (Literal.textList?_eq_none_iff _).1 texts lists.1
            | some found =>
                cases found with
                | nil => exact lists.2 ((Literal.textList?_eq_nil_iff _).1 texts)
                | cons first others => exact noneListed first others texts
  · intro unmet
    cases unmet with
    | noValues noDefault => simp [noDefault]
    | @notTextList literal main other =>
        rw [main]
        dsimp only
        split
        · next first others texts =>
            exfalso
            refine other ⟨by_contra fun noList => ?_, fun empty => ?_⟩
            · simp [(Literal.textList?_eq_none_iff _).2 noList] at texts
            · simp [(Literal.textList?_eq_nil_iff _).2 empty] at texts
        · rfl

/-- A named argument that is read in some form if it is there. -/
def readForm {Form : Type} (arguments : Arguments) (key : String) (form : Literal → Option Form)
    (broken : ArgumentFault) : Except ArgumentFault (Option Form) :=
  (arguments.present? key).elim (.ok Option.none) fun literal =>
    (form literal).elim (.error broken) fun found => .ok (some found)

/-- A named argument that is read in some form fails if it is there in no such form. -/
theorem readForm_eq_error_iff {Form : Type} {key : String} {form : Literal → Option Form}
    {broken : ArgumentFault} :
    arguments.readForm key form broken = .error fault ↔
      ∃ literal, arguments.Has key literal ∧ form literal = Option.none ∧ fault = broken := by
  simp only [readForm, ← present?_eq_some_iff]
  cases arguments.present? key with
  | none => simp
  | some literal => cases found : form literal <;> simp [found, eq_comm]

theorem readForm_eq_some_iff {Form : Type} {key : String} {form : Literal → Option Form}
    {broken : ArgumentFault} {found : Form} :
    arguments.readForm key form broken = .ok (some found) ↔
      ∃ literal, arguments.Has key literal ∧ form literal = some found := by
  simp only [readForm, ← present?_eq_some_iff]
  cases arguments.present? key with
  | none => simp
  | some literal => cases read : form literal <;> simp [read]

theorem readForm_eq_none_iff {Form : Type} {key : String} {form : Literal → Option Form}
    {broken : ArgumentFault} :
    arguments.readForm key form broken = .ok Option.none ↔ ∀ literal, ¬ arguments.Has key literal := by
  rw [readForm, ← present?_eq_none_iff]
  cases arguments.present? key with
  | none => simp
  | some literal => cases read : form literal <;> simp [read]

theorem optionalText_eq (key : String) :
    arguments.optionalText key = arguments.readForm key Literal.text? (.keyNotText key) := by
  unfold optionalText readForm
  cases arguments.present? key with
  | none => rfl
  | some literal => cases found : literal.text? <;> simp [found]

theorem optionalTextList_eq (key : String) :
    arguments.optionalTextList key =
      (·.getD []) <$> arguments.readForm key Literal.textList? (.keyNotTextList key) := by
  unfold optionalTextList readForm
  cases arguments.present? key with
  | none => rfl
  | some literal => cases found : literal.textList? <;> simp [found, Functor.map, Except.map]

theorem optionalTextMap_eq (key : String) :
    arguments.optionalTextMap key =
      (·.getD .empty) <$> arguments.readForm key Literal.textMap? (.keyNotTextMap key) := by
  unfold optionalTextMap readForm
  cases arguments.present? key with
  | none => rfl
  | some literal => cases found : literal.textMap? <;> simp [found, Functor.map, Except.map]

theorem optionalText_eq_error_iff {key : String} :
    arguments.optionalText key = .error fault ↔ arguments.Unmet (.text key) fault := by
  rw [optionalText_eq, readForm_eq_error_iff]
  constructor
  · rintro ⟨literal, has, noText, rfl⟩
    exact .keyNotText has ((Literal.text?_eq_none_iff _).1 noText)
  · intro unmet
    cases unmet with
    | keyNotText has other => exact ⟨_, has, (Literal.text?_eq_none_iff _).2 other, rfl⟩

theorem optionalTextList_eq_error_iff {key : String} :
    arguments.optionalTextList key = .error fault ↔ arguments.Unmet (.textList key) fault := by
  rw [optionalTextList_eq, Outcome.map_eq_error_iff, readForm_eq_error_iff]
  constructor
  · rintro ⟨literal, has, noList, rfl⟩
    exact .keyNotTextList has ((Literal.textList?_eq_none_iff _).1 noList)
  · intro unmet
    cases unmet with
    | keyNotTextList has other => exact ⟨_, has, (Literal.textList?_eq_none_iff _).2 other, rfl⟩

theorem optionalTextMap_eq_error_iff {key : String} :
    arguments.optionalTextMap key = .error fault ↔ arguments.Unmet (.textMap key) fault := by
  rw [optionalTextMap_eq, Outcome.map_eq_error_iff, readForm_eq_error_iff]
  constructor
  · rintro ⟨literal, has, noMap, rfl⟩
    exact .keyNotTextMap has ((Literal.textMap?_eq_none_iff _).1 noMap)
  · intro unmet
    cases unmet with
    | keyNotTextMap has other => exact ⟨_, has, (Literal.textMap?_eq_none_iff _).2 other, rfl⟩

/-- Named arguments that have to be texts fail with the first one that is none. -/
theorem namedTexts_eq_error_iff {entries : List (String × Literal)} :
    entries.mapM namedText = .error fault ↔ ∃ before key literal after,
      entries = before ++ (key, literal) :: after ∧ (∀ entry ∈ before, entry.2.IsText) ∧
        ¬ literal.IsText ∧ fault = .keyNotText key := by
  have one (entry : String × Literal) (other : ArgumentFault) :
      namedText entry = .error other ↔ ¬ entry.2.IsText ∧ other = .keyNotText entry.1 := by
    rw [← Literal.text?_eq_none_iff]
    unfold namedText
    cases entry.2.text? <;> simp [eq_comm]
  have passes (entry : String × Literal) :
      (∀ other, ¬(¬ entry.2.IsText ∧ other = ArgumentFault.keyNotText entry.1)) ↔
        entry.2.IsText := by
    simp
  rw [Outcome.mapM_eq_error_iff_first, First.iff_exists_split]
  simp only [one, passes, Prod.exists]

theorem textMap_eq_error_iff :
    arguments.textMap = .error fault ↔ arguments.Unmet .mainMap fault := by
  have allNamed (nothing : arguments.positional = []) : arguments.textMap = .error fault ↔
      arguments.named.entries.mapM namedText = .error fault := by
    simp only [textMap, nothing, Outcome.bind_eq_error_iff, reduceCtorEq, and_false, exists_false,
      or_false, pure, Except.pure]
  cases main : arguments.positional with
  | nil =>
      rw [allNamed main, namedTexts_eq_error_iff]
      constructor
      · rintro ⟨before, key, literal, after, named, earlier, other, rfl⟩
        exact .namedNotText main named earlier other
      · intro unmet
        cases unmet with
        | notTextMap first _ => simp [main] at first
        | namedNotText _ named earlier other => exact ⟨_, _, _, _, named, earlier, other, rfl⟩
  | cons literal others =>
      unfold textMap
      rw [main]
      dsimp only
      constructor
      · intro fails
        split at fails
        · simp at fails
        · next noMap =>
            obtain rfl := Except.error.inj fails
            exact .notTextMap main ((Literal.textMap?_eq_none_iff _).1 noMap)
      · intro unmet
        cases unmet with
        | notTextMap first other =>
            obtain ⟨rfl, rfl⟩ := List.cons.inj (main.symm.trans first)
            simp [(Literal.textMap?_eq_none_iff _).2 other]
        | namedNotText nothing _ _ _ => exact absurd (main.symm.trans nothing) (List.cons_ne_nil _ _)

/-! ## Several readings -/

/-- A reading that fails exactly if one of some demands is broken, with the fault of the
first one. -/
def Checks {Value : Type} (arguments : Arguments) (demands : List Demand)
    (reading : Except ArgumentFault Value) : Prop :=
  ∀ fault, reading = .error fault ↔ First arguments.Unmet demands fault

/-- What reads nothing demands nothing. -/
theorem checks_ok {Value : Type} (value : Value) :
    arguments.Checks [] (.ok value) := by
  intro fault
  simp [First.not_nil]

/-- A reading with one demand comes before others. -/
theorem Checks.bind {First Last : Type} {demand : Demand} {demands : List Demand}
    {reading : Except ArgumentFault First} {onward : First → Except ArgumentFault Last}
    (one : ∀ fault, reading = .error fault ↔ arguments.Unmet demand fault)
    (others : ∀ value, arguments.Checks demands (onward value)) :
    arguments.Checks (demand :: demands) (reading >>= onward) := by
  intro fault
  rw [Outcome.First.cons_iff]
  exact Outcome.bind_eq_error_iff_or one others fault

/-- A reading whose value is changed afterwards has the same demands. -/
theorem Checks.map {Read Made : Type} {demands : List Demand}
    {reading : Except ArgumentFault Read} (checks : arguments.Checks demands reading)
    (make : Read → Made) : arguments.Checks demands (make <$> reading) :=
  fun fault => (Outcome.map_eq_error_iff make reading fault).trans (checks fault)

end Arguments

end DocblockScan
