import Mathlib.Data.List.Forall2

/-!
# Steps that may fail

When a computation of several steps succeeds, every step of it does; when it fails, it
fails with the fault of the first step that does, and `First` says which one that is. A
computation whose steps are related to those of one that succeeds succeeds too, with a
related result.
-/

namespace DocblockScan.Outcome

variable {Fault Value Result State : Type}

/-- The fault of a step, if it fails. -/
def fault? : Except Fault Value → Option Fault
  | .error fault => some fault
  | .ok _ => none

/-- A step that is seen to succeed has a value. -/
theorem exists_of_isOk {outcome : Except Fault Value} (succeeds : outcome.isOk = true) :
    ∃ value, outcome = .ok value := by
  cases outcome with
  | ok value => exact ⟨value, rfl⟩
  | error fault => cases succeeds

/-- Two steps succeed exactly if the first one does, and then the second one. -/
theorem bind_eq_ok_iff (first : Except Fault Value) (second : Value → Except Fault Result)
    (result : Result) :
    first >>= second = .ok result ↔
      ∃ value, first = .ok value ∧ second value = .ok result := by
  cases first with
  | error fault => simp [bind, Except.bind]
  | ok value => simp [bind, Except.bind]

/-- Two steps fail with the fault of the first one, or of the second one after the first. -/
theorem bind_eq_error_iff (first : Except Fault Value) (second : Value → Except Fault Result)
    (fault : Fault) :
    first >>= second = .error fault ↔
      first = .error fault ∨ ∃ value, first = .ok value ∧ second value = .error fault := by
  cases first with
  | error other => simp [bind, Except.bind]
  | ok value => simp [bind, Except.bind]

/-- If it is known when two steps fail, and whether the second one does is independent of
the value of the first one, they fail as the second one does only if the first one does
not fail. -/
theorem bind_eq_error_iff_or {first : Except Fault Value} {second : Value → Except Fault Result}
    {early late : Fault → Prop} (failsEarly : ∀ fault, first = .error fault ↔ early fault)
    (failsLate : ∀ value fault, second value = .error fault ↔ late fault) (fault : Fault) :
    first >>= second = .error fault ↔ early fault ∨ (∀ other, ¬ early other) ∧ late fault := by
  rw [bind_eq_error_iff, failsEarly]
  refine or_congr_right ?_
  cases outcome : first with
  | error broken =>
      have failing : ¬ ∀ other, ¬ early other :=
        fun passes => passes broken ((failsEarly broken).1 outcome)
      simp [failing]
  | ok value =>
      have passes (other : Fault) : ¬ early other :=
        fun fails => by simp [(failsEarly other).2 fails] at outcome
      simp [passes, failsLate]

/-- A step whose value is changed afterwards succeeds exactly if it does without. -/
theorem map_eq_ok_iff (change : Value → Result) (outcome : Except Fault Value)
    (result : Result) :
    change <$> outcome = .ok result ↔ ∃ value, outcome = .ok value ∧ change value = result := by
  cases outcome <;> simp [Functor.map, Except.map]

/-- A step whose value is changed afterwards fails exactly as it does without. -/
theorem map_eq_error_iff (change : Value → Result) (outcome : Except Fault Value)
    (fault : Fault) : change <$> outcome = .error fault ↔ outcome = .error fault := by
  cases outcome <;> simp [Functor.map, Except.map]

/-- An outcome whose fault is reworded succeeds exactly as before. -/
theorem mapError_eq_ok_iff {Other : Type} (reword : Fault → Other)
    (outcome : Except Fault Value) (value : Value) :
    outcome.mapError reword = .ok value ↔ outcome = .ok value := by
  cases outcome <;> simp [Except.mapError]

/-- An outcome whose fault is reworded fails with the new wording. -/
theorem mapError_eq_error_iff {Other : Type} (reword : Fault → Other)
    (outcome : Except Fault Value) (other : Other) :
    outcome.mapError reword = .error other ↔ ∃ fault, outcome = .error fault ∧ reword fault = other := by
  cases outcome <;> simp [Except.mapError]

/-- An outcome is kept if it is no fault. -/
theorem toOption_eq_some_iff (outcome : Except Fault Value) (value : Value) :
    outcome.toOption = some value ↔ outcome = .ok value := by
  cases outcome <;> simp [Except.toOption]

/-- If steps have known results, all of them together have these results. -/
theorem eq_map_of_mapM {step : Value → Except Fault Result} {known : Value → Result}
    (same : ∀ value result, step value = .ok result → result = known value)
    {values : List Value} {results : List Result} (succeeds : values.mapM step = .ok results) :
    results = values.map known := by
  induction values generalizing results with
  | nil =>
      rw [List.mapM_nil] at succeeds
      exact (Except.ok.inj succeeds).symm
  | cons value rest inductionHypothesis =>
      rw [List.mapM_cons, bind_eq_ok_iff] at succeeds
      obtain ⟨result, first, succeeds⟩ := succeeds
      obtain ⟨others, second, succeeds⟩ := (bind_eq_ok_iff _ _ _).1 succeeds
      obtain rfl := Except.ok.inj succeeds
      rw [List.map_cons, same value result first, inductionHypothesis second]

/-- All steps of a list succeed exactly if each of them does. -/
theorem mapM_eq_ok_iff (step : Value → Except Fault Result) (values : List Value)
    (results : List Result) :
    values.mapM step = .ok results ↔
      List.Forall₂ (fun value result => step value = .ok result) values results := by
  induction values generalizing results with
  | nil =>
      rw [List.mapM_nil, List.forall₂_nil_left_iff]
      exact ⟨fun same => (Except.ok.inj same).symm, fun same => same ▸ rfl⟩
  | cons value rest inductionHypothesis =>
      simp only [List.mapM_cons, bind_eq_ok_iff, inductionHypothesis, List.forall₂_cons_left_iff]
      constructor
      · rintro ⟨result, first, others, second, same⟩
        exact ⟨result, others, first, second, (Except.ok.inj same).symm⟩
      · rintro ⟨result, others, first, second, rfl⟩
        exact ⟨result, first, others, second, rfl⟩

/-- The steps of a list fail exactly if one of them does after others that succeed. -/
theorem mapM_eq_error_iff (step : Value → Except Fault Result) (values : List Value)
    (fault : Fault) :
    values.mapM step = .error fault ↔
      ∃ before value after, values = before ++ value :: after ∧
        (∀ other ∈ before, ∃ result, step other = .ok result) ∧ step value = .error fault := by
  induction values with
  | nil => simp [pure, Except.pure]
  | cons first rest inductionHypothesis =>
      rw [List.mapM_cons]
      cases found : step first with
      | error other =>
          constructor
          · rintro ⟨⟩
            exact ⟨[], first, rest, rfl, nofun, found⟩
          · rintro ⟨before, value, after, split, succeed, fails⟩
            cases before with
            | nil =>
                obtain ⟨rfl, rfl⟩ := List.cons.inj split
                exact congrArg Except.error (Except.error.inj (found.symm.trans fails))
            | cons earlier more =>
                obtain ⟨rfl, -⟩ := List.cons.inj split
                obtain ⟨result, succeeds⟩ := succeed _ List.mem_cons_self
                simp [found] at succeeds
      | ok result =>
          have onward : ((do return result :: (← rest.mapM step)) : Except Fault (List Result)) =
              .error fault ↔ rest.mapM step = .error fault := by
            cases rest.mapM step <;> simp [bind, Except.bind, pure, Except.pure]
          refine onward.trans (inductionHypothesis.trans ?_)
          constructor
          · rintro ⟨before, value, after, rfl, succeed, fails⟩
            refine ⟨first :: before, value, after, rfl, ?_, fails⟩
            intro other member
            rcases List.mem_cons.1 member with rfl | member
            · exact ⟨result, found⟩
            · exact succeed other member
          · rintro ⟨before, value, after, split, succeed, fails⟩
            cases before with
            | nil =>
                obtain ⟨rfl, -⟩ := List.cons.inj split
                simp [found] at fails
            | cons earlier more =>
                obtain ⟨-, rfl⟩ := List.cons.inj split
                exact ⟨more, value, after, rfl, fun other member => succeed other (.tail _ member),
                  fails⟩

/-- The steps of lists that follow one another are taken list by list. -/
theorem mapM_flatMap {Item : Type} (step : Value → Except Fault Result)
    (make : Item → List Value) (items : List Item) :
    (items.flatMap make).mapM step = do
      return (← items.mapM fun item => (make item).mapM step).flatten := by
  induction items with
  | nil => rfl
  | cons item rest inductionHypothesis =>
      rw [List.flatMap_cons, List.mapM_append, inductionHypothesis, List.mapM_cons]
      cases (make item).mapM step with
      | error fault => rfl
      | ok results =>
          cases rest.mapM fun item => (make item).mapM step with
          | error fault => rfl
          | ok others => rfl

/-- A list has optional values exactly if each of its items has one. -/
theorem mapM_eq_some_iff (read : Value → Option Result) (values : List Value)
    (results : List Result) :
    values.mapM read = some results ↔
      List.Forall₂ (fun value result => read value = some result) values results := by
  induction values generalizing results with
  | nil => simp [eq_comm]
  | cons value rest inductionHypothesis =>
      simp only [List.mapM_cons, Option.bind_eq_bind, Option.bind_eq_some_iff,
        inductionHypothesis, List.forall₂_cons_left_iff]
      constructor
      · rintro ⟨result, first, others, second, same⟩
        exact ⟨result, others, first, second, (Option.some.inj same).symm⟩
      · rintro ⟨result, others, first, second, rfl⟩
        exact ⟨result, first, others, second, rfl⟩

/-- An optional value is missing for a list exactly if it is for one of its items. -/
theorem mapM_eq_none_iff (read : Value → Option Result) (values : List Value) :
    values.mapM read = none ↔ ∃ value ∈ values, read value = none := by
  induction values with
  | nil => simp
  | cons value rest inductionHypothesis =>
      rw [List.mapM_cons]
      cases found : read value with
      | none => simp [found]
      | some result =>
          cases others : rest.mapM read <;> simp_all

/-! ## The first failure -/

/-- The first item that fails, and why it does: the items before it do not fail. -/
inductive First {Item Fault : Type} (fails : Item → Fault → Prop) : List Item → Fault → Prop where
  | here {item : Item} {others : List Item} {fault : Fault} (found : fails item fault) :
      First fails (item :: others) fault
  | later {item : Item} {others : List Item} {fault : Fault}
      (passes : ∀ other, ¬ fails item other) (rest : First fails others fault) :
      First fails (item :: others) fault

namespace First

variable {Item Other : Type} {fails : Item → Fault → Prop} {fault : Fault}

theorem not_nil : ¬ First fails [] fault := nofun

theorem cons_iff {item : Item} {others : List Item} :
    First fails (item :: others) fault ↔
      fails item fault ∨ (∀ other, ¬ fails item other) ∧ First fails others fault := by
  constructor
  · rintro (found | ⟨passes, rest⟩)
    · exact .inl found
    · exact .inr ⟨passes, rest⟩
  · rintro (found | ⟨passes, rest⟩)
    · exact .here found
    · exact .later passes rest

/-- One of some items fails exactly if there is a first one that does. -/
theorem exists_iff {items : List Item} :
    (∃ fault, First fails items fault) ↔ ∃ item ∈ items, ∃ fault, fails item fault := by
  induction items with
  | nil => simp [not_nil]
  | cons item others inductionHypothesis =>
      by_cases found : ∃ fault, fails item fault
      · obtain ⟨fault, found⟩ := found
        exact ⟨fun _ => ⟨item, List.mem_cons_self, fault, found⟩, fun _ => ⟨fault, .here found⟩⟩
      · have passes : ∀ fault, ¬ fails item fault := not_exists.1 found
        simp only [cons_iff, passes, not_false_eq_true, implies_true, true_and, false_or,
          inductionHypothesis, List.mem_cons, exists_eq_or_imp, exists_false]

/-- The first item that fails splits the list. -/
theorem iff_exists_split {items : List Item} :
    First fails items fault ↔ ∃ before item after, items = before ++ item :: after ∧
      (∀ earlier ∈ before, ∀ other, ¬ fails earlier other) ∧ fails item fault := by
  constructor
  · intro first
    induction first with
    | here found => exact ⟨[], _, _, rfl, nofun, found⟩
    | @later item _ _ passes _ inductionHypothesis =>
        obtain ⟨before, failing, after, rfl, earlier, found⟩ := inductionHypothesis
        exact ⟨item :: before, failing, after, rfl, List.forall_mem_cons.2 ⟨passes, earlier⟩, found⟩
  · rintro ⟨before, item, after, rfl, earlier, found⟩
    induction before with
    | nil => exact .here found
    | cons other before inductionHypothesis =>
        obtain ⟨passes, earlier⟩ := List.forall_mem_cons.1 earlier
        exact .later passes (inductionHypothesis earlier)

/-- Of two lists the second one matters if nothing fails in the first one. -/
theorem append_iff {front back : List Item} :
    First fails (front ++ back) fault ↔
      First fails front fault ∨ (∀ other, ¬ First fails front other) ∧ First fails back fault := by
  induction front with
  | nil => simp [not_nil]
  | cons item others inductionHypothesis =>
      by_cases found : ∃ fault, fails item fault
      · obtain ⟨other, found⟩ := found
        have failing : ¬ ∀ fault, ¬ fails item fault := fun passes => passes other found
        simp only [List.cons_append, cons_iff, failing, false_and, or_false]
      · have passes : ∀ fault, ¬ fails item fault := not_exists.1 found
        simp only [List.cons_append, cons_iff, passes, not_false_eq_true, implies_true, true_and,
          false_or, inductionHypothesis]

/-- Which item fails first depends on which items fail, and why. -/
theorem congr {reworded : Item → Fault → Prop} {items : List Item}
    (same : ∀ item ∈ items, ∀ fault, fails item fault ↔ reworded item fault) :
    First fails items fault ↔ First reworded items fault := by
  induction items with
  | nil => simp [not_nil]
  | cons item others inductionHypothesis =>
      obtain ⟨first, rest⟩ := List.forall_mem_cons.1 same
      simp only [cons_iff, first, inductionHypothesis rest]

theorem map_iff {make : Other → Item} {items : List Other} :
    First fails (items.map make) fault ↔ First (fun item => fails (make item)) items fault := by
  induction items with
  | nil => simp [not_nil]
  | cons item others inductionHypothesis =>
      simp only [List.map_cons, cons_iff, inductionHypothesis]

theorem flatMap_iff {make : Other → List Item} {items : List Other} :
    First fails (items.flatMap make) fault ↔
      First (fun item => First fails (make item)) items fault := by
  induction items with
  | nil => simp [not_nil]
  | cons item others inductionHypothesis =>
      simp only [List.flatMap_cons, append_iff, cons_iff, inductionHypothesis]

end First

/-- The steps of a list fail with the fault of the first one that fails. -/
theorem mapM_eq_error_iff_first (step : Value → Except Fault Result) (values : List Value)
    (fault : Fault) :
    values.mapM step = .error fault ↔
      First (fun value other => step value = .error other) values fault := by
  have passes : ∀ value, (∀ other, step value ≠ .error other) ↔ ∃ result, step value = .ok result := by
    intro value
    cases step value <;> simp
  rw [mapM_eq_error_iff, First.iff_exists_split]
  simp only [← ne_eq, passes]

/-! ## Related computations -/

/-- Lists with the same step for every item have the same result. -/
theorem mapM_congr {Other : Type} {step : Value → Except Fault Result}
    {otherStep : Other → Except Fault Result} {values : List Value} {others : List Other}
    (same : List.Forall₂ (fun value other => step value = otherStep other) values others) :
    values.mapM step = others.mapM otherStep := by
  induction same with
  | nil => rfl
  | cons first _ inductionHypothesis => rw [List.mapM_cons, List.mapM_cons, first, inductionHypothesis]

/-- Where every step has a related one, all steps of a list together have. -/
theorem exists_mapM {relates : Result → Result → Prop} {old new : Value → Except Fault Result}
    {values : List Value} {results : List Result}
    (steps : ∀ value ∈ values, ∀ result, old value = .ok result →
      ∃ other, new value = .ok other ∧ relates other result)
    (succeeds : values.mapM old = .ok results) :
    ∃ others, values.mapM new = .ok others ∧ List.Forall₂ relates others results := by
  induction values generalizing results with
  | nil =>
      rw [List.mapM_nil] at succeeds ⊢
      obtain rfl := Except.ok.inj succeeds
      exact ⟨[], rfl, .nil⟩
  | cons value rest inductionHypothesis =>
      rw [List.mapM_cons, bind_eq_ok_iff] at succeeds
      obtain ⟨result, first, succeeds⟩ := succeeds
      obtain ⟨results, second, succeeds⟩ := (bind_eq_ok_iff _ _ _).1 succeeds
      obtain rfl := Except.ok.inj succeeds
      obtain ⟨other, firstOther, related⟩ := steps value List.mem_cons_self result first
      obtain ⟨others, secondOthers, allRelated⟩ :=
        inductionHypothesis (fun value member => steps value (.tail _ member)) second
      refine ⟨other :: others, ?_, .cons related allRelated⟩
      rw [List.mapM_cons, firstOther, secondOthers]
      rfl

/-- Where every step has a related one from related states, all steps of a list one
after the other have. -/
theorem exists_foldlM {relates : State → State → Prop}
    {old new : State → Value → Except Fault State}
    (steps : ∀ other state value next, relates other state → old state value = .ok next →
      ∃ following, new other value = .ok following ∧ relates following next)
    {values : List Value} {other state last : State} (related : relates other state)
    (succeeds : values.foldlM old state = .ok last) :
    ∃ final, values.foldlM new other = .ok final ∧ relates final last := by
  induction values generalizing other state with
  | nil =>
      rw [List.foldlM_nil] at succeeds ⊢
      obtain rfl := Except.ok.inj succeeds
      exact ⟨other, rfl, related⟩
  | cons value rest inductionHypothesis =>
      rw [List.foldlM_cons, bind_eq_ok_iff] at succeeds
      obtain ⟨next, first, succeeds⟩ := succeeds
      obtain ⟨following, firstOther, relatedNext⟩ := steps other state value next related first
      obtain ⟨final, secondOther, relatedLast⟩ := inductionHypothesis relatedNext succeeds
      refine ⟨final, ?_, relatedLast⟩
      rw [List.foldlM_cons, firstOther]
      exact secondOther

end DocblockScan.Outcome
