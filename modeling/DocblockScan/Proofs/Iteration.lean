import Mathlib.Logic.Relation

/-!
# Loops turn by turn

A loop hands a state from turn to turn until it is left with a result. The relation
`Runs` is authoritative and counts the turns; a loop that is never left has no run.

`Descends` says of a size of states that every turn makes it smaller. Then there is a
run from every state, `Descends.exists_runs`, and its turns are paid for by the size,
`Descends.turns_add_le`. What a function answers is the result of all runs, if it
answers every state as the turn there does: `Runs.result_eq`. `Descends.comesTo` puts
the three together. A loop depends only on the states that it reaches: `ComesTo.congr`.
-/

namespace DocblockScan.Iteration

/-- What a loop does in a state: it stops before a turn, the turn leaves it, or the turn
hands a state to the next one. -/
inductive Turn (State Result : Type) where
  | stop (result : Result)
  | leave (result : Result)
  | again (next : State)

/-- The answer in a state, given the answers in the states after it. -/
def Turn.answer {State Result : Type} (later : State → Result) : Turn State Result → Result
  | stop result => result
  | leave result => result
  | again next => later next

/-- A loop from a state to its result, with the number of its turns. -/
inductive Runs {State Result : Type} (turn : State → Turn State Result) :
    State → Nat → Result → Prop where
  | stop {state : State} {result : Result} (stops : turn state = .stop result) :
      Runs turn state 0 result
  | leave {state : State} {result : Result} (leaves : turn state = .leave result) :
      Runs turn state 1 result
  | again {state next : State} {turns : Nat} {result : Result}
      (goesOn : turn state = .again next) (others : Runs turn next turns result) :
      Runs turn state (turns + 1) result

/-- The states that a loop hands on, a turn after another, and the one it starts from. -/
def Reaches {State Result : Type} (turn : State → Turn State Result) : State → State → Prop :=
  Relation.ReflTransGen fun state next => turn state = .again next

/-- A size of states, and of what results leave over, that every turn makes smaller. -/
structure Descends {State Result : Type} (turn : State → Turn State Result)
    (size : State → Nat) (left : Result → Nat) : Prop where
  stop : ∀ {state result}, turn state = .stop result → left result ≤ size state
  leave : ∀ {state result}, turn state = .leave result → left result < size state
  again : ∀ {state next}, turn state = .again next → size next < size state

/-- A loop comes to an answer from a state: it has a run, and every run has this answer
for its result and no more turns than the limit. -/
structure ComesTo {State Result : Type} (turn : State → Turn State Result) (state : State)
    (limit : Nat) (answer : Result) : Prop where
  halts : ∃ turns, Runs turn state turns answer
  bounded : ∀ {turns result}, Runs turn state turns result → result = answer ∧ turns ≤ limit

variable {State Result : Type} {turn other : State → Turn State Result}
variable {size : State → Nat} {left : Result → Nat} {answer : State → Result}
variable {state : State} {turns limit : Nat} {result found : Result}

/-- A function that answers every state as the turn there does gives the result of each
run. -/
theorem Runs.result_eq (follows : ∀ state, answer state = (turn state).answer answer)
    (runs : Runs turn state turns result) : result = answer state := by
  induction runs with
  | stop stops => rw [follows, stops, Turn.answer]
  | leave leaves => rw [follows, leaves, Turn.answer]
  | again goesOn _ inductionHypothesis =>
      rw [follows, goesOn, Turn.answer]
      exact inductionHypothesis

/-- A loop has at most one run from a state. -/
theorem Runs.unique {otherTurns : Nat} {otherResult : Result}
    (runs : Runs turn state turns result) (others : Runs turn state otherTurns otherResult) :
    turns = otherTurns ∧ result = otherResult := by
  induction runs generalizing otherTurns with
  | stop stops =>
      cases others with
      | stop stopsToo => exact ⟨rfl, Turn.stop.inj (stops.symm.trans stopsToo)⟩
      | leave leaves => simp [stops] at leaves
      | again goesOn _ => simp [stops] at goesOn
  | leave leaves =>
      cases others with
      | stop stops => simp [leaves] at stops
      | leave leavesToo => exact ⟨rfl, Turn.leave.inj (leaves.symm.trans leavesToo)⟩
      | again goesOn _ => simp [leaves] at goesOn
  | again goesOn _ inductionHypothesis =>
      cases others with
      | stop stops => simp [goesOn] at stops
      | leave leaves => simp [goesOn] at leaves
      | again goesOnToo tail =>
          obtain rfl := Turn.again.inj (goesOn.symm.trans goesOnToo)
          obtain ⟨rfl, rfl⟩ := inductionHypothesis tail
          exact ⟨rfl, rfl⟩

/-- A run is one of every loop with the same turns in the states that it reaches. -/
theorem Runs.congr (runs : Runs turn state turns result)
    (same : ∀ reached, Reaches turn state reached → other reached = turn reached) :
    Runs other state turns result := by
  induction runs with
  | stop stops => exact .stop ((same _ .refl).trans stops)
  | leave leaves => exact .leave ((same _ .refl).trans leaves)
  | again goesOn _ inductionHypothesis =>
      exact .again ((same _ .refl).trans goesOn)
        (inductionHypothesis fun reached steps => same reached (.head goesOn steps))

/-- What a loop comes to depends on the states that it reaches. -/
theorem ComesTo.congr (comes : ComesTo turn state limit found)
    (same : ∀ reached, Reaches turn state reached → other reached = turn reached) :
    ComesTo other state limit found := by
  obtain ⟨turns, runs⟩ := comes.halts
  have within := (comes.bounded runs).2
  refine ⟨⟨turns, runs.congr same⟩, fun others => ?_⟩
  obtain ⟨rfl, rfl⟩ := (runs.congr same).unique others
  exact ⟨rfl, within⟩

namespace Descends

/-- A loop whose turns make a size smaller has a run from every state. -/
theorem exists_runs (descends : Descends turn size left) (state : State) :
    ∃ turns result, Runs turn state turns result := by
  induction length : size state using Nat.strongRecOn generalizing state with
  | _ bound inductionHypothesis =>
      cases taken : turn state with
      | stop result => exact ⟨0, result, .stop taken⟩
      | leave result => exact ⟨1, result, .leave taken⟩
      | again next =>
          have smaller := descends.again taken
          obtain ⟨turns, result, others⟩ :=
            inductionHypothesis (size next) (length ▸ smaller) next rfl
          exact ⟨turns + 1, result, .again taken others⟩

/-- Every turn of a run costs some of the size, and the result keeps what is left. -/
theorem turns_add_le (descends : Descends turn size left)
    (runs : Runs turn state turns result) : turns + left result ≤ size state := by
  induction runs with
  | stop stops =>
      have kept := descends.stop stops
      omega
  | leave leaves =>
      have kept := descends.leave leaves
      omega
  | again goesOn _ inductionHypothesis =>
      have smaller := descends.again goesOn
      omega

/-- A loop whose turns make a size smaller comes to the answer of every function that
follows it, with the size for its limit. -/
theorem comesTo (descends : Descends turn size left)
    (follows : ∀ state, answer state = (turn state).answer answer) (state : State) :
    ComesTo turn state (size state) (answer state) where
  halts := by
    obtain ⟨turns, result, runs⟩ := descends.exists_runs state
    exact ⟨turns, runs.result_eq follows ▸ runs⟩
  bounded := by
    intro turns result runs
    have paid := descends.turns_add_le runs
    exact ⟨runs.result_eq follows, by omega⟩

end Descends

end DocblockScan.Iteration
