import DocblockScan.Proofs.Docblock.Grammar
import DocblockScan.Proofs.OrderedMap

/-!
# From items to arguments

The items of a list are added one after the other. They can all be added exactly
if no key comes back, and then they stand for the arguments that the grammar says:
`addItems_eq_ok_iff` for any arguments to start with, `addItems_none_iff` for none.
-/

namespace DocblockScan.Docblock.Grammar

/-- Arguments are equal if they list the same literals and the same names. -/
theorem arguments_ext {left right : Arguments} (positional : left.positional = right.positional)
    (named : left.named.entries = right.named.entries) : left = right := by
  cases left
  cases right
  obtain rfl := positional
  obtain rfl := OrderedMap.ext named
  rfl

/-- Add the items of a list to some arguments, one after the other. -/
def addItems (known : Arguments) (items : List (Option String × Literal)) :
    Except Fault Arguments :=
  items.foldlM (fun known item => Arguments.add? known item.1 item.2) known

@[simp] theorem addItems_nil (known : Arguments) : addItems known [] = .ok known := rfl

theorem addItems_cons (known : Arguments) (item : Option String × Literal)
    (others : List (Option String × Literal)) :
    addItems known (item :: others) =
      match Arguments.add? known item.1 item.2 with
      | .error fault => .error fault
      | .ok grown => addItems grown others := by
  simp only [addItems, List.foldlM_cons]
  cases Arguments.add? known item.1 item.2 <;> rfl

/-- Items are added exactly if no key occurs twice, among them or among what is there
already; then they follow what is there. -/
theorem addItems_eq_ok_iff (known arguments : Arguments)
    (items : List (Option String × Literal)) :
    addItems known items = .ok arguments ↔
      (known.named.keys ++ keysOf items).Nodup ∧
        arguments.positional = known.positional ++ positionalOf items ∧
        arguments.named.entries = known.named.entries ++ namedOf items := by
  induction items generalizing known with
  | nil =>
      rw [addItems_nil]
      constructor
      · intro same
        obtain rfl := Except.ok.inj same
        exact ⟨by simpa [keysOf, OrderedMap.keys] using known.named.distinct, by simp [positionalOf],
          by simp [namedOf]⟩
      · rintro ⟨-, positional, named⟩
        exact congrArg Except.ok (arguments_ext (by simpa [positionalOf] using positional.symm)
          (by simpa [namedOf] using named.symm))
  | cons item others inductionHypothesis =>
      obtain ⟨key, literal⟩ := item
      rw [addItems_cons]
      cases key with
      | none =>
          simp only [Arguments.add?, inductionHypothesis]
          simp [keysOf, positionalOf, namedOf]
      | some key =>
          by_cases known? : key ∈ known.named.keys
          · have present := (OrderedMap.contains_iff known.named key).2 known?
            simp only [Arguments.add?, present, if_true]
            constructor
            · intro same
              simp at same
            · rintro ⟨distinct, -⟩
              exact absurd rfl ((List.nodup_append.1 distinct).2.2 key known? key
                (by simp [keysOf]))
          · have absent : known.named.contains key = false := by
              by_contra present
              exact known? ((OrderedMap.contains_iff _ _).1 (by simpa using present))
            have entries := OrderedMap.entries_insert_of_not_mem known? literal
            have keys : (known.named.insert key literal).keys = known.named.keys ++ [key] := by
              simp [OrderedMap.keys, entries]
            simp only [Arguments.add?, absent, Bool.false_eq_true, if_false,
              inductionHypothesis, entries, keys]
            simp [keysOf, positionalOf, namedOf]

/-- Items that are added to nothing stand for the arguments that the grammar says. -/
theorem addItems_none_iff (items : List (Option String × Literal)) (arguments : Arguments) :
    addItems .none items = .ok arguments ↔ Collects items arguments := by
  rw [addItems_eq_ok_iff]
  constructor
  · rintro ⟨distinct, positional, named⟩
    exact ⟨distinct, positional, named⟩
  · rintro ⟨distinct, positional, named⟩
    exact ⟨distinct, positional, named⟩

end DocblockScan.Docblock.Grammar
