import DocblockScan.Text.Blank

/-!
# Letters and digits by their codes

The letters and digits are ranges of character codes, so arithmetic decides whether
two kinds of characters have one in common. `toLower_eq_iff` says that putting a text
into small letters moves no character onto a mark.
-/

namespace DocblockScan.Text

variable {char : Char}

theorem isUpper_iff : char.isUpper = true ↔ 65 ≤ char.toNat ∧ char.toNat ≤ 90 := by
  have spelled : char.isUpper = decide (65 ≤ char.val ∧ char.val ≤ 90) := rfl
  rw [spelled, decide_eq_true_eq, UInt32.le_iff_toNat_le, UInt32.le_iff_toNat_le]
  rfl

theorem isLower_iff : char.isLower = true ↔ 97 ≤ char.toNat ∧ char.toNat ≤ 122 := by
  have spelled : char.isLower = (decide (97 ≤ char.val) && decide (char.val ≤ 122)) := rfl
  rw [spelled, Bool.and_eq_true, decide_eq_true_eq, decide_eq_true_eq,
    UInt32.le_iff_toNat_le, UInt32.le_iff_toNat_le]
  rfl

theorem isDigit_iff : char.isDigit = true ↔ 48 ≤ char.toNat ∧ char.toNat ≤ 57 := by
  have spelled : char.isDigit = (decide (48 ≤ char.val) && decide (char.val ≤ 57)) := rfl
  rw [spelled, Bool.and_eq_true, decide_eq_true_eq, decide_eq_true_eq,
    UInt32.le_iff_toNat_le, UInt32.le_iff_toNat_le]
  rfl

theorem isAlpha_iff : char.isAlpha = true ↔ char.isUpper = true ∨ char.isLower = true :=
  Bool.or_eq_true_iff

theorem isAlphanum_iff : char.isAlphanum = true ↔ char.isAlpha = true ∨ char.isDigit = true :=
  Bool.or_eq_true_iff

/-! ## Small letters -/

/-- The small form of a capital letter stands 32 codes further on. -/
theorem toNat_toLower (upper : char.isUpper = true) : char.toLower.toNat = char.toNat + 32 := by
  obtain ⟨above, below⟩ := isUpper_iff.1 upper
  have moved : char.toLower.val = char.val + 32 :=
    congrArg Char.val (dif_pos (of_decide_eq_true upper))
  calc char.toLower.toNat = (char.val + 32).toNat := congrArg UInt32.toNat moved
    _ = (char.toNat + 32) % 2 ^ 32 := UInt32.toNat_add _ _
    _ = char.toNat + 32 := Nat.mod_eq_of_lt (by omega)

/-- Every other character is its own small form. -/
theorem toLower_eq_self (plain : char.isUpper = false) : char.toLower = char :=
  dif_neg (of_decide_eq_false plain)

/-- A character is a letter if its small form is one. -/
theorem isAlpha_of_isAlpha_toLower (letter : char.toLower.isAlpha = true) :
    char.isAlpha = true := by
  cases upper : char.isUpper with
  | true => exact isAlpha_iff.2 (.inl upper)
  | false => rwa [toLower_eq_self upper] at letter

/-- Only the character itself becomes a character that is no letter. -/
theorem toLower_eq_iff {mark : Char} (noLetter : mark.isAlpha = false) :
    char.toLower = mark ↔ char = mark := by
  cases upper : char.isUpper with
  | false => rw [toLower_eq_self upper]
  | true =>
      -- Both sides are wrong: the capital letter and its small form are letters.
      obtain ⟨above, below⟩ := isUpper_iff.1 upper
      have moved := toNat_toLower upper
      constructor
      · rintro rfl
        have low : char.toLower.isLower = true := isLower_iff.2 (by omega)
        rw [isAlpha_iff.2 (.inr low)] at noLetter
        contradiction
      · rintro rfl
        rw [isAlpha_iff.2 (.inl upper)] at noLetter
        contradiction

/-- A letter is no digit. -/
theorem not_isDigit_of_isAlpha (letter : char.isAlpha = true) : char.isDigit = false := by
  rw [isAlpha_iff, isUpper_iff, isLower_iff] at letter
  rw [Bool.eq_false_iff, ne_eq, isDigit_iff]
  omega

end DocblockScan.Text
