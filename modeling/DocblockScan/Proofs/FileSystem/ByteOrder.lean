import DocblockScan.Proofs.FileSystem.Walk
import Mathlib.Algebra.Group.Nat.Defs

/-!
# The byte order of names

A file system stores names as bytes and sorts them by these. `sortsBefore` compares the
characters of names, and that comes to the same, because a character with a greater code
has greater bytes in UTF-8: `sortsBefore_iff_nameBytes`.
-/

namespace DocblockScan.FileSystem

/-- The bytes that a name is stored as. -/
def nameBytes (name : String) : List UInt8 :=
  name.toUTF8.data.toList

theorem nameBytes_eq_flatMap (name : String) :
    nameBytes name = name.toList.flatMap String.utf8EncodeChar := by
  have encoded : name.toUTF8 = (name.toList.flatMap String.utf8EncodeChar).toByteArray := by
    change name.toByteArray = name.toList.utf8Encode
    rw [← String.toByteArray_ofList, String.ofList_toList]
  rw [nameBytes, encoded, List.toList_data_toByteArray]

/-! ## The bytes of a character -/

/-- Bytes are compared as the numbers that they are made from. -/
theorem ofNat_cons_lt {low high : Nat} {left right : List UInt8} (bound : high < 256)
    (less : low < high ∨ low = high ∧ left < right) :
    UInt8.ofNat low :: left < UInt8.ofNat high :: right := by
  rw [List.cons_lt_cons_iff]
  rcases less with less | ⟨rfl, less⟩
  · left
    rwa [UInt8.lt_iff_toNat_lt, UInt8.toNat_ofNat_of_lt' (Nat.lt_trans less bound),
      UInt8.toNat_ofNat_of_lt' bound]
  · exact .inr ⟨rfl, less⟩

/-- How many bytes follow the first one. -/
def trailingCount (code : Nat) : Nat :=
  if code ≤ 127 then 0 else if code ≤ 2047 then 1 else if code ≤ 65535 then 2 else 3

/-- The mark of a first byte, by the number of bytes that follow. It leaves room for the
first digit below the next mark. -/
def leadMark (count : Nat) : Nat :=
  if count = 0 then 0
  else if count = 1 then 192
  else if count = 2 then 224
  else if count = 3 then 240
  else 248

/-- The first byte, as a number. -/
def leadByte (code : Nat) : Nat :=
  code / 64 ^ trailingCount code + leadMark (trailingCount code)

/-- The bytes that follow: the last digits of the code to the base 64, each with a mark. -/
def trailingBytes (code : Nat) : Nat → List UInt8
  | 0 => []
  | count + 1 => UInt8.ofNat (code / 64 ^ count % 64 + 128) :: trailingBytes code count

/-- No code takes more than four bytes. -/
theorem code_lt (char : Char) : char.toNat < 0x110000 := by
  rcases char.valid with small | ⟨-, small⟩
  · exact Nat.lt_trans small (by decide)
  · exact small

/-- A character is encoded as a first byte and the bytes that follow. -/
theorem utf8EncodeChar_eq (char : Char) :
    String.utf8EncodeChar char =
      UInt8.ofNat (leadByte char.toNat) :: trailingBytes char.toNat (trailingCount char.toNat) := by
  have valid := code_lt char
  have sameCode : char.val.toNat = char.toNat := rfl
  unfold String.utf8EncodeChar
  rw [sameCode]
  generalize char.toNat = code at valid
  dsimp only [leadByte, trailingCount]
  split
  · simp [leadMark, trailingBytes]
  split
  · have digit : code / 64 % 32 = code / 64 := by omega
    simp [leadMark, trailingBytes, digit]
  split
  · have digit : code / 4096 % 16 = code / 4096 := by omega
    simp [leadMark, trailingBytes, digit]
  · have digit : code / 262144 % 8 = code / 262144 := by omega
    simp [leadMark, trailingBytes, digit]

/-- A first byte lies between the marks for as many bytes and for more bytes. -/
theorem leadByte_bounds {code : Nat} (valid : code < 0x110000) :
    leadMark (trailingCount code) ≤ leadByte code ∧
      leadByte code < leadMark (trailingCount code + 1) := by
  refine ⟨Nat.le_add_left _ _, ?_⟩
  unfold leadByte trailingCount
  split
  · simp [leadMark]
    omega
  split
  · simp [leadMark]
    omega
  split
  · simp [leadMark]
    omega
  · simp [leadMark]
    omega

theorem trailingCount_mono {low high : Nat} (less : low ≤ high) :
    trailingCount low ≤ trailingCount high := by
  unfold trailingCount
  split_ifs <;> omega

theorem leadMark_mono {fewer more : Nat} (less : fewer ≤ more) :
    leadMark fewer ≤ leadMark more := by
  unfold leadMark
  split_ifs <;> omega

theorem leadMark_le (count : Nat) : leadMark count ≤ 248 := by
  unfold leadMark
  split_ifs <;> omega

/-- The bytes that follow are compared as the digits are. -/
theorem trailingBytes_append_lt {low high count : Nat} (less : low % 64 ^ count < high % 64 ^ count)
    (left right : List UInt8) :
    trailingBytes low count ++ left < trailingBytes high count ++ right := by
  induction count with
  | zero => simp [Nat.mod_one] at less
  | succ count inductionHypothesis =>
      refine ofNat_cons_lt (by omega) ?_
      rw [Nat.mod_pow_succ, Nat.mod_pow_succ] at less
      rcases Nat.lt_trichotomy (low / 64 ^ count % 64) (high / 64 ^ count % 64) with
        before | same | after
      · exact .inl (by omega)
      · rw [same] at less
        exact .inr ⟨by rw [same], inductionHypothesis (by omega)⟩
      · -- The digits that follow cannot make up for a greater digit.
        have room : low % 64 ^ count < 64 ^ count := Nat.mod_lt _ (Nat.pow_pos (by decide))
        have carry := Nat.mul_le_mul_left (64 ^ count) after
        rw [Nat.mul_succ] at carry
        omega

/-- A character with a greater code has greater bytes: more of them, which shows in the
first one, or as many with a greater digit. -/
theorem utf8EncodeChar_append_lt {low high : Char} (less : low.toNat < high.toNat)
    (left right : List UInt8) :
    String.utf8EncodeChar low ++ left < String.utf8EncodeChar high ++ right := by
  obtain ⟨-, below⟩ := leadByte_bounds (code_lt low)
  obtain ⟨above, bound⟩ := leadByte_bounds (code_lt high)
  have byte := Nat.lt_of_lt_of_le bound (leadMark_le _)
  rw [utf8EncodeChar_eq, utf8EncodeChar_eq]
  refine ofNat_cons_lt (by omega) ?_
  rcases Nat.lt_or_eq_of_le (trailingCount_mono (Nat.le_of_lt less)) with more | same
  · exact .inl (Nat.lt_of_lt_of_le below (Nat.le_trans (leadMark_mono more) above))
  · rw [leadByte, leadByte, same]
    have digits := Nat.div_le_div_right (c := 64 ^ trailingCount high.toNat) (Nat.le_of_lt less)
    rcases Nat.lt_or_eq_of_le digits with upper | equal
    · exact .inl (by omega)
    · refine .inr ⟨by rw [equal], trailingBytes_append_lt ?_ _ _⟩
      have low := Nat.div_add_mod low.toNat (64 ^ trailingCount high.toNat)
      have high := Nat.div_add_mod high.toNat (64 ^ trailingCount high.toNat)
      rw [equal] at low
      omega

/-! ## The bytes of a name -/

/-- Characters in order have bytes in order. -/
theorem flatMap_utf8EncodeChar_lt {left right : List Char} (different : left ≠ right)
    (before : sortsBefore left right = true) :
    left.flatMap String.utf8EncodeChar < right.flatMap String.utf8EncodeChar := by
  induction left generalizing right with
  | nil =>
      obtain ⟨first, rest, rfl⟩ := List.exists_cons_of_ne_nil (Ne.symm different)
      rw [List.flatMap_cons, utf8EncodeChar_eq]
      exact List.nil_lt_cons _ _
  | cons first rest inductionHypothesis =>
      cases right with
      | nil => simp [sortsBefore] at before
      | cons other others =>
          simp only [sortsBefore, Bool.or_eq_true, Bool.and_eq_true, decide_eq_true_eq,
            beq_iff_eq] at before
          rw [List.flatMap_cons, List.flatMap_cons]
          rcases before with less | ⟨same, before⟩
          · exact utf8EncodeChar_append_lt less _ _
          · obtain rfl := Char.toNat_inj.1 same
            exact List.append_left_lt (inductionHypothesis (by simpa using different) before)

/-- Of two names the one that sorts first has the smaller bytes. -/
theorem sortsBefore_iff_nameBytes {left right : String} (different : left ≠ right) :
    sortsBefore left.toList right.toList = true ↔ nameBytes left < nameBytes right := by
  have increases : ∀ {left right : String}, left ≠ right →
      sortsBefore left.toList right.toList = true → nameBytes left < nameBytes right := by
    intro left right different before
    rw [nameBytes_eq_flatMap, nameBytes_eq_flatMap]
    exact flatMap_utf8EncodeChar_lt (mt String.toList_inj.1 different) before
  refine ⟨increases different, fun less => ?_⟩
  rcases Bool.or_eq_true _ _ ▸ sortsBefore_total left.toList right.toList with before | after
  · exact before
  · exact absurd (increases (Ne.symm different) after) (List.lt_asymm less)

end DocblockScan.FileSystem
