import DocblockScan.Proofs.Docblock.ItemRules
import DocblockScan.Proofs.Docblock.Lockstep

/-!
# Texts that differ in one string

Two texts that differ in the content of one string only are read in step: every reader
takes the same from both, until it has read the string. `Parallel` relates the texts and
`InStep` what has been read of them; here each reader of a lexeme has one lemma that it
keeps in step.
-/

namespace DocblockScan.Docblock.Grammar

/-! ## One string replaced -/

mutual

/-- Literals that differ in one string: in itself, or in an entry of an array. -/
inductive LiteralReplaced (old new : String) : Literal → Literal → Prop where
  | string : LiteralReplaced old new (.string old) (.string new)
  | array {front back : List (Option String × Literal)} {item changed : Option String × Literal}
      (entry : ItemReplaced old new .entries item changed) :
      LiteralReplaced old new (.array (front ++ item :: back)) (.array (front ++ changed :: back))

/-- Items that differ in one string: in the value, or in the key of an entry. -/
inductive ItemReplaced (old new : String) :
    ListKind → Option String × Literal → Option String × Literal → Prop where
  | value {kind : ListKind} {key : Option String} {literal changed : Literal}
      (differs : LiteralReplaced old new literal changed) :
      ItemReplaced old new kind (key, literal) (key, changed)
  | key {literal : Literal} : ItemReplaced old new .entries (some old, literal) (some new, literal)

end

/-- Arguments that differ in one string of one literal: of one without a name, or of one
that keeps its name. -/
inductive ArgumentsReplaced (old new : String) : Arguments → Arguments → Prop where
  | positional {front back : List Literal} {literal changed : Literal}
      {named : OrderedMap String Literal} (differs : LiteralReplaced old new literal changed) :
      ArgumentsReplaced old new ⟨front ++ literal :: back, named⟩ ⟨front ++ changed :: back, named⟩
  | named {positional : List Literal} {before after : OrderedMap String Literal}
      {front back : List (String × Literal)} {key : String} {literal changed : Literal}
      (entries : before.entries = front ++ (key, literal) :: back)
      (changedEntries : after.entries = front ++ (key, changed) :: back)
      (differs : LiteralReplaced old new literal changed) :
      ArgumentsReplaced old new ⟨positional, before⟩ ⟨positional, after⟩

/-! ## Texts in step -/

/-- Two texts that are the same but for the content of one string, which is followed by
some text. Before the string there are whole strings and other characters. -/
inductive Parallel (old new tail : List Char) : List Char → List Char → Prop where
  | here : Parallel old new tail (quoted old ++ tail) (quoted new ++ tail)
  | char {char : Char} {left right : List Char} (plain : char ≠ '"')
      (others : Parallel old new tail left right) :
      Parallel old new tail (char :: left) (char :: right)
  | string {content left right : List Char} (longest : left.head? ≠ some '"')
      (others : Parallel old new tail left right) :
      Parallel old new tail (quoted content ++ left) (quoted content ++ right)

/-- What was read of two texts: the same value before the string, or values that differ in
the string and the same text after it. -/
inductive InStep {Value : Type} (replaced : Value → Value → Prop) (old new tail : List Char) :
    Value × List Char → Value × List Char → Prop where
  | ahead {value : Value} {left right : List Char} (parallel : Parallel old new tail left right) :
      InStep replaced old new tail (value, left) (value, right)
  | behind {value changed : Value} {rest : List Char} (differs : replaced value changed) :
      InStep replaced old new tail (value, rest) (changed, rest)

variable {old new tail left right : List Char}

namespace Parallel

/-- Both texts start with a quote, or with another character before two such texts. -/
theorem uncons (parallel : Parallel old new tail left right) :
    (∃ l r, left = '"' :: l ∧ right = '"' :: r) ∨
      ∃ char l r, char ≠ '"' ∧ left = char :: l ∧ right = char :: r ∧
        Parallel old new tail l r := by
  cases parallel with
  | here => exact .inl ⟨_, _, rfl, rfl⟩
  | char plain others => exact .inr ⟨_, _, _, plain, rfl, rfl, others⟩
  | string _ _ => exact .inl ⟨_, _, rfl, rfl⟩

/-- A character other than a quote stands in both texts. -/
theorem of_cons {char : Char} {rest : List Char} (parallel : Parallel old new tail left right)
    (plain : char ≠ '"') (starts : left = char :: rest) :
    ∃ others, right = char :: others ∧ Parallel old new tail rest others := by
  rcases parallel.uncons with ⟨_, _, rfl, -⟩ | ⟨first, l, r, -, rfl, rfl, others⟩
  · exact absurd (List.cons.inj starts).1.symm plain
  · obtain ⟨rfl, rfl⟩ := List.cons.inj starts
    exact ⟨r, rfl, others⟩

/-- Both texts start with the same character. -/
theorem head?_eq (parallel : Parallel old new tail left right) : left.head? = right.head? := by
  rcases parallel.uncons with ⟨l, r, rfl, rfl⟩ | ⟨char, l, r, -, rfl, rfl, -⟩ <;> rfl

/-- What one text does not start with the other one does not start with either. -/
theorem ne_cons {char : Char} (parallel : Parallel old new tail left right)
    (other : ∀ rest, left ≠ char :: rest) (rest : List Char) : right ≠ char :: rest := by
  rintro rfl
  obtain ⟨others, same⟩ := List.head?_eq_some_iff.1 parallel.head?_eq
  exact other others same

/-- The string is still to come. -/
theorem length_lt (parallel : Parallel old new tail left right) : tail.length < left.length := by
  induction parallel with
  | here =>
      simp only [quoted, List.cons_append, List.length_cons, List.length_append]
      omega
  | char _ _ inductionHypothesis =>
      rw [List.length_cons]
      omega
  | string _ _ inductionHypothesis =>
      rw [List.length_append]
      omega

/-- The texts are read in step up to a quote. -/
theorem lockstep :
    Lockstep (fun text => ∃ rest, text = '"' :: rest) (Parallel old new tail) where
  uncons parallel := by
    rcases parallel.uncons with ⟨l, r, rfl, rfl⟩ | ⟨char, l, r, -, rfl, rfl, others⟩
    · exact .inl ⟨⟨l, rfl⟩, r, rfl⟩
    · exact .inr ⟨char, l, r, rfl, rfl, others⟩
  apart := by
    rintro _ ⟨rest, rfl⟩ char first
    obtain rfl := Option.some.inj first
    decide

/-- A run of characters other than quotes is the same in both texts. -/
theorem span {takes : Char → Bool} (parallel : Parallel old new tail left right)
    (stops : takes '"' = false) :
    left.takeWhile takes = right.takeWhile takes ∧
      Parallel old new tail (left.dropWhile takes) (right.dropWhile takes) := by
  refine lockstep.span ?_ parallel
  rintro _ ⟨rest, rfl⟩ char first
  obtain rfl := Option.some.inj first
  exact stops

/-- Blanks are skipped in both texts. -/
theorem skipBlanks (parallel : Parallel old new tail left right) :
    Parallel old new tail (Text.skipBlanks left) (Text.skipBlanks right) :=
  (parallel.span (show Text.isBlank '"' = false by decide)).2

/-- The same name is read from both texts. -/
theorem spanName (parallel : Parallel old new tail left right) :
    (spanName left).1 = (spanName right).1 ∧
      Parallel old new tail (spanName left).2 (spanName right).2 :=
  lockstep.spanName parallel

/-- A separator stands in both texts or in none of them. -/
theorem afterSeparator? {separators : List Char} (noQuote : '"' ∉ separators)
    (parallel : Parallel old new tail left right) :
    (afterSeparator? separators left = none ∧ afterSeparator? separators right = none) ∨
      ∃ l r, afterSeparator? separators left = some l ∧
        afterSeparator? separators right = some r ∧ Parallel old new tail l r := by
  unfold Docblock.afterSeparator?
  rcases parallel.skipBlanks.uncons with ⟨l, r, left, right⟩ | ⟨char, l, r, -, left, right, others⟩
  · simp [left, right, noQuote]
  · by_cases separates : char ∈ separators
    · simp [left, right, separates, others]
    · simp [left, right, separates]

/-- The same number is read from both texts. -/
theorem spanNumeral (parallel : Parallel old new tail left right) :
    (spanNumeral left).1 = (spanNumeral right).1 ∧
      Parallel old new tail (spanNumeral left).2 (spanNumeral right).2 :=
  lockstep.spanNumeral parallel

/-- A string or a whole number, word or constant is read from both texts. -/
theorem readScalar {literal : Literal} {rest : List Char}
    (longest : tail.head? ≠ some '"') (parallel : Parallel old new tail left right)
    (read : readScalar left = .ok (literal, rest)) :
    ∃ found, readScalar right = .ok found ∧
      InStep (LiteralReplaced (.ofList old) (.ofList new)) old new tail (literal, rest) found := by
  cases parallel with
  | here =>
      rw [readScalar_quoted old longest] at read
      obtain ⟨rfl, rfl⟩ := Prod.mk.inj (Except.ok.inj read)
      exact ⟨_, readScalar_quoted new longest, .behind .string⟩
  | string longestToo others =>
      rw [readScalar_quoted _ longestToo] at read
      obtain ⟨rfl, rfl⟩ := Prod.mk.inj (Except.ok.inj read)
      exact ⟨_, readScalar_quoted _ (others.head?_eq ▸ longestToo), .ahead others⟩
  | @char char left right plain others =>
      have parallel : Parallel old new tail (char :: left) (char :: right) := .char plain others
      by_cases number : char = '-' ∨ char.isDigit = true
      · obtain ⟨same, rests⟩ := parallel.spanNumeral
        rw [readScalar_of_startsNumber number] at read ⊢
        rw [← same]
        split at read
        · next meaning =>
            obtain ⟨rfl, rfl⟩ := Prod.mk.inj (Except.ok.inj read)
            exact ⟨_, rfl, .ahead rests⟩
        · simp at read
      · by_cases starts : startsName char = true
        · obtain ⟨same, rests⟩ := parallel.spanName
          rw [readScalar_of_startsName starts] at read ⊢
          rw [← same]
          split at read
          · next meaning =>
              obtain ⟨rfl, rfl⟩ := Prod.mk.inj (Except.ok.inj read)
              exact ⟨_, rfl, .ahead rests⟩
          · simp at read
        · exfalso
          simp only [not_or, Bool.not_eq_true] at number
          simp only [Docblock.readScalar, plain, number, starts, decide_false, Bool.or_false,
            Bool.false_eq_true, if_false] at read
          split at read <;> simp at read

end Parallel

/-- Keys that differ in being the string; only entries of arrays have such keys. -/
inductive KeyReplaced {Key : Type} (old new : Key) : ListKind → Option Key → Option Key → Prop where
  | string : KeyReplaced old new .entries (some old) (some new)

namespace Parallel

/-- A candidate for a key is read from both texts or from none. -/
theorem spanKey {kind : ListKind} {candidate : Option (List Char × List Char)}
    (longest : tail.head? ≠ some '"') (parallel : Parallel old new tail left right)
    (read : spanKey kind left = .ok candidate) :
    (candidate = none ∧ spanKey kind right = .ok none) ∨
      ∃ key rest found, candidate = some (key, rest) ∧ spanKey kind right = .ok (some found) ∧
        InStep (fun key other => KeyReplaced old new kind (some key) (some other)) old new tail
          (key, rest) found := by
  have ofName : ∀ {name rest : List Char}, Docblock.spanName left = (name, rest) →
      InStep (fun key other => KeyReplaced old new kind (some key) (some other)) old new tail
        (name, rest) (Docblock.spanName right) := by
    intro name rest taken
    obtain ⟨same, rests⟩ := parallel.spanName
    rw [taken] at same rests
    rw [← Prod.eta (Docblock.spanName right), ← same]
    exact .ahead rests
  cases kind with
  | arguments =>
      obtain rfl := Except.ok.inj read
      simp only [Grammar.spanKey, parallel.head?_eq]
      by_cases letter : right.head?.any isLetter = true
      · refine .inr ⟨_, _, _, if_pos letter, by rw [if_pos letter], ofName rfl⟩
      · exact .inl (by simp [letter])
  | entries =>
      have ofString : ∀ {content after : List Char}, after.head? ≠ some '"' →
          Grammar.spanKey .entries (quoted content ++ after) = .ok (some (content, after)) :=
        fun longest => spanKey_of_keyText (.string longest)
      cases parallel with
      | here =>
          rw [ofString longest] at read
          obtain rfl := Except.ok.inj read
          exact .inr ⟨_, _, _, rfl, ofString longest, .behind .string⟩
      | string longestToo others =>
          rw [ofString longestToo] at read
          obtain rfl := Except.ok.inj read
          exact .inr ⟨_, _, _, rfl, ofString (others.head?_eq ▸ longestToo), .ahead others⟩
      | @char char left right plain others =>
          have parallel : Parallel old new tail (char :: left) (char :: right) :=
            .char plain others
          simp only [Grammar.spanKey, spanEntryKeyText, plain, if_false] at read ⊢
          by_cases letter : isLetter char = true
          · simp only [letter, if_true] at read ⊢
            obtain rfl := Except.ok.inj read
            exact .inr ⟨_, _, _, rfl, rfl, ofName rfl⟩
          · by_cases isDigit : char.isDigit = true
            · simp only [letter, isDigit, if_true] at read ⊢
              obtain rfl := Except.ok.inj read
              obtain ⟨same, rests⟩ := parallel.span (show Char.isDigit '"' = false by decide)
              rw [same]
              exact .inr ⟨_, _, _, rfl, rfl, .ahead rests⟩
            · simp only [letter, isDigit] at read ⊢
              obtain rfl := Except.ok.inj read
              exact .inl ⟨rfl, rfl⟩

/-- A key is read from both texts or from none. -/
theorem readKey {kind : ListKind} {key : Option String} {rest : List Char}
    (longest : tail.head? ≠ some '"') (parallel : Parallel old new tail left right)
    (read : readKey kind left = .ok (key, rest)) :
    ∃ found, readKey kind right = .ok found ∧
      InStep (KeyReplaced (.ofList old) (.ofList new) kind) old new tail (key, rest) found := by
  have noQuote : '"' ∉ kind.separators := by cases kind <;> decide
  rw [readKey_eq] at read ⊢
  split at read
  · simp at read
  · next noKey =>
      rcases parallel.spanKey longest noKey with ⟨-, noKeyToo⟩ | ⟨_, _, _, isKey, -⟩
      · obtain ⟨rfl, rfl⟩ := Prod.mk.inj (Except.ok.inj read)
        rw [noKeyToo]
        exact ⟨_, rfl, .ahead parallel⟩
      · simp at isKey
  · next content after isKey =>
      rcases parallel.spanKey longest isKey with ⟨noKey, -⟩ | ⟨_, _, found, same, isKeyToo, inStep⟩
      · simp at noKey
      obtain ⟨rfl, rfl⟩ := Prod.mk.inj (Option.some.inj same)
      rw [isKeyToo]
      cases inStep with
      | ahead parallelAfter =>
          rcases parallelAfter.afterSeparator? noQuote with ⟨none, noneToo⟩ | ⟨l, r, one, oneToo, rests⟩
          · simp only [none] at read
            obtain ⟨rfl, rfl⟩ := Prod.mk.inj (Except.ok.inj read)
            simp only [noneToo]
            exact ⟨_, rfl, .ahead parallel⟩
          · simp only [one] at read
            obtain ⟨rfl, rfl⟩ := Prod.mk.inj (Except.ok.inj read)
            simp only [oneToo]
            exact ⟨_, rfl, .ahead rests⟩
      | behind differs =>
          split at read
          · next separated =>
              obtain ⟨rfl, rfl⟩ := Prod.mk.inj (Except.ok.inj read)
              simp only [separated]
              cases differs
              exact ⟨_, rfl, .behind .string⟩
          · next notSeparated =>
              obtain ⟨rfl, rfl⟩ := Prod.mk.inj (Except.ok.inj read)
              simp only [notSeparated]
              exact ⟨_, rfl, .ahead parallel⟩

end Parallel

end DocblockScan.Docblock.Grammar
