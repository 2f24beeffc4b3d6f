import DocblockScan.Proofs.FileSystem.Growth

/-!
# Walks

The order of a walk is total and tells all ways apart, so a sorted list of ways is
known from its members. A walk through a file system that has grown lists the ways
to ordinary files as before: `Grows.filesBelow`.
-/

namespace DocblockScan.FileSystem

/-! ## The order of names -/

theorem sortsBefore_total (left right : List Char) :
    (sortsBefore left right || sortsBefore right left) = true := by
  induction left generalizing right with
  | nil => simp [sortsBefore]
  | cons first rest inductionHypothesis =>
      cases right with
      | nil => simp [sortsBefore]
      | cons other others =>
          have tail := inductionHypothesis others
          simp only [sortsBefore, Bool.or_eq_true, Bool.and_eq_true, decide_eq_true_eq,
            beq_iff_eq] at tail ⊢
          rcases Nat.lt_trichotomy first.toNat other.toNat with before | same | after
          · exact .inl (.inl before)
          · rcases tail with tail | tail
            · exact .inl (.inr ⟨same, tail⟩)
            · exact .inr (.inr ⟨same.symm, tail⟩)
          · exact .inr (.inl after)

theorem sortsBefore_trans {left middle right : List Char}
    (first : sortsBefore left middle = true) (second : sortsBefore middle right = true) :
    sortsBefore left right = true := by
  induction left generalizing middle right with
  | nil => simp [sortsBefore]
  | cons char rest inductionHypothesis =>
      cases middle with
      | nil => simp [sortsBefore] at first
      | cons between others =>
          cases right with
          | nil => simp [sortsBefore] at second
          | cons last lasts =>
              simp only [sortsBefore, Bool.or_eq_true, Bool.and_eq_true, decide_eq_true_eq,
                beq_iff_eq] at first second ⊢
              rcases first with before | ⟨same, tail⟩
              · rcases second with after | ⟨equal, -⟩
                · exact .inl (by omega)
                · exact .inl (by omega)
              · rcases second with after | ⟨equal, tails⟩
                · exact .inl (by omega)
                · exact .inr ⟨by omega, inductionHypothesis tail tails⟩

theorem sortsBefore_antisymm {left right : List Char} (first : sortsBefore left right = true)
    (second : sortsBefore right left = true) : left = right := by
  induction left generalizing right with
  | nil =>
      cases right with
      | nil => rfl
      | cons _ _ => simp [sortsBefore] at second
  | cons char rest inductionHypothesis =>
      cases right with
      | nil => simp [sortsBefore] at first
      | cons other others =>
          simp only [sortsBefore, Bool.or_eq_true, Bool.and_eq_true, decide_eq_true_eq,
            beq_iff_eq] at first second
          rcases first with before | ⟨same, tail⟩
          · rcases second with after | ⟨equal, -⟩ <;> omega
          · rcases second with after | ⟨-, tails⟩
            · omega
            · rw [Char.toNat_inj.1 same, inductionHypothesis tail tails]

/-! ## The order of ways -/

theorem walksBefore_total (left right : Location) :
    (walksBefore left right || walksBefore right left) = true := by
  induction left generalizing right with
  | nil => simp [walksBefore]
  | cons name rest inductionHypothesis =>
      cases right with
      | nil => simp [walksBefore]
      | cons other others =>
          by_cases same : name = other
          · subst same
            simpa [walksBefore] using inductionHypothesis others
          · simpa [walksBefore, same, Ne.symm same] using
              sortsBefore_total name.toList other.toList

theorem walksBefore_trans {left middle right : Location}
    (first : walksBefore left middle = true) (second : walksBefore middle right = true) :
    walksBefore left right = true := by
  induction left generalizing middle right with
  | nil => simp [walksBefore]
  | cons name rest inductionHypothesis =>
      cases middle with
      | nil => simp [walksBefore] at first
      | cons between others =>
          cases right with
          | nil => simp [walksBefore] at second
          | cons last lasts =>
              by_cases same : name = between
              · subst same
                by_cases equal : name = last
                · subst equal
                  simp only [walksBefore, if_true] at first second ⊢
                  exact inductionHypothesis first second
                · simpa [walksBefore, equal] using second
              · by_cases equal : between = last
                · subst equal
                  simpa [walksBefore, same] using first
                · simp only [walksBefore, same, equal, if_false] at first second
                  by_cases back : name = last
                  · subst back
                    exact absurd (String.toList_inj.1 (sortsBefore_antisymm first second)) same
                  · simp only [walksBefore, back, if_false]
                    exact sortsBefore_trans first second

theorem walksBefore_antisymm {left right : Location} (first : walksBefore left right = true)
    (second : walksBefore right left = true) : left = right := by
  induction left generalizing right with
  | nil =>
      cases right with
      | nil => rfl
      | cons _ _ => simp [walksBefore] at second
  | cons name rest inductionHypothesis =>
      cases right with
      | nil => simp [walksBefore] at first
      | cons other others =>
          by_cases same : name = other
          · subst same
            simp only [walksBefore, if_true] at first second
            rw [inductionHypothesis first second]
          · simp only [walksBefore, same, Ne.symm same, if_false] at first second
            exact absurd (String.toList_inj.1 (sortsBefore_antisymm first second)) same

/-- Ways are in order once they are sorted. -/
theorem pairwise_mergeSort_walksBefore (ways : List Location) :
    (ways.mergeSort walksBefore).Pairwise fun left right => walksBefore left right = true := by
  apply List.pairwise_mergeSort
  · exact fun _ _ _ => walksBefore_trans
  · exact walksBefore_total

/-- Ways are sorted in one way only. -/
theorem mergeSort_eq_of_perm {left right : List Location} (perm : left.Perm right) :
    left.mergeSort walksBefore = right.mergeSort walksBefore := by
  refine List.Perm.eq_of_pairwise (fun _ _ _ _ => walksBefore_antisymm)
    (pairwise_mergeSort_walksBefore left) (pairwise_mergeSort_walksBefore right) ?_
  exact ((List.mergeSort_perm left _).trans perm).trans (List.mergeSort_perm right _).symm

/-- Selecting ways and sorting them may be done in either order. -/
theorem filter_mergeSort (selects : Location → Bool) (ways : List Location) :
    (ways.mergeSort walksBefore).filter selects =
      (ways.filter selects).mergeSort walksBefore := by
  have sorted := (pairwise_mergeSort_walksBefore ways).filter selects
  rw [← mergeSort_eq_of_perm ((List.mergeSort_perm ways walksBefore).filter selects),
    List.mergeSort_of_pairwise sorted]

/-- A file is at the end of one way only. -/
theorem nodup_filesBelow (files : FileSystem) (outer : Location) :
    (files.filesBelow outer).Nodup := by
  have ways : (files.entries.entries.filterMap (wayBelow? outer)).Nodup := by
    have apart := List.pairwise_map.1 files.entries.distinct
    refine List.pairwise_filterMap.2 (apart.imp ?_)
    rintro ⟨left, leftEntry⟩ ⟨right, rightEntry⟩ differ way fromLeft other fromRight rfl
    cases leftEntry <;> cases rightEntry <;> simp [wayBelow?] at fromLeft fromRight
    obtain ⟨⟨leftBelow, -⟩, rfl⟩ := fromLeft
    obtain ⟨⟨rightBelow, -⟩, same⟩ := fromRight
    obtain ⟨leftRest, rfl⟩ := leftBelow
    obtain ⟨rightRest, rfl⟩ := rightBelow
    rw [List.drop_left, List.drop_left] at same
    exact differ (by rw [same])
  exact (List.mergeSort_perm _ _).nodup_iff.2 ways

/-! ## Walks in a file system that has grown -/

variable {reserved : List String} {old new : FileSystem}

/-- The ways to ordinary files are those of the ordinary files. -/
theorem filter_waysBelow (outer : Location) (entries : List (Location × FileEntry)) :
    (entries.filterMap (wayBelow? outer)).filter (fun way => !endsReserved reserved way) =
      (entries.filter (isOrdinaryFile reserved)).filterMap (wayBelow? outer) := by
  rw [List.filter_filterMap, List.filterMap_filter]
  congr 1
  funext entry
  obtain ⟨location, stands⟩ := entry
  cases stands with
  | file contents =>
      by_cases below : (outer.isPrefixOf location && decide (location.length > outer.length)) = true
      · have last : (location.drop outer.length).getLast? = location.getLast? := by
          simp only [Bool.and_eq_true, decide_eq_true_eq] at below
          rw [List.getLast?_drop, if_neg (by omega)]
        have same : endsReserved reserved (location.drop outer.length) =
            endsReserved reserved location := by
          rw [endsReserved, endsReserved, last]
        cases isReserved : endsReserved reserved location <;>
          simp [wayBelow?, below, isOrdinaryFile, isReserved, same]
      · simp [wayBelow?, below]
  | directory => simp [wayBelow?]
  | link target => simp [wayBelow?]

/-- The ways to ordinary files below a directory are the same before and after. -/
theorem Grows.filesBelow (grows : Grows reserved old new) (outer : Location) :
    (new.filesBelow outer).filter (fun way => !endsReserved reserved way) =
      (old.filesBelow outer).filter (fun way => !endsReserved reserved way) := by
  unfold FileSystem.filesBelow
  rw [filter_mergeSort, filter_mergeSort, filter_waysBelow, filter_waysBelow, grows.ordinary]

/-- A walk that was possible is possible afterwards, and lists the same ordinary files. -/
theorem Grows.walk (grows : Grows reserved old new) {path : String} {ways : List Location}
    (walks : old.walk path = .ok ways) :
    ∃ others, new.walk path = .ok others ∧
      others.filter (fun way => !endsReserved reserved way) =
        ways.filter fun way => !endsReserved reserved way := by
  unfold FileSystem.walk at walks ⊢
  cases leads : old.locate path with
  | error failure => simp [leads, bind, Except.bind] at walks
  | ok location =>
      simp only [leads, bind, Except.bind] at walks
      obtain rfl := Except.ok.inj walks
      exact ⟨new.filesBelow location, by simp [grows.locate leads, bind, Except.bind, pure,
        Except.pure], grows.filesBelow location⟩

end DocblockScan.FileSystem
