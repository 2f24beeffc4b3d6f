import DocblockScan.Endpoint.Resolution
import DocblockScan.Proofs.Outcome

/-!
# The turns of the tags on a class

The tags on a class take their turns on the endpoints that are there, from the first tag to
the last one. So the tags before some tag can be left to themselves, with whatever they make
or refuse, and those after it only see the endpoints that it leaves: `classEndpoints_append`.
-/

namespace DocblockScan

/-- Tags are chosen and read from the first to the last. -/
theorem readChosen_append {Value : Type} {className : String} {method : Option String}
    {reading? : TagKind → Option (Arguments → Except ArgumentFault Value)}
    (front back : List Tag) :
    readChosen className method reading? (front ++ back) = do
      let values ← readChosen className method reading? front
      let others ← readChosen className method reading? back
      return values ++ others := by
  induction front with
  | nil =>
      rw [List.nil_append, readChosen]
      cases readChosen className method reading? back <;> rfl
  | cons tag rest inductionHypothesis =>
      rw [List.cons_append, readChosen, readChosen]
      cases reading? tag.kind with
      | none => exact inductionHypothesis
      | some reading =>
          simp only [inductionHypothesis]
          cases tag.read className method reading with
          | error fault => rfl
          | ok value =>
              cases readChosen className method reading? rest with
              | error fault => rfl
              | ok values => cases readChosen className method reading? back <;> rfl

variable {className : String} {current : List Endpoint}

/-- What some tags on a class make of endpoints that are there, or the error of the first tag
that cannot be read. -/
def takeTurns (className : String) (current : List Endpoint) (tags : List Tag) :
    Except ScanError (List Endpoint) := do
  let rules ← readChosen className none ClassRule.reading? tags
  return rules.foldl (ClassRule.apply className) current

/-- A tag that is read as a rule has its turn before the tags after it. -/
theorem takeTurns_cons {tag : Tag} {reading : Arguments → Except ArgumentFault ClassRule}
    {rule : ClassRule} (chosen : ClassRule.reading? tag.kind = some reading)
    (read : reading tag.arguments = .ok rule) (later : List Tag) :
    takeTurns className current (tag :: later) =
      takeTurns className (rule.apply className current) later := by
  have readTag : tag.read className none reading = .ok rule :=
    (Outcome.mapError_eq_ok_iff _ _ _).2 read
  simp only [takeTurns, readChosen, chosen, readTag]
  cases readChosen className none ClassRule.reading? later <;> rfl

/-- The last tags on a class have their turns on what the tags before them leave. -/
theorem classEndpoints_append (className : String) (methods : OrderedMap String (List Tag))
    (before after : List Tag) :
    classEndpoints className ⟨before ++ after, methods⟩ =
      classEndpoints className ⟨before, methods⟩ >>= (takeTurns className · after) := by
  unfold classEndpoints takeTurns
  rw [readChosen_append]
  cases allMethodEndpoints className methods.entries with
  | error fault => rfl
  | ok created =>
      cases readChosen className none ClassRule.reading? before with
      | error fault => rfl
      | ok rules =>
          cases readChosen className none ClassRule.reading? after with
          | error fault => rfl
          | ok others => exact congrArg Except.ok (List.foldl_append ..)

end DocblockScan
