import DocblockScan.Proofs.Endpoint.IdleTags
import DocblockScan.Proofs.Endpoint.Refusal

/-!
# Default arguments

The default argument of a tag is its first one without a name, or else the one that is named
`value`. All readings of arguments but one ask for it in one and the same way, so that it makes
no difference to them how it is spelled: `Arguments.AnswersAlike`. The one exception are where
clauses: they take all named arguments for patterns, `value` among them, and of the two
spellings of a where clause at most one is accepted. So listeners never depend on the spelling,
and endpoints only where a where clause is respelled: `default_argument_spelled_either_way`.
-/

namespace DocblockScan

/-! ## Arguments -/

namespace Arguments

/-- Some arguments of which a single one has no name, and the same arguments with the name
`value` for that one, which then stands anywhere among the named ones. -/
inductive Respelled : Arguments → Arguments → Prop where
  | intro {literal : Literal} {front back : List (String × Literal)}
      {others all : OrderedMap String Literal} (named : others.entries = front ++ back)
      (allNamed : all.entries = front ++ ("value", literal) :: back) :
      Respelled ⟨[literal], others⟩ ⟨[], all⟩

/-- Arguments that have the same default argument, and the same argument of every name other
than `value`. -/
structure AnswersAlike (left right : Arguments) : Prop where
  main : ∃ literal, left.default? = some literal ∧ right.default? = some literal
  named : ∀ key, key ≠ "value" → left.get? key = right.get? key

variable {left right : Arguments}

/-- Respelled arguments differ in their spelling only. -/
theorem Respelled.answersAlike (respelled : left.Respelled right) : left.AnswersAlike right := by
  obtain @⟨literal, front, back, others, all, named, allNamed⟩ := respelled
  refine ⟨⟨literal, rfl, ?_⟩, fun key other => ?_⟩
  · have found : all.get? "value" = some literal := by
      rw [OrderedMap.get?_eq_some_iff, allNamed]
      simp
    exact found
  · show OrderedMap.lookupIn key others.entries = OrderedMap.lookupIn key all.entries
    rw [named, allNamed, OrderedMap.lookupIn_append, OrderedMap.lookupIn_append,
      OrderedMap.lookupIn, if_neg (Ne.symm other)]

namespace AnswersAlike

variable {key : String}

theorem default?_eq (alike : left.AnswersAlike right) : left.default? = right.default? := by
  obtain ⟨literal, onLeft, onRight⟩ := alike.main
  rw [onLeft, onRight]

theorem present?_eq (alike : left.AnswersAlike right) (other : key ≠ "value") :
    left.present? key = right.present? key := by
  rw [present?, present?, alike.named key other]

/-- Where there is a default argument no other one is looked for in its place. -/
theorem requiredText_eq (alike : left.AnswersAlike right) (fallback : String) :
    left.requiredText fallback = right.requiredText fallback := by
  obtain ⟨literal, onLeft, onRight⟩ := alike.main
  rw [requiredText, requiredText, onLeft, onRight, Option.some_or, Option.some_or]

theorem requiredTextList_eq (alike : left.AnswersAlike right) :
    left.requiredTextList = right.requiredTextList := by
  rw [requiredTextList, requiredTextList, alike.default?_eq]

theorem optionalText_eq (alike : left.AnswersAlike right) (other : key ≠ "value") :
    left.optionalText key = right.optionalText key := by
  rw [optionalText, optionalText, alike.present?_eq other]

theorem optionalTextList_eq (alike : left.AnswersAlike right) (other : key ≠ "value") :
    left.optionalTextList key = right.optionalTextList key := by
  rw [optionalTextList, optionalTextList, alike.present?_eq other]

theorem optionalTextMap_eq (alike : left.AnswersAlike right) (other : key ≠ "value") :
    left.optionalTextMap key = right.optionalTextMap key := by
  rw [optionalTextMap, optionalTextMap, alike.present?_eq other]

/-! ## Readings -/

theorem ofRoute_eq (alike : left.AnswersAlike right) (className method : String) (verb : Verb) :
    Endpoint.ofRoute className method verb left = Endpoint.ofRoute className method verb right := by
  rw [Endpoint.ofRoute, Endpoint.ofRoute, alike.requiredText_eq, alike.optionalText_eq (by decide),
    alike.optionalTextList_eq (by decide), alike.optionalTextMap_eq (by decide),
    alike.optionalText_eq (by decide)]

theorem readController_eq (alike : left.AnswersAlike right) :
    ClassRule.readController left = ClassRule.readController right := by
  obtain ⟨literal, onLeft, onRight⟩ := alike.main
  rw [ClassRule.readController, ClassRule.readController, onLeft, onRight]
  dsimp only
  rw [alike.requiredText_eq, alike.optionalText_eq (by decide)]

theorem readGroup_eq (alike : left.AnswersAlike right) :
    ClassRule.readGroup left = ClassRule.readGroup right := by
  rw [ClassRule.readGroup, ClassRule.readGroup, alike.optionalText_eq (by decide),
    alike.optionalText_eq (by decide), alike.optionalTextList_eq (by decide),
    alike.optionalText_eq (by decide), alike.optionalTextMap_eq (by decide)]

theorem readMiddleware_eq (alike : left.AnswersAlike right) :
    ClassRule.readMiddleware left = ClassRule.readMiddleware right := by
  rw [ClassRule.readMiddleware, ClassRule.readMiddleware, alike.requiredTextList_eq,
    alike.optionalTextList_eq (by decide), alike.optionalTextList_eq (by decide)]

theorem readResource_eq (alike : left.AnswersAlike right) :
    Resource.read left = Resource.read right := by
  rw [Resource.read, Resource.read, alike.requiredText_eq, alike.optionalTextList_eq (by decide),
    alike.optionalTextList_eq (by decide), alike.optionalTextMap_eq (by decide)]

theorem readEvents_eq (alike : left.AnswersAlike right) :
    Listener.readEvents left = Listener.readEvents right := by
  obtain ⟨literal, onLeft, onRight⟩ := alike.main
  rw [Listener.readEvents, Listener.readEvents, onLeft, onRight]
  dsimp only
  rw [alike.requiredTextList_eq]

end AnswersAlike

/-- If arguments are read at all, the same is read of both. -/
def ReadAlike {Value : Type} (reading? : Option (Arguments → Except ArgumentFault Value))
    (left right : Arguments) : Prop :=
  ∀ reading, reading? = some reading → reading left = reading right

namespace AnswersAlike

variable {kind : TagKind}

theorem readAlike_route (alike : left.AnswersAlike right) (className method : String) :
    ReadAlike (routeReading? className method kind) left right := by
  cases kind with
  | route verb =>
      rintro _ ⟨⟩
      exact alike.ofRoute_eq className method verb
  | _ => exact nofun

theorem readAlike_modifier (alike : left.AnswersAlike right) (other : kind ≠ .whereClause) :
    ReadAlike (MethodModifier.reading? kind) left right := by
  cases kind with
  | middleware =>
      rintro _ ⟨⟩
      dsimp only
      rw [alike.requiredTextList_eq]
  | whereClause => exact absurd rfl other
  | _ => exact nofun

theorem readAlike_classRule (alike : left.AnswersAlike right) (other : kind ≠ .whereClause) :
    ReadAlike (ClassRule.reading? kind) left right := by
  cases kind with
  | whereClause => exact absurd rfl other
  | pathStart =>
      rintro _ ⟨⟩
      rw [ClassRule.readPathStart, ClassRule.readPathStart, alike.requiredText_eq]
  | controller =>
      rintro _ ⟨⟩
      exact alike.readController_eq
  | group =>
      rintro _ ⟨⟩
      exact alike.readGroup_eq
  | middleware =>
      rintro _ ⟨⟩
      exact alike.readMiddleware_eq
  | resource =>
      rintro _ ⟨⟩
      dsimp only
      rw [alike.readResource_eq]
  | _ => exact nofun

theorem readAlike_listener (alike : left.AnswersAlike right) (className method : String) :
    ReadAlike (Listener.reading? className method kind) left right := by
  cases kind with
  | hears =>
      rintro _ ⟨⟩
      dsimp only
      rw [alike.readEvents_eq]
  | _ => exact nofun

end AnswersAlike

/-- Patterns are not accepted in both spellings: without a name they have to be a map, and with
one they have to be a text. -/
theorem Respelled.breaks_mainMap (respelled : left.Respelled right) :
    left.Breaks [.mainMap] ∨ right.Breaks [.mainMap] := by
  obtain @⟨literal, front, back, others, all, named, allNamed⟩ := respelled
  by_cases isMap : literal.IsTextMap
  · right
    have noText : ¬ literal.IsText := by
      cases literal with
      | array => exact id
      | _ => exact False.elim isMap
    have refused : namedText ("value", literal) = .error (.keyNotText "value") := by
      rw [namedText, (Literal.text?_eq_none_iff literal).2 noText]
    have stops : ∃ fault, all.entries.mapM namedText = .error fault := by
      simp only [Outcome.mapM_eq_error_iff_first, Outcome.First.exists_iff]
      exact ⟨("value", literal), by simp [allNamed], _, refused⟩
    obtain ⟨fault, stops⟩ := stops
    obtain ⟨before, key, broken, after, split, earlier, other, -⟩ := namedTexts_eq_error_iff.1 stops
    exact ⟨.mainMap, List.mem_singleton_self _, _, .namedNotText rfl split earlier other⟩
  · left
    exact ⟨.mainMap, List.mem_singleton_self _, .notTextMap, .notTextMap rfl isMap⟩

end Arguments

/-! ## Tags -/

/-- A tag whose arguments are respelled. -/
structure Tag.Respells (tag other : Tag) : Prop where
  name : other.name = tag.name
  kind : other.kind = tag.kind
  arguments : tag.arguments.Respelled other.arguments

/-- Some tags of certain kinds are respelled, and all others stay as they are. -/
def RespellsOf (may : TagKind → Prop) : List Tag → List Tag → Prop :=
  List.Forall₂ fun tag other => tag = other ∨ may tag.kind ∧ tag.Respells other

/-- Tags are respelled on the methods of a class and on the class itself. -/
structure TagSet.RespellsOf (may : TagKind → Prop) (left right : TagSet) : Prop where
  onMethods : OrderedMap.RelatedEntries (DocblockScan.RespellsOf may)
    left.onMethods.entries right.onMethods.entries
  onClass : DocblockScan.RespellsOf may left.onClass right.onClass

/-- A tag stands on a method of a class or on the class itself. -/
def TagSet.Has (tags : TagSet) (tag : Tag) : Prop :=
  (∃ entry ∈ tags.onMethods.entries, tag ∈ entry.2) ∨ tag ∈ tags.onClass

/-- Lists are read alike if the kinds that may be respelled are. -/
theorem RespellsOf.readChosen_eq {Value : Type} {className : String} {method : Option String}
    {reading? : TagKind → Option (Arguments → Except ArgumentFault Value)}
    {may : TagKind → Prop} {left right : List Tag} (respells : RespellsOf may left right)
    (alike : ∀ {kind arguments others}, may kind → Arguments.AnswersAlike arguments others →
      Arguments.ReadAlike (reading? kind) arguments others) :
    readChosen className method reading? left = readChosen className method reading? right := by
  induction respells with
  | nil => rfl
  | @cons tag other _ _ first _ inductionHypothesis =>
      rw [readChosen, readChosen, inductionHypothesis]
      rcases first with rfl | ⟨mayChange, respelled⟩
      · rfl
      rw [respelled.kind]
      cases chosen : reading? tag.kind with
      | none => rfl
      | some reading =>
          have same : tag.read className method reading = other.read className method reading := by
            rw [Tag.read, Tag.read, Tag.shortName, Tag.shortName, respelled.name,
              alike mayChange respelled.arguments.answersAlike reading chosen]
          dsimp only
          rw [same]

variable {className : String}

/-- No listener depends on how a default argument is spelled. -/
theorem TagSet.RespellsOf.classListeners_eq {may : TagKind → Prop} {left right : TagSet}
    (respells : left.RespellsOf may right) :
    classListeners className left = classListeners className right := by
  have each : List.Forall₂ (fun one other =>
      methodListeners className one.1 one.2 = methodListeners className other.1 other.2)
      left.onMethods.entries right.onMethods.entries := by
    refine List.Forall₂.imp (fun one other entry => ?_) respells.onMethods
    rw [← entry.1]
    exact entry.2.readChosen_eq fun _ alike => alike.readAlike_listener className one.1
  rw [classListeners, classListeners, Outcome.mapM_congr each]

/-- No endpoint depends on how a default argument is spelled that is not a where clause. -/
theorem TagSet.RespellsOf.classEndpoints_eq {left right : TagSet}
    (respells : left.RespellsOf (· ≠ .whereClause) right) :
    classEndpoints className left = classEndpoints className right := by
  refine classEndpoints_congr (List.Forall₂.imp (fun one other entry => ?_) respells.onMethods)
    (respells.onClass.readChosen_eq fun may alike => alike.readAlike_classRule may)
  refine ⟨entry.1, fun method => ?_⟩
  rw [methodEndpoints, methodEndpoints,
    entry.2.readChosen_eq fun _ alike => alike.readAlike_route className method,
    entry.2.readChosen_eq fun may alike => alike.readAlike_modifier may]

/-- A class with a where clause that gives no patterns is refused. -/
theorem exists_refusal_of_whereClause {tags : TagSet} {tag : Tag} (has : tags.Has tag)
    (isWhere : tag.kind = .whereClause) (breaks : tag.arguments.Breaks [.mainMap]) :
    ∃ error, classEndpoints className tags = .error error := by
  rw [exists_refusal_iff]
  rcases has with ⟨entry, memEntry, memTag⟩ | onClass
  · refine .inl ⟨entry, memEntry, tag, memTag, ?_⟩
    simpa only [Tag.routeDemands, Tag.modifierDemands, isWhere, List.nil_append] using breaks
  · refine .inr ⟨tag, onClass, ?_⟩
    simpa only [Tag.classDemands, isWhere] using breaks

/-! ## Either way -/

/-- However many tags of a class are respelled, on its methods and on the class itself, its
listeners are the same or it is refused for the same reason. So are its endpoints, as long as
no where clause is among those tags. A where clause with a default argument in one class and
the respelled one in another are never both accepted, so that respelling it leaves the
endpoints as they are only where the class is refused anyway. -/
theorem default_argument_spelled_either_way (className : String) :
    (∀ left right : TagSet, left.RespellsOf (fun _ => True) right →
      classListeners className left = classListeners className right) ∧
    (∀ left right : TagSet, left.RespellsOf (· ≠ .whereClause) right →
      classEndpoints className left = classEndpoints className right) ∧
    ∀ (left right : TagSet) (tag other : Tag), tag.kind = .whereClause → tag.Respells other →
      left.Has tag → right.Has other →
      (∃ error, classEndpoints className left = .error error) ∨
        ∃ error, classEndpoints className right = .error error := by
  refine ⟨fun _ _ respells => respells.classListeners_eq,
    fun _ _ respells => respells.classEndpoints_eq, ?_⟩
  intro left right tag other isWhere respells has hasOther
  rcases respells.arguments.breaks_mainMap with breaks | breaks
  · exact .inl (exists_refusal_of_whereClause has isWhere breaks)
  · exact .inr (exists_refusal_of_whereClause hasOther (respells.kind.trans isWhere) breaks)

/-- A shop with a prefix, a route with a name, and a listener, all with default arguments that
have no name. -/
def shopTags : TagSet where
  onClass := [⟨"Prefix", .pathStart, ⟨[.string "/shop"], .empty⟩⟩]
  onMethods := .ofList [("show", [
    ⟨"Get", .route .get, ⟨[.string "/{id}"], .ofList [("as", .string "show")]⟩⟩,
    ⟨"Hears", .hears, ⟨[.array [(none, .string "Sold")]], .empty⟩⟩])]

/-- The shop with names for all default arguments. -/
def namedShopTags : TagSet where
  onClass := [⟨"Prefix", .pathStart, ⟨[], .ofList [("value", .string "/shop")]⟩⟩]
  onMethods := .ofList [("show", [
    ⟨"Get", .route .get, ⟨[], .ofList [("as", .string "show"), ("value", .string "/{id}")]⟩⟩,
    ⟨"Hears", .hears, ⟨[], .ofList [("value", .array [(none, .string "Sold")])]⟩⟩])]

/-- The shop has the same endpoint and the same listener in both spellings. -/
theorem default_argument_spelled_either_way_shop :
    classEndpoints "Shop" namedShopTags = classEndpoints "Shop" shopTags ∧
    classListeners "Shop" namedShopTags = classListeners "Shop" shopTags ∧
    (classEndpoints "Shop" shopTags).map (·.map Endpoint.path) = .ok ["/shop/{id}"] ∧
    classListeners "Shop" shopTags = .ok [⟨"Shop", "show", "Shop@show", ["Sold"]⟩] := by
  obtain ⟨listeners, endpoints, -⟩ := default_argument_spelled_either_way "Shop"
  have respells (may : TagKind → Prop) (all : may .pathStart ∧ may (.route .get) ∧ may .hears) :
      shopTags.RespellsOf may namedShopTags := by
    have route : (⟨"Get", .route .get, ⟨[.string "/{id}"], .ofList [("as", .string "show")]⟩⟩ :
        Tag).Respells ⟨"Get", .route .get,
          ⟨[], .ofList [("as", .string "show"), ("value", .string "/{id}")]⟩⟩ :=
      ⟨rfl, rfl, @Arguments.Respelled.intro _ [_] [] _ _ rfl rfl⟩
    have hears : (⟨"Hears", .hears, ⟨[.array [(none, .string "Sold")]], .empty⟩⟩ : Tag).Respells
        ⟨"Hears", .hears, ⟨[], .ofList [("value", .array [(none, .string "Sold")])]⟩⟩ :=
      ⟨rfl, rfl, @Arguments.Respelled.intro _ [] [] _ _ rfl rfl⟩
    exact ⟨.cons ⟨rfl, .cons (.inr ⟨all.2.1, route⟩) (.cons (.inr ⟨all.2.2, hears⟩) .nil)⟩ .nil,
      .cons (.inr ⟨all.1, rfl, rfl, @Arguments.Respelled.intro _ [] [] _ _ rfl rfl⟩) .nil⟩
  exact ⟨(endpoints _ _ (respells _ (by decide))).symm,
    (listeners _ _ (respells _ ⟨trivial, trivial, trivial⟩)).symm, rfl, rfl⟩

/-- A page with a where clause. -/
def patternPage (clause : Arguments) : TagSet where
  onClass := []
  onMethods := .ofList [("show", [
    ⟨"Get", .route .get, ⟨[.string "/{id}"], .empty⟩⟩, ⟨"Where", .whereClause, clause⟩])]

/-- The map of patterns of a where clause cannot be given by name. -/
theorem not_where_clause_either_way :
    ¬ ∀ (className : String) (left right : TagSet), left.RespellsOf (fun _ => True) right →
      classEndpoints className left = classEndpoints className right := by
  intro eitherWay
  have respells : (patternPage ⟨[.array [(some "id", .string "[0-9]+")]], .empty⟩).RespellsOf
      (fun _ => True)
      (patternPage ⟨[], .ofList [("value", .array [(some "id", .string "[0-9]+")])]⟩) :=
    ⟨.cons ⟨rfl, .cons (.inl rfl) (.cons (.inr ⟨trivial, rfl, rfl,
      @Arguments.Respelled.intro _ [] [] _ _ rfl rfl⟩) .nil)⟩ .nil, .nil⟩
  have same := congrArg Except.isOk (eitherWay "Page" _ _ respells)
  have accepted : (classEndpoints "Page"
      (patternPage ⟨[.array [(some "id", .string "[0-9]+")]], .empty⟩)).isOk = true := rfl
  have refused : (classEndpoints "Page"
      (patternPage ⟨[], .ofList [("value", .array [(some "id", .string "[0-9]+")])]⟩)).isOk = false :=
    rfl
  rw [accepted, refused] at same
  cases same

end DocblockScan
