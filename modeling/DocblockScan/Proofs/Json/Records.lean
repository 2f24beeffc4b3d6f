import DocblockScan.Json.Records
import DocblockScan.Proofs.OrderedMap

/-!
# Reading records

The records that a JSON value holds. Members are found by their names, wherever they stand in
their object. What is written of endpoints says all that is known of them, and keeps their
order: `Endpoint.listOfJson?_listToJson`.
-/

namespace DocblockScan

namespace Json

/-- The text that a value is. -/
def text? : Json → Option String
  | .string text => some text
  | _ => none

/-- The text that a value is, or none if it is null. -/
def optionalText? : Json → Option (Option String)
  | .null => some none
  | .string text => some (some text)
  | _ => none

/-- The texts that a value lists. -/
def texts? : Json → Option (List String)
  | .array items => items.mapM text?
  | _ => none

/-- A member whose value is a text. -/
def textMember? (member : String × Json) : Option (String × String) :=
  member.2.text?.map (member.1, ·)

/-- The texts that a value maps names to. -/
def textMap? : Json → Option (OrderedMap String String)
  | .object members => (members.mapM textMember?).map .ofList
  | _ => none

/-- The value of a member of an object. -/
def member? (name : String) : Json → Option Json
  | .object members => (members.find? (·.1 == name)).map Prod.snd
  | _ => none

end Json

/-- The verb with a label. -/
def Verb.ofLabel? (label : String) : Option Verb :=
  [Verb.get, .post, .put, .patch, .delete, .options, .any].find? (·.label == label)

/-- The endpoint that a value holds. -/
def Endpoint.ofJson? (value : Json) : Option Endpoint := do
  let className ← (← value.member? "class").text?
  let method ← (← value.member? "method").text?
  let uses ← (← value.member? "uses").text?
  let verbs ← (← (← value.member? "verbs").texts?).mapM Verb.ofLabel?
  let path ← (← value.member? "path").text?
  let name ← (← value.member? "name").optionalText?
  let classMiddleware ← (← value.member? "class_middleware").texts?
  let middleware ← (← value.member? "middleware").texts?
  let patterns ← (← value.member? "where").textMap?
  let domain ← (← value.member? "domain").optionalText?
  return ⟨className, method, uses, verbs, path, name, classMiddleware, middleware, patterns, domain⟩

/-- The endpoints that a value lists. -/
def Endpoint.listOfJson? : Json → Option (List Endpoint)
  | .array items => items.mapM ofJson?
  | _ => none

/-! ## What is written can be read -/

/-- If every item is read back, a list of them is. -/
theorem mapM_map_of_reads {Item Written : Type} {write : Item → Written}
    {read : Written → Option Item} (reads : ∀ item, read (write item) = some item)
    (items : List Item) : (items.map write).mapM read = some items := by
  induction items with
  | nil => rfl
  | cons item others inductionHypothesis =>
      rw [List.map_cons, List.mapM_cons, reads, inductionHypothesis]
      rfl

namespace Json

theorem optionalText?_ofText? (text : Option String) :
    (ofText? text).optionalText? = some text := by
  cases text <;> rfl

theorem texts?_ofTexts (texts : List String) : (ofTexts texts).texts? = some texts := by
  have reads (text : String) : (string text).text? = some text := rfl
  exact mapM_map_of_reads reads texts

theorem textMap?_object (map : OrderedMap String String) :
    (object (map.entries.map fun entry => (entry.1, .string entry.2))).textMap? = some map := by
  have reads (entry : String × String) : textMember? (entry.1, string entry.2) = some entry := rfl
  rw [textMap?, mapM_map_of_reads reads, Option.map_some, OrderedMap.ofList_entries]

end Json

theorem Verb.ofLabel?_label (verb : Verb) : ofLabel? verb.label = some verb := by
  cases verb <;> decide

/-- All that is known of an endpoint is read back. -/
theorem Endpoint.ofJson?_toJson (endpoint : Endpoint) :
    ofJson? endpoint.toJson = some endpoint := by
  have verbs : (endpoint.verbs.map Verb.label).mapM Verb.ofLabel? = some endpoint.verbs :=
    mapM_map_of_reads Verb.ofLabel?_label endpoint.verbs
  simp [ofJson?, toJson, Json.member?, Json.text?, verbs, Json.texts?_ofTexts,
    Json.optionalText?_ofText?, Json.textMap?_object]

/-- All endpoints are read back, in order. -/
theorem Endpoint.listOfJson?_listToJson (endpoints : List Endpoint) :
    listOfJson? (listToJson endpoints) = some endpoints :=
  mapM_map_of_reads ofJson?_toJson endpoints

end DocblockScan
