import DocblockScan.Endpoint.Basic
import DocblockScan.Json.Basic

/-!
# Records as JSON

How endpoints are laid out as JSON values: the member names, their order, and what an absent
value is.
-/

namespace DocblockScan

/-- An endpoint with all that is known of it. -/
def Endpoint.toJson (endpoint : Endpoint) : Json :=
  .object [
    ("class", .string endpoint.className),
    ("method", .string endpoint.method),
    ("uses", .string endpoint.uses),
    ("verbs", .ofTexts (endpoint.verbs.map Verb.label)),
    ("path", .string endpoint.path),
    ("name", .ofText? endpoint.name),
    ("class_middleware", .ofTexts endpoint.classMiddleware),
    ("middleware", .ofTexts endpoint.middleware),
    ("where", .object (endpoint.patterns.entries.map fun entry => (entry.1, .string entry.2))),
    ("domain", .ofText? endpoint.domain)]

/-- A collection of endpoints, in registration order. -/
def Endpoint.listToJson (endpoints : List Endpoint) : Json :=
  .array (endpoints.map toJson)

end DocblockScan
