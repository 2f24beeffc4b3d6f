import DocblockScan.CommandLine.Toolkit
import DocblockScan.Json.Records

/-!
# Lists of endpoints

A list of endpoints is printed as a value with all that is known of them, or as a table
with a row for each.
-/

namespace DocblockScan.CommandLine

/-- The names of the columns of a table of endpoints. -/
def endpointHeader : List String := ["Method", "URI", "Name", "Action", "Middleware"]

/-- The row of an endpoint. The domain stands right before the path. -/
def endpointRow (endpoint : Endpoint) : List String :=
  [endpoint.verbLabel, endpoint.domain.getD "" ++ endpoint.path, endpoint.name.getD "",
    endpoint.uses, String.intercalate ", " endpoint.allMiddleware]

/-- The text that lists some endpoints. -/
def listing (kit : Toolkit) (json : Bool) (endpoints : List Endpoint) : String :=
  if json then kit.json (Endpoint.listToJson endpoints)
  else if endpoints.isEmpty then "No annotated routes found."
  else kit.table endpointHeader (endpoints.map endpointRow)

end DocblockScan.CommandLine
