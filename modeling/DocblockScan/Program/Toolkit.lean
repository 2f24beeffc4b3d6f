import DocblockScan.Program.Arguments
import DocblockScan.Program.Json
import DocblockScan.Program.SourceCode.Growth
import DocblockScan.Program.Table
import DocblockScan.Program.Toml.Document

/-!
# The toolkit of the program

The readers and printers that the program runs with.
-/

namespace DocblockScan.Program

/-- The toolkit of the program. -/
def toolkit : CommandLine.Toolkit where
  request := request
  toml := Toml.parse
  parser := SourceCode.parse
  json := json
  table := table

end DocblockScan.Program
