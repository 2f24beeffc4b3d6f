import DocblockScan.Program.SourceCode.Token
import DocblockScan.SourceCode.Tree

/-!
# Growing a tree from tokens

A tree grows token by token. The nodes whose end has not been read are open, one inside the
other. Namespaces, classes and their methods become nodes of their own, and so do braces,
square brackets and groups of attributes; any other token is a leaf. Anonymous classes,
interfaces, traits and enums have plain braces, and what is a method in them is a row of
leaves.
-/

namespace DocblockScan.Program.SourceCode

open DocblockScan.SourceCode

/-- A node whose end has not been read, and the nodes inside it, the last one first. The
declaration that a group of attributes belongs to begins after some of its siblings. -/
structure OpenNode where
  kind : String
  field : Option String := none
  start : Nat
  inside : List Node := []
  lead : Nat := 0
deriving Repr

/-- The node with its end. -/
def OpenNode.closed (opened : OpenNode) (stop : Nat) : Node :=
  .mk opened.kind opened.field opened.start stop opened.inside.reverse

/-- The node with one more node inside. -/
def OpenNode.add (opened : OpenNode) (node : Node) : OpenNode :=
  { opened with inside := node :: opened.inside }

/-- What the next word may be, given the tokens before it: the name of a member, or that of
a declaration whose keyword has been read. The declaration begins after some of the nodes
inside the innermost open one. -/
inductive Expectation where
  | nothing
  | memberName
  | className (lead : Nat)
  | functionName (lead : Nat)
  | namespaceName (lead : Nat)
deriving Repr, DecidableEq

/-- A tree in the making. -/
structure Growth where
  /-- The innermost open node. -/
  innermost : OpenNode
  /-- The open nodes around it, from the inside to the outside. -/
  around : List OpenNode := []
  /-- What the next word may be. -/
  expected : Expectation := .nothing
  /-- How many nodes inside the innermost one stand before the modifiers and attributes
  just read, if any were. -/
  lead : Option Nat := none
  /-- Whether a statement may begin here. -/
  atStatement : Bool := true
deriving Repr

/-- The words that may stand before the keyword of a declaration. -/
def modifiers : List String :=
  ["abstract", "final", "readonly", "public", "protected", "private", "static", "var"]

/-- The words that no declaration can have for a name and that can follow its keyword. -/
def clauseWords : List String := ["extends", "implements", "as", "insteadof"]

/-- The field of what a declaration holds. -/
def bodyField : Option String := some "body"

/-- The field of the name of a declaration. -/
def nameField : Option String := some "name"

namespace Growth

/-- The growth after a token that says nothing about declarations. -/
def pass (growth : Growth) : Growth :=
  { growth with lead := none, expected := .nothing, atStatement := false }

/-- The growth where a statement may begin. -/
def passStatement (growth : Growth) : Growth :=
  { growth.pass with atStatement := true }

/-- One more node inside the innermost one. -/
def add (growth : Growth) (node : Node) : Growth :=
  { growth with innermost := growth.innermost.add node }

/-- One more leaf inside the innermost node. -/
def leaf (growth : Growth) (kind : String) (start stop : Nat) : Growth :=
  growth.add (.mk kind none start stop [])

/-- A new innermost node. -/
def enter (growth : Growth) (opened : OpenNode) : Growth :=
  { growth with innermost := opened, around := growth.innermost :: growth.around }

/-- The end of the innermost node, unless it is the outermost one. -/
def leave (growth : Growth) (stop : Nat) : Growth :=
  match growth.around with
  | [] => growth
  | outer :: others =>
      { growth with innermost := outer.add (growth.innermost.closed stop), around := others }

/-- The nodes inside the innermost one that a declaration begins after. -/
def currentLead (growth : Growth) : Nat :=
  growth.lead.getD growth.innermost.inside.length

/-- Enter a declaration, which takes along the nodes from its beginning. -/
def declare (growth : Growth) (kind : String) (lead : Nat) : Growth :=
  let opened := growth.innermost
  let taken := opened.inside.take (opened.inside.length - lead)
  let kept := { opened with inside := opened.inside.drop taken.length }
  let start := (taken.getLast?.map Node.start).getD opened.start
  { growth.pass with
    innermost := { kind, start, inside := taken }
    around := kept :: growth.around }

/-- Enter a declaration whose name has just been read. -/
def declareNamed (growth : Growth) (kind : String) (lead start stop : Nat) : Growth :=
  (growth.declare kind lead).add (.mk "name" nameField start stop [])

/-- The growth after a word that no keyword announced. Keywords are recognised in any
case. -/
def readKeyword (growth : Growth) (text : String) (start stop : Nat) : Growth :=
  let word := text.toLower
  let lead := growth.currentLead
  let passed := growth.pass.leaf word start stop
  if modifiers.contains word then { passed with lead := some lead }
  else if word = "class" then { passed with expected := .className lead }
  else if word = "function" then { passed with expected := .functionName lead }
  else if word = "namespace" ∧ growth.atStatement then
    { passed with expected := .namespaceName lead }
  else growth.pass.leaf "name" start stop

/-- The growth after a word. A class without a name is no declaration, and a function is a
method only right inside the braces of a class. -/
def readWord (growth : Growth) (text : String) (start stop : Nat) : Growth :=
  let passed := growth.pass.leaf "name" start stop
  let isClause := clauseWords.contains text.toLower
  match growth.expected with
  | .nothing => growth.readKeyword text start stop
  | .memberName => passed
  | .className lead =>
      if isClause then passed else growth.declareNamed "class_declaration" lead start stop
  | .functionName lead =>
      if growth.innermost.kind = "declaration_list" then
        growth.declareNamed "method_declaration" lead start stop
      else passed
  | .namespaceName _ => if isClause then passed else { passed with expected := growth.expected }

/-- The growth after a separator. The word after it is no keyword. -/
def readSeparator (growth : Growth) (start stop : Nat) : Growth :=
  let passed := growth.pass.leaf "\\" start stop
  match growth.expected with
  | .namespaceName _ => { passed with expected := growth.expected }
  | _ => { passed with expected := .memberName }

/-- Enter the declaration of a namespace once its name has been read. Comments before the
first part of the name and after the last one do not belong to it. -/
def declareNamespace (growth : Growth) (lead : Nat) : Growth :=
  let declared := growth.declare "namespace_definition" lead
  let inside := declared.innermost.inside.reverse
  let before := inside.takeWhile fun node =>
    !(["name", "\\"].contains node.kind)
  let rest := inside.drop before.length
  let after := rest.reverse.takeWhile (·.kind = "comment")
  let parts := rest.take (rest.length - after.length)
  let name :=
    match parts.head?, parts.getLast? with
    | some first, some last => [.mk "namespace_name" nameField first.start last.stop parts]
    | _, _ => []
  { declared with
    innermost := { declared.innermost with inside := after ++ name ++ before.reverse } }

/-- Enter the declaration of a namespace if its name has just been read. -/
def declareExpected (growth : Growth) : Growth :=
  match growth.expected with
  | .namespaceName lead => growth.declareNamespace lead
  | _ => growth

/-- The end of the innermost node, if it is of one of some kinds. -/
def leaveIf (growth : Growth) (kinds : List String) (stop : Nat) : Growth :=
  if kinds.contains growth.innermost.kind then growth.leave stop else growth

/-- The growth at the end of a statement, which ends a namespace without braces and a method
without a body. -/
def endStatement (growth : Growth) (kind : String) (start stop : Nat) : Growth :=
  let ended := growth.declareExpected.leaf kind start stop
  (ended.leaveIf ["namespace_definition", "method_declaration"] stop).passStatement

/-- Enter what an opening brace begins. -/
def openBrace (growth : Growth) (start stop : Nat) : Growth :=
  let declared := growth.declareExpected
  let (kind, field) :=
    match declared.innermost.kind with
    | "class_declaration" => ("declaration_list", bodyField)
    | "namespace_definition" | "method_declaration" => ("compound_statement", bodyField)
    | _ => ("compound_statement", none)
  ((declared.enter { kind, field, start }).leaf "\x7b" start stop).passStatement

/-- Whether a node ends with a closing brace. -/
def isBraced (opened : OpenNode) : Bool :=
  ["declaration_list", "compound_statement"].contains opened.kind

/-- Leave what a closing brace ends: the innermost braces with all that is in them, and the
declaration that they belong to. -/
def closeBrace (growth : Growth) (start stop : Nat) : Growth :=
  let unfinished := (growth.innermost :: growth.around).takeWhile (!isBraced ·)
  if unfinished.length ≤ growth.around.length then
    let inside := unfinished.foldl (fun growth _ => growth.leave start) growth
    (((inside.leaf "\x7d" start stop).leave stop).leaveIf
      ["class_declaration", "namespace_definition", "method_declaration"] stop).passStatement
  else growth.passStatement

/-- Leave what a closing bracket ends. A declaration may follow a group of attributes. -/
def closeBracket (growth : Growth) (start stop : Nat) : Growth :=
  let passed := growth.pass.leaf "]" start stop
  match growth.innermost.kind with
  | "attribute_list" => { passed.leave stop with lead := some growth.innermost.lead }
  | "array" => passed.leave stop
  | _ => passed

/-- The growth after a symbol. An ampersand may stand before the name of a function. -/
def readSymbol (growth : Growth) (symbol : Char) (start stop : Nat) : Growth :=
  let passed := growth.pass.leaf symbol.toString start stop
  match symbol with
  | '{' => growth.openBrace start stop
  | '}' => growth.closeBrace start stop
  | '[' => (growth.pass.enter { kind := "array", start }).leaf "[" start stop
  | ']' => growth.closeBracket start stop
  | ';' => growth.endStatement ";" start stop
  | '&' =>
      match growth.expected with
      | .functionName _ => { passed with expected := growth.expected }
      | _ => passed
  | _ => passed

/-- Whether the name of a namespace may end here. -/
def endsName (growth : Growth) : Bool :=
  let last := growth.innermost.inside.find? fun node => node.kind ≠ "comment"
  last.any (·.kind = "name")

/-- The growth after markup, which ends the statement that declares a namespace. -/
def readMarkup (growth : Growth) (start stop : Nat) : Growth :=
  let grown := growth.leaf "text_interpolation" start stop
  match growth.expected with
  | .namespaceName _ =>
      if growth.endsName then growth.endStatement "text_interpolation" start stop else grown
  | _ => { grown with atStatement := true }

/-- The growth after an extra. No declaration that has begun ends with a comment. -/
def readExtra (growth : Growth) (kind : Extra) (start stop : Nat) : Growth :=
  match kind with
  | .blank => growth
  | .comment => growth.leaf "comment" start stop
  | .markup => growth.readMarkup start stop

/-- The growth after one more token. -/
def read (growth : Growth) (placed : PlacedToken) : Growth :=
  let start := placed.start
  let stop := placed.stop
  match placed.token with
  | .word text => growth.readWord text start stop
  | .separator => growth.readSeparator start stop
  | .variable => growth.pass.leaf "variable_name" start stop
  | .string => growth.pass.leaf "string" start stop
  | .symbol symbol => growth.readSymbol symbol start stop
  | .access => { growth.pass.leaf "->" start stop with expected := .memberName }
  | .attribute =>
      (growth.pass.enter
        { kind := "attribute_list", start, lead := growth.currentLead }).leaf "#[" start stop
  | .extra kind => growth.readExtra kind start stop
  | .fault => growth

/-- The tree, once all is read. -/
def finished (growth : Growth) (stop : Nat) : Node :=
  (growth.around.foldl (fun growth _ => growth.leave stop) growth).innermost.closed stop

end Growth

/-- The tree of a source text. -/
def parse : Parser := fun source =>
  let start : Growth := ⟨{ kind := "program", start := 0 }, [], .nothing, none, true⟩
  let tag := byteCount (source.toList.take (markupLength source.toList))
  let grown := (fileTokens source).foldl Growth.read (start.leaf "php_tag" 0 tag)
  some (grown.finished source.utf8ByteSize)

end DocblockScan.Program.SourceCode
