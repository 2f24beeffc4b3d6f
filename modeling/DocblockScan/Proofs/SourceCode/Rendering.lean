import DocblockScan.Proofs.SourceCode.Layout
import DocblockScan.Registration

/-!
# Source files as they are written

A source file as a tree of its own: namespaces that hold classes, interfaces, traits and
enums, which hold methods, whose bodies hold strings, comments and classes without a name.
Every file is laid out in one way: `SourceFile.parts`. Which classes it declares is read off
the file: `SourceFile.classes`. No reader of source code stands in this module.

Of the layout only namespaces, classes, their methods, the names of these and comments are
known as nodes. Everything that takes a line of its own starts with the line break before it.
-/

namespace DocblockScan.SourceCode

/-! ## Names and comments -/

/-- A character of a name: a letter or digit, an underscore, or a character beyond the first
128 that has a number of 16 bits and is none of four blanks. -/
def isNameChar (char : Char) : Bool :=
  char.isAlphanum || char == '_' ||
    (0x80 ≤ char.toNat && char.toNat ≤ 0xffff &&
      !(['\u00a0', '\u200b', '\u2060', '\ufeff'].contains char))

/-- Whether a text is a word: one or more characters of names. -/
def isWord (text : String) : Bool :=
  !text.toList.isEmpty && text.toList.all isNameChar

/-- A name: a word that does not start with a digit. -/
structure Identifier where
  text : String
  word : isWord text = true
  start : text.toList.head?.any Char.isDigit = false

/-- The name of a namespace, segment by segment. -/
structure NamespacePath where
  first : Identifier
  others : List Identifier

/-- Segments with a backslash before each. -/
def segmentsText (segments : List Identifier) : String :=
  String.join (segments.map fun segment => "\\" ++ segment.text)

/-- The name of a namespace as it is written. -/
def NamespacePath.text (path : NamespacePath) : String :=
  path.first.text ++ segmentsText path.others

/-- Whether a character ends a line. -/
def isLineEnd (char : Char) : Bool :=
  char == '\n' || char == '\r'

/-- A comment: a docblock, another comment between marks, or the rest of a line. What is
inside does not end the comment; a question mark last on a line would take in the end of
the line. -/
inductive Comment where
  | docblock (content : List Char) (closed : ¬ ['*', '/'] <:+: '*' :: content)
  | block (content : List Char) (closed : ¬ ['*', '/'] <:+: content)
  | remark (content : List Char) (oneLine : content.all (!isLineEnd ·) = true)
      (inside : ¬ ['?', '>'] <:+: content) (finished : content.getLast? ≠ some '?')

/-- A comment with its marks. -/
def Comment.text : Comment → String
  | .docblock content _ => docblockMark ++ .ofList content ++ "*/"
  | .block content _ => "/* " ++ .ofList content ++ "*/"
  | .remark content _ _ _ => "// " ++ .ofList content

/-- The docblock that a comment is. -/
def Comment.docblock? (comment : Comment) : Option String :=
  match comment with
  | .docblock .. => some comment.text
  | _ => none

/-- The docblock of a declaration with some comments before it: the last of them, if it
is one. -/
def docOf (lead : List Comment) : Option String :=
  lead.getLast?.bind Comment.docblock?

/-! ## Declarations -/

/-- The words that may stand before the keyword of a class. -/
def classModifiers : List String := ["abstract", "final", "readonly"]

/-- The words that may stand before the keyword of a method. -/
def methodModifiers : List String :=
  ["abstract", "final", "public", "protected", "private", "static"]

/-- A method without its body. -/
structure MethodHead where
  lead : List Comment
  modifiers : List String
  known : modifiers ⊆ methodModifiers
  name : Identifier

mutual

/-- A statement in the body of a method: it puts a string or an object of a class without
a name into a variable, or is only a comment. -/
inductive Statement where
  | string (content : String)
  | object (parent : Option Identifier) (methods : List Method)
  | comment (comment : Comment)

/-- A method, without or with a body. -/
inductive Method where
  | declared (head : MethodHead)
  | defined (head : MethodHead) (body : List Statement)

end

/-- The part of a method before its body. -/
def Method.head : Method → MethodHead
  | .declared head => head
  | .defined head _ => head

/-- The declaration of a method: its name and its docblock. -/
def Method.declaration (method : Method) : MethodDeclaration :=
  ⟨method.head.name.text, docOf method.head.lead⟩

/-- A class with a name. -/
structure NamedClass where
  lead : List Comment
  modifiers : List String
  known : modifiers ⊆ classModifiers
  name : Identifier
  parent : Option Identifier
  methods : List Method

/-- What declares methods like a class, but is none. -/
inductive OtherKind where
  | interface
  | trait
  | enum
deriving DecidableEq

/-- The keyword of an interface, a trait or an enum. -/
def OtherKind.keyword : OtherKind → String
  | .interface => "interface"
  | .trait => "trait"
  | .enum => "enum"

/-- A declaration in a namespace. -/
inductive Definition where
  | named (declared : NamedClass)
  | other (kind : OtherKind) (lead : List Comment) (name : Identifier) (methods : List Method)

/-- A source file: namespaces that each start with a statement, namespaces with braces, of
which some may have no name, or no namespace at all. -/
inductive SourceFile where
  | statements (blocks : List (NamespacePath × List Definition))
  | braced (blocks : List (Option NamespacePath × List Definition))
  | global (definitions : List Definition)

/-! ## The layout of a file -/

/-- A line break and the indentation of the next line. -/
def lineBreak (level : Nat) : String :=
  .ofList ('\n' :: List.replicate (4 * level) ' ')

/-- A comment is a node. -/
def Comment.part (comment : Comment) : Part :=
  .node "comment" none [.gap comment.text]

/-- Comments, each on lines of its own. -/
def leadParts (level : Nat) (lead : List Comment) : List Part :=
  lead.flatMap fun comment => [.gap (lineBreak level), comment.part]

/-- Modifiers with a blank after each. -/
def modifierParts (modifiers : List String) : List Part :=
  modifiers.flatMap fun modifier => [.other modifier, .gap " "]

/-- The name of a class or a method. -/
def Identifier.part (name : Identifier) : Part :=
  .node "name" (some "name") [.gap name.text]

/-- The clause that names the parent of a class. -/
def parentParts (parent : Option Identifier) : List Part :=
  parent.elim [] fun name => [.other ("extends " ++ name.text), .gap " "]

/-- Parts between braces, which close on a line of their own. -/
def bracedParts (level : Nat) (inside : List Part) : List Part :=
  .other "\x7b" :: inside ++ [.gap (lineBreak level), .other "\x7d"]

/-- The body of a declaration. -/
def bodyPart (kind : String) (level : Nat) (inside : List Part) : Part :=
  .node kind (some "body") (bracedParts level inside)

/-- A method with what comes after its parameters. -/
def MethodHead.parts (level : Nat) (head : MethodHead) (rest : List Part) : List Part :=
  leadParts level head.lead ++
    [.gap (lineBreak level),
      .node "method_declaration" none
        (modifierParts head.modifiers ++
          [.other "function", .gap " ", head.name.part, .other "()"] ++ rest)]

mutual

/-- The text of a statement. -/
def Statement.text (level : Nat) : Statement → String
  | .string content => lineBreak level ++ "$text = " ++ Registration.quote content ++ ";"
  | .object parent methods =>
      lineBreak level ++ "$object = new class " ++ textOf (parentParts parent) ++ "\x7b" ++
        textOf (methodsParts (level + 1) methods) ++ lineBreak level ++ "\x7d;"
  | .comment comment => lineBreak level ++ comment.text

/-- The text of some statements. -/
def statementsText (level : Nat) : List Statement → String
  | [] => ""
  | statement :: others => statement.text level ++ statementsText level others

/-- The layout of a method. -/
def Method.parts (level : Nat) : Method → List Part
  | .declared head => head.parts level [.other ";"]
  | .defined head body =>
      head.parts level [.gap " ",
        .other ("\x7b" ++ statementsText (level + 1) body ++ lineBreak level ++ "\x7d")]

/-- The layout of some methods. -/
def methodsParts (level : Nat) : List Method → List Part
  | [] => []
  | method :: others => method.parts level ++ methodsParts level others

end

/-- What stands in the declaration of a class before its body. -/
def NamedClass.headParts (declared : NamedClass) : List Part :=
  modifierParts declared.modifiers ++ [.other "class", .gap " ", declared.name.part, .gap " "] ++
    parentParts declared.parent

/-- The layout of a declaration. -/
def Definition.parts (level : Nat) : Definition → List Part
  | .named declared =>
      leadParts level declared.lead ++
        [.gap (lineBreak level),
          .node "class_declaration" none (declared.headParts ++
            [bodyPart "declaration_list" level (methodsParts (level + 1) declared.methods)])]
  | .other kind lead name methods =>
      leadParts level lead ++
        [.gap (lineBreak level),
          .other (kind.keyword ++ " " ++ name.text ++ " \x7b" ++
            textOf (methodsParts (level + 1) methods) ++ lineBreak level ++ "\x7d")]

/-- The layout of some declarations. -/
def definitionsParts (level : Nat) (definitions : List Definition) : List Part :=
  definitions.flatMap (Definition.parts level)

/-- A keyword or a mark, which is a node of its own kind. -/
def tokenPart (text : String) : Part :=
  .node text none [.gap text]

/-- The name of a namespace. -/
def NamespacePath.part (path : NamespacePath) : Part :=
  .node "namespace_name" (some "name") [.other path.text]

/-- The statement that a namespace starts with. -/
def NamespacePath.statementParts (path : NamespacePath) : List Part :=
  [tokenPart "namespace", .gap " ", path.part, tokenPart ";"]

/-- A namespace that starts with a statement. -/
def statementBlockParts (block : NamespacePath × List Definition) : List Part :=
  [.gap (lineBreak 0), .node "namespace_definition" none block.1.statementParts] ++
    definitionsParts 0 block.2

/-- What stands in the declaration of a namespace with braces before them. -/
def namespaceHeadParts (name : Option NamespacePath) : List Part :=
  [tokenPart "namespace", .gap " "] ++ name.elim [] fun path => [path.part, .gap " "]

/-- A namespace with braces. -/
def bracedBlockParts (block : Option NamespacePath × List Definition) : List Part :=
  [.gap (lineBreak 0),
    .node "namespace_definition" none
      (namespaceHeadParts block.1 ++
        [bodyPart "compound_statement" 0 (definitionsParts 1 block.2)])]

/-- The layout of a file after its opening tag. -/
def SourceFile.bodyParts : SourceFile → List Part
  | .statements blocks => blocks.flatMap statementBlockParts
  | .braced blocks => blocks.flatMap bracedBlockParts
  | .global definitions => definitionsParts 0 definitions

/-- The layout of a file. -/
def SourceFile.parts (file : SourceFile) : List Part :=
  .other "<?php" :: file.bodyParts

/-- The text of a file. -/
def SourceFile.render (file : SourceFile) : String :=
  textOf file.parts

/-! ## The classes of a file -/

/-- The full name of a class in a namespace. No namespace is the empty text. -/
def qualified (namespaceName className : String) : String :=
  if namespaceName = "" then className else namespaceName ++ "\\" ++ className

/-- The full name of a class in a namespace without blanks around the two names. -/
def joined (namespaceName className : String) : String :=
  Namespace.join [namespaceName, className]

/-- The class that a declaration declares in a namespace, given how the names of the two
make up its full name. -/
def Definition.class? (fullName : String → String → String) (namespaceName : String) :
    Definition → Option ClassDeclaration
  | .named declared =>
      some ⟨fullName namespaceName declared.name.text, docOf declared.lead,
        declared.methods.map Method.declaration, none⟩
  | .other .. => none

/-- Some namespaces and the declarations in them. -/
def SourceFile.blocks : SourceFile → List (String × List Definition)
  | .statements blocks => blocks.map fun block => (block.1.text, block.2)
  | .braced blocks => blocks.map fun block => (block.1.elim "" NamespacePath.text, block.2)
  | .global definitions => [("", definitions)]

/-- The classes that a file declares, in source order. -/
def SourceFile.classes (fullName : String → String → String) (file : SourceFile) :
    List ClassDeclaration :=
  file.blocks.flatMap fun block => block.2.filterMap (Definition.class? fullName block.1)

end DocblockScan.SourceCode
