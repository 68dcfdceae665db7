import FieldCopy.Text.Blank

/-!
# Generated code

Expressions, statements, functions and files of generated code, and their text.

**Text.**  The text of a statement is a list of lines, because the lines of what stands inside a
function or a loop are indented (`Lines.indent`).  A text from elsewhere may bring line ends of its
own (`Lines.ofText`).
-/

namespace FieldCopy

/-! ## Lines -/

namespace Lines

/-- The lines that a text fills when it is written on a line of its own. -/
def ofText (s : String) : List String :=
  let endsOpen := s.toList.getLast?.all (· == '\n')
  (Text.lines s.toList).map String.ofList ++ if endsOpen then [""] else []

/-- A line inside a block.  An empty line stays empty. -/
def indentLine (l : String) : String := if l.isEmpty then l else "    " ++ l

/-- The lines of a block's content. -/
def indent (ls : List String) : List String := ls.map indentLine

/-- A head with a block behind it. -/
def block (head : String) (content : List String) : List String :=
  ofText (head ++ " \x7b") ++ indent content ++ ["\x7d"]

end Lines

/-! ## Expressions -/

/-- An expression of generated code. -/
inductive Expression where
  /-- A variable, or an expression given as text. -/
  | verbatim (text : String)
  /-- A path of members behind a variable. -/
  | member (owner path : String)
  | reference (mutable : Bool) (e : Expression)
  | dereference (e : Expression)
  | call (function : String) (arguments : List Expression)
  | methodCall (subject : Expression) (method : String) (arguments : List Expression)
  /-- A conversion between primitive types. -/
  | cast (e : Expression) (type : String)
  /-- The value of a fallible expression; a failure leaves the function. -/
  | propagate (e : Expression)
  deriving Inhabited

namespace Expression

/-- The variable through which a method reaches its receiver. -/
def self : Expression := verbatim "self"

/-- A call without arguments of a method of an expression. -/
def invoke (e : Expression) (method : String) : Expression := methodCall e method []

/-- A copy of a value. -/
def clone (e : Expression) : Expression := e.invoke "clone"

/-- The value of an expression that can fail if `fallible` says so. -/
def checked (fallible : Bool) (e : Expression) : Expression :=
  if fallible then propagate e else e

mutual

/-- The text of an expression. -/
def text : Expression → String
  | verbatim t => t
  | member v p => v ++ "." ++ p
  | reference mutable e => (if mutable then "&mut " else "&") ++ e.text
  | dereference e => "*" ++ e.text
  | call f arguments => f ++ "(" ++ argumentsText arguments ++ ")"
  | methodCall e m arguments => e.text ++ "." ++ m ++ "(" ++ argumentsText arguments ++ ")"
  | cast e t => e.text ++ " as " ++ t
  | propagate e => e.text ++ "?"

/-- The text of the arguments of a call. -/
def argumentsText : List Expression → String
  | [] => ""
  | [e] => e.text
  | e :: rest => e.text ++ ", " ++ argumentsText rest

end

end Expression

/-! ## Statements -/

/-- A statement of generated code. -/
inductive Statement where
  | declare (mutable : Bool) (name : String) (value : Expression)
  | assign (target value : Expression)
  | run (e : Expression)
  | comment (text : String)
  /-- A loop over the items of a collection. -/
  | loop (item : String) (items : Expression) (body : List Statement)
  /-- The value of a function, at its end. -/
  | give (value : Expression)
  deriving Inhabited

namespace Statement

mutual

/-- The lines of a statement. -/
def lines : Statement → List String
  | declare mutable v e =>
      Lines.ofText ("let " ++ (if mutable then "mut " else "") ++ v ++ " = " ++ e.text ++ ";")
  | assign t e => Lines.ofText (t.text ++ " = " ++ e.text ++ ";")
  | run e => Lines.ofText (e.text ++ ";")
  | comment t => Lines.ofText ("// " ++ t)
  | loop v items body => Lines.block ("for " ++ v ++ " in " ++ items.text) (linesAll body)
  | give e => Lines.ofText e.text

/-- The lines of a list of statements. -/
def linesAll : List Statement → List String
  | [] => []
  | s :: rest => s.lines ++ linesAll rest

end

end Statement

/-! ## Functions and files -/

/-- What a function gives. -/
structure ResultType where
  /-- The type of the value, if there is one. -/
  value : Option String
  /-- The type of the failure, if the function can fail. -/
  failure : Option String
  deriving DecidableEq

/-- The text behind the parameters of a function for what it gives. -/
def ResultType.text (r : ResultType) : String :=
  match r.value, r.failure with
  | none, none => ""
  | some v, none => " -> " ++ v
  | v, some f => " -> Result<" ++ v.getD "()" ++ ", " ++ f ++ ">"

/-- How a method takes its receiver. -/
inductive SelfForm where
  | value
  | reference
  | mutableReference
  deriving DecidableEq

/-- The text of a receiver among the parameters. -/
def SelfForm.text : SelfForm → String
  | value => "self"
  | reference => "&self"
  | mutableReference => "&mut self"

/-- The type that a function is a method of, and how it takes its receiver. -/
structure MethodHead where
  owner : String
  form : SelfForm
  deriving DecidableEq

/-- A generated function. -/
structure FunctionCode where
  docs : List String
  head : Option MethodHead
  name : String
  /-- The names of the parameters with their types, without the receiver. -/
  parameters : List (String × String)
  result : ResultType
  body : List Statement

namespace FunctionCode

/-- The lines of a function's documentation. -/
def docLines (docs : List String) : List String :=
  (Text.lines ("\n".intercalate docs).toList).map fun l =>
    if l.isEmpty then "///" else "/// " ++ String.ofList l

/-- The line in front of a function's body. -/
def headText (f : FunctionCode) : String :=
  let self := f.head.toList.map fun h => h.form.text
  let parameters := self ++ f.parameters.map fun p => p.1 ++ ": " ++ p.2
  "pub fn " ++ f.name ++ "(" ++ ", ".intercalate parameters ++ ")" ++ f.result.text

/-- The lines of a function. -/
def lines (f : FunctionCode) : List String :=
  let function := docLines f.docs ++ Lines.block f.headText (Statement.linesAll f.body)
  match f.head with
  | none => function
  | some h => Lines.block ("impl " ++ h.owner) function

end FunctionCode

/-- A part of a generated file. -/
inductive CodeItem where
  | text (s : String)
  | function (f : FunctionCode)

/-- The lines of a part of a file. -/
def CodeItem.lines : CodeItem → List String
  | text s => Lines.ofText s
  | function f => f.lines

/-- The text of a file.  An empty line stands between two parts. -/
def codeText (items : List CodeItem) : String :=
  "\n".intercalate ((items.map CodeItem.lines).intersperse [""]).flatten

end FieldCopy
