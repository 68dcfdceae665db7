/-!
# JSON trees

The values that a report is made of, and their printed form: every member of an array or an object
on a line of its own, two spaces further in than what holds it.  The members of an object keep
their order.
-/

namespace FieldCopy

/-- A JSON value. -/
inductive Json where
  | null
  | bool (b : Bool)
  | number (n : Nat)
  | text (s : String)
  | array (items : List Json)
  | object (members : List (String × Json))

namespace Json

/-- A value that may lack. -/
def option {α : Type} (f : α → Json) : Option α → Json
  | some a => f a
  | none => null

/-- The values of a list. -/
def list {α : Type} (f : α → Json) (items : List α) : Json := array (items.map f)

/-! ## Printing -/

/-- A lower case hexadecimal digit. -/
def hexDigit (n : Nat) : Char := ("0123456789abcdef".toList)[n]?.getD '0'

/-- How one character is written between quotes. -/
def escapeChar (c : Char) : List Char :=
  if c = '"' then ['\\', '"']
  else if c = '\\' then ['\\', '\\']
  else if c = '\n' then ['\\', 'n']
  else if c = '\r' then ['\\', 'r']
  else if c = '\t' then ['\\', 't']
  else if c = '\x08' then ['\\', 'b']
  else if c = '\x0c' then ['\\', 'f']
  else if c.toNat < 32 then
    ['\\', 'u', '0', '0', hexDigit (c.toNat / 16), hexDigit (c.toNat % 16)]
  else [c]

/-- A text in quotes. -/
def quote (s : String) : List Char := '"' :: s.toList.flatMap escapeChar ++ ['"']

/-- The beginning of a line inside `depth` arrays and objects. -/
def newLine (depth : Nat) : List Char := '\n' :: List.replicate (2 * depth) ' '

mutual

/-- The printed form of a value inside `depth` arrays and objects. -/
def print (depth : Nat) : Json → List Char
  | null => "null".toList
  | bool b => (if b then "true" else "false").toList
  | number n => (toString n).toList
  | text s => quote s
  | array [] => ['[', ']']
  | array (a :: rest) =>
      '[' :: newLine (depth + 1) ++ a.print (depth + 1) ++ printItems depth rest
  | object [] => ['\x7b', '\x7d']
  | object (m :: rest) =>
      '\x7b' :: newLine (depth + 1) ++ printMember depth m ++ printMembers depth rest

/-- The printed form of the rest of an array. -/
def printItems (depth : Nat) : List Json → List Char
  | [] => newLine depth ++ [']']
  | a :: rest => ',' :: newLine (depth + 1) ++ a.print (depth + 1) ++ printItems depth rest

/-- The printed form of a member of an object. -/
def printMember (depth : Nat) : String × Json → List Char
  | (key, value) => quote key ++ ':' :: ' ' :: value.print (depth + 1)

/-- The printed form of the rest of an object. -/
def printMembers (depth : Nat) : List (String × Json) → List Char
  | [] => newLine depth ++ ['\x7d']
  | m :: rest => ',' :: newLine (depth + 1) ++ printMember depth m ++ printMembers depth rest

end

/-- The printed form of a value. -/
def pretty (j : Json) : String := String.ofList (j.print 0)

end Json

end FieldCopy
