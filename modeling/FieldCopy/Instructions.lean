import FieldCopy.Keyed
import FieldCopy.Position
import FieldCopy.SkipPattern

/-!
# Instructions for a conversion

What the directives of one method say about the conversion that it stands for.

**Names and case.**  Field names are compared under the case rule of the instructions, whichever
directive set it and wherever it stood.
-/

namespace FieldCopy

/-- How the fields of the destination are paired with members of the source. -/
inductive MatchRule where
  | name
  /-- By the names under which fields are serialized. -/
  | tag
  /-- Only overrides and literals produce fields. -/
  | none
  deriving DecidableEq

namespace MatchRule

/-- The word for a rule. -/
def text : MatchRule → String
  | name => "name"
  | tag => "tag"
  | none => "none"

/-- The rule with this word. -/
def ofText? : String → Option MatchRule
  | "name" => some name
  | "tag" => some tag
  | "none" => some .none
  | _ => Option.none

end MatchRule

/-- Where a conversion writes its result. -/
inductive Style where
  /-- The destination is the result. -/
  | result
  /-- The destination is an argument. -/
  | argument
  deriving DecidableEq

namespace Style

/-- The style with this word. -/
def ofText? : String → Option Style
  | "return" => some result
  | "arg" => some argument
  | _ => none

end Style

/-- A function that a directive names, with the position of the directive. -/
structure FunctionRef where
  name : String
  position : Position
  deriving DecidableEq

/-- A function that converts a value, with the path of its input unless the input is the source
member of the same name. -/
structure Converter where
  function : String
  source : Option String
  deriving DecidableEq

/-- What the directives of a method say. -/
structure Instructions where
  matching : MatchRule
  caseSensitive : Bool
  /-- Whether getters of the source may be used. -/
  getters : Bool
  /-- Whether a source member may be turned into text. -/
  stringers : Bool
  /-- Whether a source member may be converted to a basic type. -/
  casts : Bool
  style : Style
  /-- Whether the source is the first argument and the destination the second. -/
  reversed : Bool
  /-- The parameter that becomes the receiver of a method. -/
  receiver : Option String
  skips : List SkipPattern
  fieldOverrides : Keyed String
  methodOverrides : Keyed String
  converters : Keyed Converter
  literals : Keyed String
  /-- The function that converts the elements of a slice. -/
  delegate : Option FunctionRef
  before : Option FunctionRef
  after : Option FunctionRef
  deriving BEq

namespace Instructions

/-- What holds without directives. -/
def default : Instructions where
  matching := .name
  caseSensitive := true
  getters := false
  stringers := false
  casts := false
  style := .result
  reversed := false
  receiver := none
  skips := []
  fieldOverrides := .empty
  methodOverrides := .empty
  converters := .empty
  literals := .empty
  delegate := none
  before := none
  after := none

instance : Inhabited Instructions := ⟨default⟩

/-- Whether a field of the destination is to be left alone. -/
def skipped (i : Instructions) (field : String) : Bool :=
  i.skips.any fun p => p.accepts field i.caseSensitive

/-- Whether two names are the same under the case rule. -/
def sameName (i : Instructions) (a b : String) : Bool :=
  if i.caseSensitive then a == b else sameIgnoringCase a b

/-- The value of the override for a field: for its own name, or, ignoring case, for the first name
in order that differs in case only. -/
def override? {α : Type} (i : Instructions) (table : Keyed α) (field : String) : Option α :=
  match table.find? field with
  | some a => some a
  | none =>
      if i.caseSensitive then none
      else (table.entries.find? fun e => sameIgnoringCase e.1 field).map (·.2)

end Instructions

end FieldCopy
