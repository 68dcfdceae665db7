import FieldCopy.Directive.Basic
import FieldCopy.Fault
import FieldCopy.Text.Blank

/-!
# The forms of directives

Every directive has a name, a number of arguments and a way to read them.  `DirectiveForm.all` is
the list of them; a name that is not in it belongs to no directive.
-/

namespace FieldCopy

/-- What stands behind the name of a directive. -/
structure Arguments where
  /-- The words. -/
  words : List String
  /-- The text behind the first word. -/
  rest : String

namespace Arguments

/-- The word in this place, counted from zero. -/
def word (a : Arguments) (n : Nat) : String := a.words.getD n ""

end Arguments

/-- The form of a directive. -/
structure DirectiveForm where
  name : String
  least : Nat
  /-- The largest number of arguments, if there is one. -/
  most : Option Nat
  /-- The arguments as a message shows them. -/
  usage : String
  read : Arguments → Except Misconfiguration Directive

namespace DirectiveForm

/-- A directive without arguments. -/
def bare (name : String) (directive : Directive) : DirectiveForm :=
  ⟨name, 0, some 0, "", fun _ => .ok directive⟩

/-- A directive with one argument. -/
def one (name usage : String) (read : String → Except Misconfiguration Directive) : DirectiveForm :=
  ⟨name, 1, some 1, usage, fun a => read (a.word 0)⟩

/-- A directive with two arguments. -/
def two (name usage : String) (read : String → String → Directive) : DirectiveForm :=
  ⟨name, 2, some 2, usage, fun a => .ok (read (a.word 0) (a.word 1))⟩

/-- The name of a method without the parentheses of its call. -/
def methodName (written : String) : String :=
  String.ofList (Text.dropRepeatedEnd ['(', ')'] written.toList)

/-- The match rule that a word names. -/
def readMatching (word : String) : Except Misconfiguration Directive :=
  match MatchRule.ofText? word with
  | some r => .ok (.matching r)
  | none => .error (.unknownMatchRule word)

/-- The style that a word names. -/
def readStyle (word : String) : Except Misconfiguration Directive :=
  match Style.ofText? word with
  | some s => .ok (.style s)
  | none => .error (.unknownStyle word)

/-- The pattern that a word denotes. -/
def readSkip (word : String) : Except Misconfiguration Directive :=
  match SkipPattern.parse? word with
  | some p => .ok (.skip p)
  | none => .error .malformedPattern

/-- All directives. -/
def all : List DirectiveForm :=
  [bare "structcopygen" .marksInterface,
    one "match" "<algorithm>" readMatching,
    one "style" "<return|arg>" readStyle,
    one "recv" "<var>" fun w => .ok (.receiver w),
    bare "reverse" .reversed,
    bare "case" (.caseSensitive true),
    bare "case:off" (.caseSensitive false),
    bare "getter" (.getters true),
    bare "getter:off" (.getters false),
    bare "stringer" (.stringers true),
    bare "stringer:off" (.stringers false),
    bare "typecast" (.casts true),
    bare "typecast:off" (.casts false),
    one "skip" "<field>" readSkip,
    two "map" "<src> <dst>" .map,
    two "match_field" "<dst> <src>" .field,
    two "match_method" "<dst> <method>" fun f m => .method f (methodName m),
    ⟨"conv", 2, some 3, "<dst> <convert_func> [<src>]", fun a =>
      .ok (.converter (a.word 0) ⟨a.word 1, a.words[2]?⟩)⟩,
    one "struct_conv" "<convert_func>" fun w => .ok (.delegate w),
    ⟨"literal", 2, none, "<dst> <literal>", fun a => .ok (.literal (a.word 0) a.rest)⟩,
    one "preprocess" "<func>" fun w => .ok (.before w),
    one "postprocess" "<func>" fun w => .ok (.after w)]

/-- The form of the directive with this name. -/
def named? (name : String) : Option DirectiveForm := all.find? fun f => f.name == name

/-- The names of the directives that a trait takes. -/
def interfaceNames : List String := ["structcopygen"]

/-- The names of the directives that a method takes: all but those of a trait. -/
def methodNames : List String :=
  (all.map DirectiveForm.name).filter fun n => !interfaceNames.contains n

/-- Whether a directive takes this number of arguments. -/
def takes (f : DirectiveForm) (count : Nat) : Bool :=
  f.least ≤ count && f.most.all (count ≤ ·)

/-- What is wrong with a number of arguments that the directive does not take. -/
def wrongCount (f : DirectiveForm) : Misconfiguration :=
  if f.most = some 0 then .takesNoArgument f.name else .needsArguments f.name f.usage

end DirectiveForm

end FieldCopy
