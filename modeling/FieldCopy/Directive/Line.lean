import FieldCopy.Directive.Form

/-!
# Lines with directives

A line of a documentation comment holds a directive if it has the form

    blanks  marker  blanks  : name  blanks  rest

where the marker, two slashes or more, may be missing.  The name is the text up to the next blank
and must not be empty; no line end may stand in the rest.

**Reading.**  `Annotation.directive` reads one line.  `Instructions.ofLines` reads all lines of a
method and puts together what they say.  A line whose directive is unknown, or not taken here, is
passed over with a warning; every other defect is a fault that ends the reading.
-/

namespace FieldCopy

/-- A line of a documentation comment, with its position. -/
structure Annotation where
  text : String
  position : Position
  deriving DecidableEq

namespace Annotation

/-- A text without a marker of two slashes or more at its front. -/
def dropMarker (s : List Char) : List Char :=
  if ['/', '/'].isPrefixOf s then s.dropWhile (· = '/') else s

/-- The name of the directive in a line and what follows it, without blanks in between. -/
def split? (s : List Char) : Option (List Char × List Char) :=
  match Text.trimStart (dropMarker (Text.trimStart s)) with
  | ':' :: named =>
      let (name, after) := Text.word named
      let rest := Text.trimStart after
      if name.isEmpty || rest.contains '\n' then none else some (name, rest)
  | _ => none

/-- The text behind the first word of a text and the blanks that follow it. -/
def behindWord (s : List Char) : List Char := Text.trimStart (Text.word s).2

/-- The arguments that stand behind the name of a directive. -/
def arguments (rest : List Char) : Arguments :=
  let tail := Text.trimEnd rest
  ⟨(Text.words tail).map String.ofList, String.ofList (behindWord tail)⟩

/-- The directive in a line, if its name is one of `valid`. -/
def directive (valid : List String) (line : Annotation) : Attempt (Option Directive) := do
  let p := line.position
  match split? line.text.toList with
  | none => throw (.malformed p line.text)
  | some (name, rest) =>
      let name := String.ofList name
      match (DirectiveForm.named? name).filter fun f => valid.contains f.name with
      | none =>
          Attempt.warnAt p ("\":" ++ name ++ "\" is invalid or unknown notation here")
          pure none
      | some form =>
          let a := arguments rest
          if !form.takes a.words.length then throw (.misconfigured p form.wrongCount)
          else
            match form.read a with
            | .error cause => throw (.misconfigured p cause)
            | .ok d =>
                Attempt.log .trace (p.text ++ ": " ++ d.label)
                pure (some d)

end Annotation

namespace Instructions

/-- What the lines so far say, and where the last directive stands that reverses the arguments. -/
structure Reading where
  instructions : Instructions
  reversedAt : Option Position

/-- What the lines say behind one more line. -/
def readLine (valid : List String) (r : Reading) (line : Annotation) : Attempt Reading := do
  match ← line.directive valid with
  | none => pure r
  | some d =>
      let o := d.apply line.position r.instructions
      if let some field := o.replaced then
        Attempt.warnAt line.position
          ("override for \"" ++ field ++ "\" replaces an earlier one")
      pure ⟨o.instructions, if d.isReversed then some line.position else r.reversedAt⟩

/-- What a list of lines says, each directive being one of `valid`. -/
def ofLines (valid : List String) (lines : List Annotation) : Attempt Instructions := do
  let r ← lines.foldlM (readLine valid) ⟨default, none⟩
  match r.reversedAt with
  | some p =>
      if r.instructions.style = .result then throw (.misconfigured p .reversedResult)
      else pure r.instructions
  | none => pure r.instructions

end Instructions

end FieldCopy
