import FieldCopy.Source.Grammar

/-!
# Names for serialization

A field can be serialized under a name of its own, which stands in an attribute:
`#[serde(rename = "name")]`.

**What is read.**  The attribute holds entries with commas between them; an entry is a path, alone,
with a value or with entries of its own in parentheses.  Reading ends at the first entry that is
malformed; what was read in front of it counts.  The last name that is read is the name.
-/

namespace FieldCopy

open Source Parser

namespace SerializedName

/-- Takes the path in front of an entry.  Any words may stand in it. -/
def path : Parser Path := do
  let rooted ← optionalMark "::"
  let first ← anyWord
  let rest ← repeatWhile (.mark "::") do mark "::"; anyWord
  pure (.mk rooted ((first :: rest).map fun n => .mk n .none))

/-- Takes an equals sign and a value behind it. -/
def value (g : Grammar) : Parser Unit := do
  mark "="
  let _ ← g.expression true

/-- Takes an entry among the entries of another. -/
def innerEntry (g : Grammar) : Parser Unit := do
  let _ ← path
  if ← ahead (.mark "=") then value g

/-- Takes the entries of an entry, one at least. -/
def innerEntries (g : Grammar) : Parser Unit := do
  expect (.notNext .nothing)
  let _ ← commas (innerEntry g)

/-- Takes an entry and returns the name that it gives. -/
def entry (g : Grammar) : Parser (Option String) := do
  let p ← path
  if p.isName "rename" && (← ahead (.mark "=")) then
    mark "="
    match Literal.stringValue? (← string) with
    | some name => pure (some name)
    | none => failure
  else if ← ahead (.mark "=") then
    value g
    pure none
  else if ← ahead (.group .parenthesis) then
    inside .parenthesis (innerEntries g)
    pure none
  else pure none

/-- The last name that the first entries give, at most `fuel` of them being read; `name` is the
name read so far. -/
def readFuel (g : Grammar) (name : Option String) : Nat → Tokens → Option String
  | 0, _ => name
  | n + 1, ts =>
      match entry g ts with
      | none => name
      | some (found, rest) =>
          let name := found <|> name
          match rest with
          | .mark ',' _ _ :: after => if after.isEmpty then name else readFuel g name n after
          | _ => name

/-- The name behind an attribute if `name` is the name in front of it. -/
def afterAttribute (name : Option String) (a : Source.Attribute) : Option String :=
  match a.content with
  | .tokens _ inner =>
      if a.path.isName "serde" then
        readFuel (Grammar.forTokens inner) name (inner.length + 1) inner
      else name
  | _ => name

/-- The name that attributes give a field. -/
def ofAttributes? (attributes : List Source.Attribute) : Option String :=
  attributes.foldl afterAttribute none

end SerializedName

end FieldCopy
