import FieldCopy.Source.Grammar.Expressions

/-!
# Items

The parsers of what a source file consists of: functions, structures, enumerations, traits,
implementations, modules, imports and the items that the program passes over.

**Passed over** are not only items without interest but also forms that no compiler accepts in
their place, such as an implementation with a visibility: they are read and become `Item.other`.
-/

namespace FieldCopy.Source.Grammar

open Source.Parser

/-! ## What stands in front of an item -/

/-- The words that may stand alone between the parentheses of a visibility. -/
def visibilityScopes : List String := ["crate", "self", "super"]

/-- Takes the visibility of an item.  Parentheses that name no scope are left to be parsed. -/
def visibility : Parser Visibility := do
  if ← optionalWord "pub" then
    match ← get with
    | .group .parenthesis [.word w _] _ :: _ =>
        if visibilityScopes.contains w then
          let _ ← any
          pure (.within (Path.ofName w))
        else pure .everywhere
    | .group .parenthesis (.word "in" _ :: _) _ :: _ =>
        inside .parenthesis do
          word "in"
          pure (.within (← plainPath))
    | _ => pure .everywhere
  else pure .inherited

/-- Takes this word if it stands next and no exclamation mark follows it. -/
def optionalModifier (w : String) : Parser Bool := do
  if ← ahead (.allOf [.word w, .notNext (.second (.mark "!"))]) then optionalWord w else pure false

/-- The modifiers in front of a function's head, without their tokens. -/
def functionModifiers (foreign : Bool) : Parser Unit := do
  let _ ← optionalWord "const"
  let _ ← optionalWord "async"
  let _ ← if foreign && (← ahead (.word "safe")) then optionalWord "safe" else optionalWord "unsafe"
  if ← ahead (.word "extern") then
    let _ ← abi

/-- The head of a function stands next. -/
def functionAhead (foreign : Bool) : Ahead := fun ts =>
  match functionModifiers foreign ts with
  | some ((), rest) => Ahead.word "fn" rest
  | none => false

/-- A macro call stands next, if nothing else does. -/
def callAhead : Ahead := .anyOf [.name, .oneWord ["self", "super", "crate"], .mark "::"]

/-- Takes the delimited arguments of a macro call; a semicolon must follow unless they are in
braces. -/
def callEnd : Parser Unit := do
  let braced ← ahead (.group .brace)
  let _ ← anyGroup
  if !braced then mark ";"

/-- Takes a macro call that stands among the members of a trait or an implementation. -/
def memberCall : Parser Unit := do
  let _ ← plainPath
  mark "!"
  callEnd

/-- Takes a name or an underscore. -/
def nameOrUnderscore : Parser String := do
  if ← ahead (.word "_") then anyWord else name

section

variable (g : Grammar)

/-! ## Functions -/

/-- Takes the receiver of a method. -/
def receiver : Parser Unit := do
  let isReference ← optionalMark "&"
  if isReference then
    let _ ← optionalLifetime
  let _ ← optionalWord "mut"
  word "self"
  if !isReference && (← optionalMark ":") then
    let _ ← g.type true

/-- What stands among the parameters of a function. -/
inductive ParameterForm where
  | receiver
  | typed (parameter : Parameter)
  /-- The dots for any number of further arguments. -/
  | variadic

/-- Takes a parameter with a type. -/
def typedParameter : Parser ParameterForm := do
  if ← ahead (.allOf [.name, .second (.mark "<")]) then
    pure (.typed ⟨none, ← g.type true⟩)
  else
    let pattern ← g.pattern
    mark ":"
    if ← optionalMark "..." then pure .variadic
    else pure (.typed ⟨pattern.name, ← g.type true⟩)

/-- Takes a parameter of a function. -/
def parameterForm : Parser ParameterForm := do
  let _ ← outerAttributes g
  if ← optionalMark "..." then pure .variadic
  else (do receiver g; pure .receiver) <|> typedParameter g

/-- Takes the parameters of a function, at most `fuel` of them; `isFirst` tells whether a
receiver may come.  The result tells also whether one came. -/
def parametersFuel (isFirst : Bool) : Nat → Parser (Bool × List Parameter)
  | 0 => failure
  | n + 1 => do
      if ← ahead .nothing then pure (false, [])
      else
        let form ← parameterForm g
        let next : Parser (Bool × List Parameter) := do
          if ← ahead .nothing then pure (false, [])
          else
            mark ","
            parametersFuel false n
        match form with
        | .variadic =>
            let _ ← optionalMark ","
            expect .nothing
            pure (false, [])
        | .receiver => if isFirst then pure (true, (← next).2) else failure
        | .typed p =>
            let (_, rest) ← next
            pure (false, p :: rest)

/-- Takes the parameters of a function. -/
def parameters : Parser (Bool × List Parameter) := fun ts =>
  parametersFuel g true (ts.length + 1) ts

/-- Takes the head of a function. -/
def signature (foreign : Bool) : Parser Signature := do
  functionModifiers foreign
  word "fn"
  let (n, place) ← placedName
  let _ ← generics g
  let (hasReceiver, parameters) ← inside .parenthesis (parameters g)
  let result ← result g
  let _ ← whereClause g
  pure ⟨n, place, hasReceiver, parameters, result⟩

/-- Takes the body of a function and returns the attributes at its beginning. -/
def body : Parser (List Attribute) := inside .brace do
  let attributes ← innerAttributes g
  let _ ← g.statements
  pure attributes

/-- Takes a function's head and its body, or the semicolon in place of a body. -/
def functionOrHead (foreign : Bool) : Parser (Signature × Option (List Attribute)) := do
  let s ← signature g foreign
  if ← optionalMark ";" then pure (s, none) else pure (s, some (← body g))

/-! ## Constants and types -/

/-- Takes an expression. -/
def skipExpression : Parser Unit := do
  let _ ← g.expression true

/-- Takes a value behind an equals sign, if there is one. -/
def optionalValue : Parser Unit := do
  if ← optionalMark "=" then skipExpression g

/-- Takes a constant behind its keyword. -/
def constant : Parser Unit := do
  let _ ← nameOrUnderscore
  let _ ← generics g
  mark ":"
  let _ ← g.type true
  optionalValue g
  let _ ← whereClause g
  mark ";"

/-- Takes a static variable.  It may lack its type if it has a value. -/
def staticItem : Parser Unit := do
  word "static"
  let _ ← optionalWord "mut"
  let _ ← name
  if ← optionalMark "=" then skipExpression g
  else
    mark ":"
    let _ ← g.type true
    optionalValue g
  mark ";"

/-- Takes bounds up to where the test holds. -/
def boundsUntil (stop : Ahead) : Parser Unit := do
  let _ ← separatedPieces stop "+" (boundPieces g)

/-- Takes the name of a type, or its associated type, with its bounds and its definition.  A where
clause may stand in front of the definition, behind it, or both where `before` and `behind`
say so. -/
def typeItem (before behind : Bool) : Parser Unit := do
  word "type"
  let _ ← name
  let _ ← generics g
  if ← ahead .colon then
    mark ":"
    boundsUntil g (.anyOf [.word "where", .mark "=", .mark ";"])
  let hasWhere ← if before then whereClause g else pure false
  if ← optionalMark "=" then
    let _ ← g.type true
  if behind && !hasWhere then
    let _ ← whereClause g
  mark ";"

/-! ## Structures and enumerations -/

/-- Takes a named field.  One without a name may hold fields of its own. -/
def namedFieldFuel : Nat → Parser Field
  | 0 => failure
  | n + 1 => do
      let attributes ← outerAttributes g
      let _ ← visibility
      let fieldName ← nameOrUnderscore
      mark ":"
      let nested : Ahead := .anyOf
        [.word "struct", .allOf [.word "union", .second (.group .brace)]]
      if fieldName == "_" && (← ahead nested) then
        let _ ← anyWord
        let _ ← inside .brace (commas (namedFieldFuel n))
        pure ⟨attributes, fieldName, .other []⟩
      else pure ⟨attributes, fieldName, ← g.type true⟩

/-- Takes the braces with the named fields of a structure. -/
def namedFields : Parser (List Field) := fun ts =>
  inside .brace ((·.1) <$> commas (namedFieldFuel g (Token.sizeAll ts))) ts

/-- Takes a field without a name. -/
def positionalField : Parser Unit := do
  let _ ← outerAttributes g
  let _ ← visibility
  let _ ← g.type true

/-- Takes the parentheses with the fields of a tuple structure. -/
def positionalFields : Parser Unit := do
  let _ ← inside .parenthesis (commas (positionalField g))

/-- Takes the fields of a structure behind its name and generic parameters. -/
def structureFields : Parser (List Field) := do
  let hasWhere ← whereClause g
  if !hasWhere && (← ahead (.group .parenthesis)) then
    positionalFields g
    let _ ← whereClause g
    mark ";"
    pure []
  else if ← ahead (.group .brace) then namedFields g
  else
    mark ";"
    pure []

/-- Takes a structure. -/
def structureItem : Parser Item := do
  word "struct"
  let n ← name
  let _ ← generics g
  pure (.record n (← structureFields g))

/-- Takes a variant of an enumeration. -/
def variant : Parser Unit := do
  let _ ← outerAttributes g
  let _ ← visibility
  let _ ← name
  if ← ahead (.group .brace) then
    let _ ← namedFields g
  else if ← ahead (.group .parenthesis) then positionalFields g
  optionalValue g

/-- Takes an enumeration. -/
def enumerationItem : Parser Item := do
  word "enum"
  let n ← name
  let _ ← generics g
  let _ ← whereClause g
  let _ ← inside .brace (commas (variant g))
  pure (.enumeration n)

/-- Takes a union. -/
def unionItem : Parser Unit := do
  word "union"
  let _ ← name
  let _ ← generics g
  let _ ← whereClause g
  let _ ← namedFields g

/-! ## Traits -/

/-- Takes a member of a trait, and returns it if it is a function.  A function with a visibility
or a default mark is passed over. -/
def traitMember : Parser (Option TraitFunction) := do
  let attributes ← outerAttributes g
  let visibility ← visibility
  let hasDefault ← optionalWord "default"
  let isPlain := visibility.isInherited && !hasDefault
  if ← ahead (functionAhead false) then
    let (s, inner) ← functionOrHead g false
    pure (if isPlain then some ⟨attributes ++ inner.getD [], s⟩ else none)
  else if ← optionalWord "const" then
    constant g
    pure none
  else if ← ahead (.word "type") then
    typeItem g false true
    pure none
  else
    expect callAhead
    if isPlain then memberCall else failure
    pure none

/-- Takes a trait behind its name and generic parameters. -/
def traitRest (attributes : List Attribute) (n : String) (place : Place) : Parser Item := do
  if ← optionalMark ":" then boundsUntil g (.anyOf [.word "where", .group .brace])
  let _ ← whereClause g
  inside .brace do
    let inner ← innerAttributes g
    let members ← untilEnd (traitMember g)
    pure (.trait ⟨attributes ++ inner, n, place, members.filterMap id⟩)

/-- Takes a trait or another name for a sum of traits. -/
def traitItem (attributes : List Attribute) : Parser Item := do
  let isUnsafe ← optionalWord "unsafe"
  let isAuto ← optionalWord "auto"
  word "trait"
  let (n, place) ← placedName
  let _ ← generics g
  if !isUnsafe && !isAuto && (← ahead (.mark "=")) then
    mark "="
    boundsUntil g (.anyOf [.word "where", .mark ";"])
    let _ ← whereClause g
    mark ";"
    pure .other
  else traitRest g attributes n place

/-! ## Implementations -/

/-- Generic parameters stand next, not a type in angle brackets. -/
def implGenericsAhead : Ahead :=
  let behind : Ahead := .third (.oneMark [":", ",", ">", "="])
  .allOf [.mark "<", .anyOf [.second (.mark ">"), .second (.mark "#"), .second (.word "const"),
    .allOf [.second .lifetime, behind], .allOf [.second .name, behind]]]

/-- Takes a member of an implementation, and returns it if it is a function with a body. -/
def implementationMember : Parser (Option Signature) := do
  let _ ← outerAttributes g
  let visibility ← visibility
  let hasDefault ← optionalModifier "default"
  if ← ahead (functionAhead false) then
    let (s, inner) ← functionOrHead g false
    pure (inner.map fun _ => s)
  else if ← optionalWord "const" then
    constant g
    pure none
  else if ← ahead (.word "type") then
    typeItem g false true
    pure none
  else
    expect callAhead
    if visibility.isInherited && !hasDefault then memberCall else failure
    pure none

/-- Takes an implementation.  `isVisible` tells whether a visibility stands in front of it. -/
def implementationItem (isVisible : Bool) : Parser Item := do
  let _ ← optionalWord "default"
  let _ ← optionalWord "unsafe"
  word "impl"
  if ← ahead implGenericsAhead then
    let _ ← generics g
  let constAhead : Ahead := .anyOf [.word "const", .allOf [.mark "?", .second (.word "const")]]
  let isConst ← ahead constAhead
  if isConst then
    let _ ← optionalMark "?"
    word "const"
  let isNegative ← ahead (.allOf [.mark "!", .notNext (.second (.group .brace))])
  if isNegative then mark "!"
  let first ← g.type true
  let isFor ← optionalWord "for"
  let subject ← if isFor then g.type true else pure (if isNegative then .other [] else first)
  let _ ← whereClause g
  let functions ← inside .brace do
    let _ ← innerAttributes g
    untilEnd (implementationMember g)
  let found := functions.filterMap id
  if isVisible || isConst then pure .other
  else if isFor then
    match first with
    | .path p => pure (.implementation ⟨some p, subject, found⟩)
    | _ => pure .other
  else pure (.implementation ⟨none, subject, found⟩)

/-! ## Modules and imports -/

/-- Takes a module. -/
def moduleItem : Parser Item := do
  let _ ← optionalWord "unsafe"
  word "mod"
  let n ← if ← ahead (.word "try") then anyWord else name
  if ← optionalMark ";" then pure .other
  else
    inside .brace do
      let _ ← innerAttributes g
      pure (.module n (← untilEnd g.item))

/-- Takes a member of a block of foreign items. -/
def foreignMember : Parser Unit := do
  let _ ← outerAttributes g
  let visibility ← visibility
  let static : Ahead := .anyOf
    [.word "static", .allOf [.oneWord ["unsafe", "safe"], .second (.word "static")]]
  if ← ahead (functionAhead true) then
    let _ ← functionOrHead g true
  else if ← ahead static then
    if ← ahead (.notNext (.word "static")) then
      let _ ← anyWord
    word "static"
    let _ ← optionalWord "mut"
    let _ ← name
    mark ":"
    let _ ← g.type true
    optionalValue g
    mark ";"
  else if ← ahead (.word "type") then typeItem g true true
  else
    expect callAhead
    if visibility.isInherited then memberCall else failure

/-- Takes a block of foreign items. -/
def foreignItem : Parser Unit := do
  let _ ← optionalWord "unsafe"
  let _ ← abi
  inside .brace do
    let _ ← innerAttributes g
    let _ ← untilEnd (foreignMember g)

/-- Takes the declaration of an external crate. -/
def crateItem : Parser Unit := do
  word "extern"
  word "crate"
  let _ ← if ← ahead (.word "self") then anyWord else name
  if ← optionalWord "as" then
    let _ ← nameOrUnderscore
  mark ";"

/-- Takes the items of a group of imports.  There are none if one of them starts at the root. -/
def useItems (roots : Bool) : Parser (Option (List UseTree)) := do
  let one : Parser (Option UseTree) := do
    let rooted ← if roots then optionalMark "::" else pure false
    let tree ← g.useTree (roots && !rooted)
    pure (if rooted then none else tree)
  let (trees, _) ← commas one
  pure (trees.mapM id)

/-- What an import leads to. -/
def useTreeStep (roots : Bool) : Parser (Option UseTree) := do
  if ← ahead (.anyOf [.name, .oneWord ["self", "super", "crate", "try"]]) then
    let n ← anyWord
    if ← ahead (.mark "::") then
      mark "::"
      pure ((← g.useTree false).map (.path n))
    else if ← optionalWord "as" then pure (some (.rename n (← nameOrUnderscore)))
    else pure (some (.name n))
  else if ← optionalMark "*" then pure (some .glob)
  else pure ((← inside .brace (useItems g roots)).map .group)

/-- Takes an import.  One with a path in a group that starts at the root is passed over. -/
def useItem (attributes : List Attribute) (visibility : Visibility) : Parser Item := do
  word "use"
  let rooted ← optionalMark "::"
  let tree ← g.useTree !rooted
  mark ";"
  match tree with
  | some t => pure (.use ⟨attributes, visibility, rooted, t⟩)
  | none => pure .other

/-! ## Items -/

/-- Takes the definition of a macro by its own keyword. -/
def ruleItem : Parser Unit := do
  word "macro"
  let _ ← name
  if ← ahead (.group .parenthesis) then
    let _ ← anyGroup
  expect (.group .brace)
  let _ ← anyGroup

/-- Takes a macro call that is an item; it may define a name. -/
def callItem : Parser Unit := do
  let _ ← plainPath
  mark "!"
  if ← ahead (.anyOf [.name, .word "try"]) then
    let _ ← anyWord
  callEnd

/-- Passes over an item. -/
def passOver (p : Parser Unit) : Parser Item := do
  p
  pure .other

/-- An item. -/
def itemStep : Parser Item := do
  let attributes ← outerAttributes g
  let visibility ← visibility
  let unsafeThen (w : String) : Ahead := .allOf [.word "unsafe", .second (.word w)]
  let autoTrait : Ahead := .allOf [.word "auto", .second (.word "trait")]
  let traitAhead : Ahead := .anyOf [.word "trait", autoTrait, unsafeThen "trait",
    .allOf [.word "unsafe", .second (.word "auto"), .third (.word "trait")]]
  let implAhead : Ahead := .anyOf [.word "impl", unsafeThen "impl",
    .allOf [.word "default", .notNext (.second (.mark "!"))]]
  if ← ahead (functionAhead false) then
    let (s, inner) ← functionOrHead g false
    pure (match inner with | some _ => .function s | none => .other)
  else if ← ahead (.allOf [.word "extern", .second (.word "crate")]) then passOver crateItem
  else if ← ahead (.anyOf [.word "extern", unsafeThen "extern"]) then
    if visibility.isInherited then passOver (foreignItem g) else failure
  else if ← ahead (.word "use") then useItem g attributes visibility
  else if ← ahead (.word "static") then passOver (staticItem g)
  else if ← ahead (.word "const") then passOver do word "const"; constant g
  else if ← ahead (.anyOf [.word "mod", unsafeThen "mod"]) then moduleItem g
  else if ← ahead (.word "type") then passOver (typeItem g true false)
  else if ← ahead (.word "struct") then structureItem g
  else if ← ahead (.word "enum") then enumerationItem g
  else if ← ahead (.allOf [.word "union", .second .name]) then passOver (unionItem g)
  else if ← ahead traitAhead then traitItem g attributes
  else if ← ahead implAhead then implementationItem g !visibility.isInherited
  else if ← ahead (.word "macro") then passOver ruleItem
  else
    expect callAhead
    if visibility.isInherited then passOver callItem else failure

end

end FieldCopy.Source.Grammar
