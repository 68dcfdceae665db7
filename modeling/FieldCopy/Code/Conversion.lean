import FieldCopy.Code.Basic
import FieldCopy.Endpoints
import FieldCopy.Keyed
import FieldCopy.Plan.Basic
import FieldCopy.Source.Grammar

/-!
# The code of a conversion

`Conversion.code` turns a planned conversion into a function.

**The body** consists of five parts in this order: the receiver gets its name, the destination is
created or, if the plan does not take the value apart, converted as a whole, the hook before the
assignments is called, the assignments follow, and the hook after them.  What the function gives
stands at the end.

**Variables.**  A destination that is the result is a variable of its own, named so that no
parameter is hidden.
-/

namespace FieldCopy

/-- A conversion with its plan. -/
structure Conversion where
  declaration : Declaration
  instructions : Instructions
  endpoints : Endpoints
  plan : Plan

namespace Conversion

/-- Whether the function can fail. -/
def fallible (c : Conversion) : Bool := c.plan.fallible || c.declaration.fallible

/-- The type of failures where none is declared. -/
def defaultErrorType : String := "Box<dyn std::error::Error>"

/-! ## The head -/

/-- The type behind a written reference. -/
def ownerText (written : String) : String :=
  String.ofList
    (Text.dropRepeated "mut ".toList (Text.dropRepeated "&".toList written.toList))

/-- How a receiver of a written type is taken. -/
def selfForm (written : String) : SelfForm :=
  if "&mut ".toList.isPrefixOf written.toList then .mutableReference
  else if "&".toList.isPrefixOf written.toList then .reference
  else .value

/-- The type that the function is a method of. -/
def head (c : Conversion) : Option MethodHead :=
  c.endpoints.receiver.map fun r => ⟨ownerText r.written, selfForm r.written⟩

/-- The parameters besides the receiver. -/
def parameters (c : Conversion) : List (String × String) :=
  (c.declaration.parameters.filter fun p => !c.endpoints.receiver.any fun r => r.name == p.name).map
    fun p => (p.name, p.written)

/-- What the function gives. -/
def resultType (c : Conversion) : ResultType :=
  { value := match c.instructions.style with
      | .result => some c.endpoints.target.written
      | .argument => none
    failure :=
      if c.fallible then some (c.declaration.errorType.getD defaultErrorType) else none }

/-- A line of documentation without the space at its front. -/
def docLine (line : String) : String :=
  match line.toList with
  | ' ' :: rest => String.ofList rest
  | _ => line

/-! ## Variables -/

/-- The variable that holds the source. -/
def source (c : Conversion) : String := c.endpoints.source.name

/-- The variable that holds the destination. -/
def target (c : Conversion) : String :=
  match c.instructions.style with
  | .argument => c.endpoints.target.name
  | .result =>
      if c.declaration.parameters.any fun p => p.name == "dst" then "out" else "dst"

/-- The source as an expression. -/
def sourceValue (c : Conversion) : Expression := .verbatim c.source

/-- The destination as an expression. -/
def targetValue (c : Conversion) : Expression := .verbatim c.target

/-- The destination as an argument that can be changed. -/
def targetArgument (c : Conversion) : Expression :=
  match c.instructions.style with
  | .argument => c.targetValue
  | .result => .reference true c.targetValue

/-! ## Types in expressions -/

/-- A type as it stands in front of two colons. -/
def typeInPath (type : String) : String :=
  if type.toList.all fun ch => isAlphanumeric ch || ch == '_' || ch == ':' then type
  else "<" ++ type ++ ">"

/-- The default value of a type. -/
def defaultOf (type : String) : Expression := .call (typeInPath type ++ "::default") []

/-! ## Whole values -/

section

variable (k : Catalog)

/-- The expression that converts the source as a whole. -/
def whole (c : Conversion) : Expression :=
  let source := c.endpoints.source
  let target := c.endpoints.target
  match k.strip source.type, k.strip target.type with
  | .ok s, .ok t =>
      let isNumeric (id : TypeId) : Bool := (k.type? id).any TypeInfo.isNumeric
      if s = t then c.sourceValue.clone
      else if c.instructions.casts && isNumeric s && isNumeric t then
        let value :=
          if "&".toList.isPrefixOf source.written.toList then .dereference c.sourceValue
          else c.sourceValue
        .cast value (k.nameOf t)
      else c.sourceValue.clone.invoke "into"
  | _, _ => c.sourceValue.clone.invoke "into"

/-- The value with which the destination is created before its fields are assigned. -/
def start (c : Conversion) : Expression :=
  let written := c.endpoints.target.written
  if c.plan.hasLoop && "Vec<".toList.isPrefixOf written.toList then
    .call "Vec::with_capacity" [c.sourceValue.invoke "len"]
  else defaultOf written

/-- Creates the destination, or converts the source as a whole. -/
def opening (c : Conversion) : List Statement :=
  let hasHook := c.plan.before.isSome || c.plan.after.isSome
  match c.plan.assignments.isEmpty, c.instructions.style with
  | true, .result => [.declare hasHook c.target (c.whole k)]
  | true, .argument => [.assign (.dereference c.targetValue) (c.whole k)]
  | false, .result => [.declare true c.target c.start]
  | false, .argument => []

/-! ## Assignments -/

/-- The member of the source at a path. -/
def sourceMember (c : Conversion) (path : String) : Expression := .member c.source path

/-- Whether a field of the destination is copied by assigning it. -/
def isScalarField (c : Conversion) (field : String) : Bool :=
  match k.structOf c.endpoints.target.type with
  | .ok (some s) =>
      ((s.field? field true).bind fun f => k.type? f.type).any TypeInfo.isScalar
  | _ => false

/-- Whether a type is named that is a number type. -/
def isNumericName (type : String) : Bool :=
  ((k.typeNamed? type).bind k.type?).any TypeInfo.isNumeric

/-- The value that an assignment gives its field, unless it gives none. -/
def fieldValue? (c : Conversion) : Assignment → Option Expression
  | .copy field path =>
      let isValue := "()".toList.reverse.isPrefixOf path.toList.reverse
      let value := c.sourceMember path
      some (if isValue || c.isScalarField k field then value else value.clone)
  | .cast _ path type =>
      some (if isNumericName k type then .cast (c.sourceMember path) type
        else .call (typeInPath type ++ "::from") [(c.sourceMember path).clone])
  | .getter _ method => some (c.sourceValue.invoke method)
  | .stringer _ path => some ((c.sourceMember path).invoke "to_string")
  | .converter _ path function byReference fallible =>
      let value := c.sourceMember path
      let argument := if byReference then .reference false value else value.clone
      some (.checked fallible (.call function [argument]))
  | .method _ name fallible => some (.checked fallible (c.sourceValue.invoke name))
  | .literal _ text => some (.verbatim text)
  | .skip _ _ | .delegateLoop _ _ _ _ _ => none

/-- Converts an item by a delegate and adds the result to the destination. -/
def delegate (c : Conversion) (call : Option CallShape) (function element : String)
    (fallible : Bool) : List Statement :=
  let item : Expression := .verbatim "item"
  let push (e : Expression) : Statement := .run (.methodCall c.targetValue "push" [e])
  match call with
  | some ⟨.argument, reversed, receiver⟩ =>
      let fresh : Expression := .verbatim "element"
      let argument : Expression := .reference true fresh
      let conversion : Expression := match receiver, reversed with
        | some .source, _ => .methodCall item function [argument]
        | some .target, _ => .methodCall fresh function [item]
        | none, true => .call function [item, argument]
        | none, false => .call function [argument, item]
      [.declare true "element" (defaultOf element), .run (.checked fallible conversion),
        push fresh]
  | some ⟨.result, _, some _⟩ => [push (.checked fallible (item.invoke function))]
  | some ⟨.result, _, none⟩ | none => [push (.checked fallible (.call function [item]))]

/-- The statements of an assignment. -/
def assignment (siblings : Keyed CallShape) (c : Conversion) (a : Assignment) : List Statement :=
  match a with
  | .delegateLoop _ _ elementType function fallible =>
      let element := (Source.Ty.elementName? c.endpoints.target.written).getD elementType
      let clear : List Statement := match c.instructions.style with
        | .argument => [.run (c.targetValue.invoke "clear")]
        | .result => []
      clear ++ [.loop "item" (c.sourceValue.invoke "iter")
        (c.delegate (siblings.find? function) function element fallible)]
  | .skip field reason => [.comment (field ++ ": " ++ reason.text)]
  | _ =>
      match c.fieldValue? k a with
      | some value => [.assign (.member c.target a.target) value]
      | none => []

/-! ## The function -/

/-- Names the receiver. -/
def receiverStatement (c : Conversion) : List Statement :=
  c.endpoints.receiver.toList.map fun r => .declare false r.name .self

/-- Calls a hook. -/
def hook (c : Conversion) : Option Hook → List Statement
  | none => []
  | some h =>
      [.run (.checked h.fallible (.call h.function [c.targetArgument, c.sourceValue]))]

/-- Gives the result. -/
def ending (c : Conversion) : List Statement :=
  match c.instructions.style, c.fallible with
  | .result, false => [.give c.targetValue]
  | .result, true => [.give (.call "Ok" [c.targetValue])]
  | .argument, true => [.give (.call "Ok" [.verbatim "()"])]
  | .argument, false => []

/-- The statements of the function. -/
def body (siblings : Keyed CallShape) (c : Conversion) : List Statement :=
  c.receiverStatement ++ c.opening k ++ c.hook c.plan.before
    ++ c.plan.assignments.flatMap (c.assignment k siblings) ++ c.hook c.plan.after ++ c.ending

/-- The function for a conversion.  `siblings` tells how the conversions of the file are called. -/
def code (siblings : Keyed CallShape) (c : Conversion) : FunctionCode :=
  { docs := c.declaration.docs.map docLine
    head := c.head
    name := c.declaration.name
    parameters := c.parameters
    result := c.resultType
    body := c.body k siblings }

end

end Conversion

end FieldCopy
