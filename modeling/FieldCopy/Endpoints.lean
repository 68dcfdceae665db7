import FieldCopy.Declaration

/-!
# The ends of a conversion

Which parameter of a method is the source, which is the destination, and which becomes the receiver.

With the result as destination the source is the first parameter.  With an argument as destination
the first parameter is the destination and the second the source, unless they are reversed.
-/

namespace FieldCopy

/-- The source and the destination of a conversion. -/
structure Endpoints where
  source : Parameter
  target : Parameter
  /-- The parameter that becomes the receiver of a method. -/
  receiver : Option Parameter
  deriving DecidableEq

namespace Endpoints

/-- The source and the destination of a method that gives its destination as result. -/
def ofResult (m : Declaration) : Except Misconfiguration (Parameter × Parameter) :=
  match m.parameters, m.result with
  | [], _ => .error (.noSource m.name)
  | _, none => .error (.noResult m.name)
  | source :: _, some target => .ok (source, target)

/-- The source and the destination of a method that takes its destination as argument. -/
def ofArguments (m : Declaration) (reversed : Bool) :
    Except Misconfiguration (Parameter × Parameter) :=
  match m.parameters with
  | first :: second :: _ =>
      if m.result.any fun r => r.written != "()" then .error (.unwantedResult m.name)
      else .ok (if reversed then (first, second) else (second, first))
  | _ => .error (.tooFewParameters m.name)

/-- The parameter that becomes the receiver. -/
def receiverOf (m : Declaration) : Option String → Except Misconfiguration (Option Parameter)
  | none => .ok none
  | some name =>
      match m.parameters.find? fun p => p.name == name with
      | some p => .ok (some p)
      | none => .error (.noSuchParameter name m.name)

/-- The ends of a method, or what is wrong with it. -/
def choose (m : Declaration) (i : Instructions) : Except Misconfiguration Endpoints := do
  let (source, target) ← match i.style with
    | .result => ofResult m
    | .argument => ofArguments m i.reversed
  pure ⟨source, target, ← receiverOf m i.receiver⟩

/-- The ends of a method; a defect is a fault at its declaration. -/
def select (m : Declaration) (i : Instructions) : Except Fault Endpoints :=
  match choose m i with
  | .ok e => .ok e
  | .error cause => .error (.misconfigured m.position cause)

end Endpoints

/-- The end of a conversion that is its receiver. -/
inductive ReceiverEnd where
  | source
  | target
  deriving DecidableEq

/-- How a conversion is called by one that delegates to it. -/
structure CallShape where
  style : Style
  /-- Whether the source is the first argument. -/
  reversed : Bool
  receiver : Option ReceiverEnd
  deriving DecidableEq

namespace CallShape

/-- How a conversion is called. -/
def of (i : Instructions) (e : Endpoints) : CallShape :=
  ⟨i.style, i.reversed,
    e.receiver.map fun r => if r.name = e.target.name then .target else .source⟩

end CallShape

end FieldCopy
