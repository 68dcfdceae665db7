import FieldCopy.Position

/-!
# Diagnostics

A diagnostic is a warning or an error with a position and a message.  While a method is processed
its diagnostics are collected; those without a position of their own get the *anchor* of the
collector, usually the declaration of the method.

**Order.**  A report lists diagnostics by position.  Those at one position keep the order in which
they were recorded.
-/

namespace FieldCopy

/-- How serious a diagnostic is. -/
inductive Severity where
  | warning
  | error
  deriving DecidableEq

/-- The word for a severity. -/
def Severity.text : Severity → String
  | warning => "warning"
  | error => "error"

/-- A warning or an error. -/
structure Diagnostic where
  severity : Severity
  position : Position
  message : String
  deriving DecidableEq

namespace Diagnostic

/-- The display form: position, severity and message. -/
def text (d : Diagnostic) : String := s!"{d.position.text}: {d.severity.text}: {d.message}"

def isError (d : Diagnostic) : Bool := d.severity = .error

/-- Diagnostics ordered by position. -/
def sorted (ds : List Diagnostic) : List Diagnostic :=
  ds.mergeSort fun a b => a.position.le b.position

theorem sorted_perm (ds : List Diagnostic) : (sorted ds).Perm ds := List.mergeSort_perm ds _

end Diagnostic

/-- Diagnostics in the order in which they were recorded, with the position of those that have
none of their own. -/
structure Diagnostics where
  anchor : Position
  entries : List Diagnostic
  deriving DecidableEq

namespace Diagnostics

/-- A collector without diagnostics. -/
def anchoredAt (anchor : Position) : Diagnostics := ⟨anchor, []⟩

/-- Records a diagnostic. -/
def record (c : Diagnostics) (d : Diagnostic) : Diagnostics :=
  { c with entries := c.entries ++ [d] }

/-- Records a warning at a position. -/
def warnAt (c : Diagnostics) (position : Position) (message : String) : Diagnostics :=
  c.record ⟨.warning, position, message⟩

/-- Records an error at a position. -/
def errorAt (c : Diagnostics) (position : Position) (message : String) : Diagnostics :=
  c.record ⟨.error, position, message⟩

/-- Records a warning at the anchor. -/
def warn (c : Diagnostics) (message : String) : Diagnostics := c.warnAt c.anchor message

/-- Adds the diagnostics of another collector behind those of this one. -/
def absorb (c other : Diagnostics) : Diagnostics :=
  { c with entries := c.entries ++ other.entries }

def isEmpty (c : Diagnostics) : Bool := c.entries.isEmpty

def size (c : Diagnostics) : Nat := c.entries.length

def hasErrors (c : Diagnostics) : Bool := c.entries.any Diagnostic.isError

/-- The diagnostics ordered by position. -/
def sorted (c : Diagnostics) : List Diagnostic := Diagnostic.sorted c.entries

@[simp] theorem entries_absorb (c other : Diagnostics) :
    (c.absorb other).entries = c.entries ++ other.entries := rfl

@[simp] theorem entries_record (c : Diagnostics) (d : Diagnostic) :
    (c.record d).entries = c.entries ++ [d] := rfl

end Diagnostics

end FieldCopy
