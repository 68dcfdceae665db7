import FieldCopy.Diagnostic
import FieldCopy.Text.AsciiCase

/-!
# Journals

While the library works it records two kinds of events: diagnostics, which the report for the user
is made of, and log records, which tell what was done.  A diagnostic is logged too.

**Journaled values.**  `Journaled α` is a value with the events that were recorded on the way to
it.  Events of one step stand behind those of the steps before it (`events_bind`), so the order of
a journal is the order in time.
-/

namespace FieldCopy

/-- How important a log record is, the most important first. -/
inductive Level where
  | error
  | warn
  | info
  | debug
  | trace
  deriving DecidableEq

namespace Level

/-- The place of a level in the order of importance. -/
def rank : Level → Nat
  | error => 1
  | warn => 2
  | info => 3
  | debug => 4
  | trace => 5

/-- The word for a level. -/
def text : Level → String
  | error => "ERROR"
  | warn => "WARN"
  | info => "INFO"
  | debug => "DEBUG"
  | trace => "TRACE"

end Level

/-- The least important level that is logged, or nothing if no level is. -/
structure LevelFilter where
  level : Option Level
  deriving DecidableEq

namespace LevelFilter

/-- All filters, the strictest first. -/
def all : List LevelFilter :=
  [⟨none⟩, ⟨some .error⟩, ⟨some .warn⟩, ⟨some .info⟩, ⟨some .debug⟩, ⟨some .trace⟩]

/-- The word for a filter. -/
def text (f : LevelFilter) : String := (f.level.map Level.text).getD "OFF"

/-- The filter with this word, in any case. -/
def ofText? (word : String) : Option LevelFilter := all.find? fun f => sameIgnoringCase f.text word

/-- Whether records of a level pass. -/
def admits (f : LevelFilter) (l : Level) : Bool := f.level.any fun m => l.rank ≤ m.rank

end LevelFilter

/-- A line of the log. -/
structure LogRecord where
  level : Level
  message : String
  deriving DecidableEq

namespace LogRecord

/-- The display form of a log record. -/
def text (r : LogRecord) : String := r.level.text ++ " " ++ r.message

end LogRecord

/-- What is recorded while the library works. -/
inductive Event where
  | diagnostic (d : Diagnostic)
  | log (r : LogRecord)
  deriving DecidableEq

namespace Event

/-- The diagnostic that an event is. -/
def diagnostic? : Event → Option Diagnostic
  | diagnostic d => some d
  | log _ => none

/-- The line of the log for an event. -/
def record : Event → LogRecord
  | diagnostic d => ⟨.debug, d.text⟩
  | log r => r

/-- The diagnostics among events. -/
def diagnostics (events : List Event) : List Diagnostic := events.filterMap diagnostic?

/-- The lines of the log that pass a filter. -/
def logged (f : LevelFilter) (events : List Event) : List LogRecord :=
  (events.map record).filter fun r => f.admits r.level

@[simp] theorem diagnostics_append (a b : List Event) :
    diagnostics (a ++ b) = diagnostics a ++ diagnostics b := List.filterMap_append

end Event

/-- A value with the events that were recorded on the way to it. -/
structure Journaled (α : Type) where
  value : α
  events : List Event

namespace Journaled

variable {α β : Type}

/-- A value without events. -/
def pure (a : α) : Journaled α := ⟨a, []⟩

/-- Goes on from a value, its events first. -/
def bind (x : Journaled α) (f : α → Journaled β) : Journaled β :=
  let y := f x.value
  ⟨y.value, x.events ++ y.events⟩

instance : Monad Journaled where
  pure := pure
  bind := bind

instance : LawfulMonad Journaled := LawfulMonad.mk' Journaled
  (by intro α x; cases x; simp [Functor.map, bind, pure])
  (by intro α β x f; simp [Bind.bind, Pure.pure, bind, pure])
  (by intro α β γ x f g; simp [Bind.bind, bind, List.append_assoc])

@[simp] theorem events_bind (x : Journaled α) (f : α → Journaled β) :
    (x >>= f).events = x.events ++ (f x.value).events := rfl

@[simp] theorem value_bind (x : Journaled α) (f : α → Journaled β) :
    (x >>= f).value = (f x.value).value := rfl

/-- Records events. -/
def tell (events : List Event) : Journaled Unit := ⟨(), events⟩

/-- Writes a line to the log. -/
def log (level : Level) (message : String) : Journaled Unit := tell [.log ⟨level, message⟩]

/-- Records a warning at a position. -/
def warnAt (position : Position) (message : String) : Journaled Unit :=
  tell [.diagnostic ⟨.warning, position, message⟩]

/-- Records an error at a position. -/
def errorAt (position : Position) (message : String) : Journaled Unit :=
  tell [.diagnostic ⟨.error, position, message⟩]

/-- The diagnostics that were recorded. -/
def diagnostics (x : Journaled α) : List Diagnostic := Event.diagnostics x.events

end Journaled

end FieldCopy
