import FieldCopy.Regex.Basic

/-!
# Matching in one pass

An expression is turned into a machine, a list of instructions with jumps between them, and the
machine reads the text once, character by character, in all states that it can be in at the same
time.  The work per character is bounded by the number of instructions, whatever the expression.

**Search.**  `Regex.search` tells whether the expression takes some stretch of the text.  So the
machine may start anew in front of every character.
-/

namespace FieldCopy

/-- An instruction of a machine. -/
inductive Instruction where
  /-- Take a character of the set and go on. -/
  | take (set : CharSet) (next : Nat)
  /-- Go on if the condition holds here. -/
  | test (condition : Look) (next : Nat)
  /-- Go on in two places. -/
  | fork (first second : Nat)
  /-- The expression has been taken. -/
  | accept

/-- A machine: its instructions and the one to begin with. -/
structure Machine where
  code : Array Instruction
  start : Nat

/-- Where the instructions begin that were put in front of others, and all instructions. -/
structure Compiled where
  entry : Nat
  code : Array Instruction

namespace Regex

/-- Puts instructions in front of what follows, `n` times. -/
def copies (f : Nat → Array Instruction → Compiled) : Nat → Nat → Array Instruction → Compiled
  | 0, next, code => ⟨next, code⟩
  | n + 1, next, code =>
      let rest := copies f n next code
      f rest.entry rest.code

/-- Puts instructions in front of what follows, each copy of which may be left out with all that
come behind it. -/
def optionalCopies (f : Nat → Array Instruction → Compiled) (exit : Nat) :
    Nat → Array Instruction → Compiled
  | 0, code => ⟨exit, code⟩
  | n + 1, code =>
      let rest := optionalCopies f exit n code
      let body := f rest.entry rest.code
      ⟨body.code.size, body.code.push (.fork body.entry exit)⟩

/-- The instructions of an expression in front of the instruction `next`. -/
def compile : Regex → Nat → Array Instruction → Compiled
  | empty, next, code => ⟨next, code⟩
  | one s, next, code => ⟨code.size, code.push (.take s next)⟩
  | look l, next, code => ⟨code.size, code.push (.test l next)⟩
  | seq a b, next, code =>
      let second := b.compile next code
      a.compile second.entry second.code
  | alt a b, next, code =>
      let left := a.compile next code
      let right := b.compile next left.code
      ⟨right.code.size, right.code.push (.fork left.entry right.entry)⟩
  | repeated a least none, next, code =>
      let hub := code.size
      let body := a.compile hub (code.push (.fork next next))
      let loop := body.code.setIfInBounds hub (.fork body.entry next)
      copies (fun n c => a.compile n c) least hub loop
  | repeated a least (some most), next, code =>
      let tail := optionalCopies (fun n c => a.compile n c) next (most - least) code
      copies (fun n c => a.compile n c) least tail.entry tail.code

/-- The machine of an expression. -/
def machine (r : Regex) : Machine :=
  let m := r.compile 0 #[.accept]
  ⟨m.code, m.entry⟩

end Regex

namespace Machine

/-- Where the machine is between two characters. -/
structure Front where
  /-- The instructions that wait for a character. -/
  waiting : List Nat
  accepted : Bool

/-- Follows all jumps from the instructions in `todo`, none of them twice.  `fuel` bounds the
number of jumps. -/
def follow (code : Array Instruction) (holds : Look → Bool) :
    Nat → List Nat → Array Bool → List Nat → Front
  | 0, _, _, waiting => ⟨waiting, false⟩
  | _ + 1, [], _, waiting => ⟨waiting, false⟩
  | n + 1, i :: todo, seen, waiting =>
      if seen.getD i true then follow code holds n todo seen waiting
      else
        let seen := seen.setIfInBounds i true
        match code[i]? with
        | some (.take _ _) => follow code holds n todo seen (i :: waiting)
        | some (.test l next) =>
            follow code holds n (if holds l then next :: todo else todo) seen waiting
        | some (.fork a b) => follow code holds n (a :: b :: todo) seen waiting
        | some .accept => ⟨waiting, true⟩
        | none => follow code holds n todo seen waiting

/-- Where the machine is between two characters, given the instructions it got to and that it may
also begin here. -/
def front (m : Machine) (before after : Option Char) (reached : List Nat) : Front :=
  let todo := m.start :: reached
  follow m.code (Look.holds before after) (todo.length + 2 * m.code.size + 1) todo
    (Array.replicate m.code.size false) []

/-- The instructions behind those that take this character. -/
def advance (m : Machine) (c : Char) (waiting : List Nat) : List Nat :=
  waiting.filterMap fun (i : Nat) =>
    match m.code[i]? with
    | some (.take s next) => if s.contains c then some next else none
    | _ => none

/-- Whether the machine accepts at some point of the rest of a text. -/
def run (m : Machine) (before : Option Char) (reached : List Nat) : List Char → Bool
  | [] => (m.front before none reached).accepted
  | c :: rest =>
      let here := m.front before (some c) reached
      here.accepted || m.run (some c) (m.advance c here.waiting) rest

end Machine

/-- Whether the expression takes some stretch of the text. -/
def Regex.search (r : Regex) (text : List Char) : Bool := r.machine.run none [] text

end FieldCopy
