/-!
# Sets of characters

A set of characters is a list of inclusive ranges of code points.  The tables of the Unicode
standard used in this library and the classes of the skip patterns are values of this one type,
so membership, union and complement are defined once.

`CharSet.ofText` reads a table in the compact form `41-5a 5f 61-7a`: hexadecimal code points and
ranges, separated by spaces or line ends.
-/

namespace FieldCopy

/-- A set of characters, as inclusive ranges of code points. -/
structure CharSet where
  ranges : List (Nat × Nat)
  deriving DecidableEq, Inhabited

namespace CharSet

/-- The largest code point. -/
def top : Nat := 0x10FFFF

/-- The set without members. -/
def empty : CharSet := ⟨[]⟩

/-- The set of all characters. -/
def full : CharSet := ⟨[(0, top)]⟩

/-- The set of the characters from `lo` to `hi`. -/
def range (lo hi : Nat) : CharSet := ⟨[(lo, hi)]⟩

/-- The set whose only member is `c`. -/
def single (c : Char) : CharSet := range c.toNat c.toNat

/-- Membership of a code point. -/
def hasCode (s : CharSet) (n : Nat) : Bool := s.ranges.any fun r => r.1 ≤ n && n ≤ r.2

/-- Membership of a character. -/
def contains (s : CharSet) (c : Char) : Bool := s.hasCode c.toNat

/-- The members of either set. -/
def union (s t : CharSet) : CharSet := ⟨s.ranges ++ t.ranges⟩

/-- Ranges ordered by their first code point, with empty ranges removed. -/
def sorted (s : CharSet) : List (Nat × Nat) :=
  (s.ranges.filter fun r => r.1 ≤ r.2).mergeSort fun a b => a.1 ≤ b.1

/-- The gaps from `next` on between ranges that are ordered by their first code point. -/
def gaps (next : Nat) : List (Nat × Nat) → List (Nat × Nat)
  | [] => if next ≤ top then [(next, top)] else []
  | (lo, hi) :: rest =>
      if next < lo then (next, lo - 1) :: gaps (max next (hi + 1)) rest
      else gaps (max next (hi + 1)) rest

/-- The characters that are not members. -/
def complement (s : CharSet) : CharSet := ⟨gaps 0 s.sorted⟩

/-- The set with as few ranges as possible, in order. -/
def merged (s : CharSet) : CharSet := s.complement.complement

/-- The members of both sets. -/
def inter (s t : CharSet) : CharSet := (s.complement.union t.complement).complement

/-- The members of the first set that are not members of the second. -/
def diff (s t : CharSet) : CharSet := s.inter t.complement

/-- The members of exactly one of the two sets. -/
def symmDiff (s t : CharSet) : CharSet := (s.diff t).union (t.diff s)

/-- The value of a hexadecimal digit, zero for any other character. -/
def hexValue (c : Char) : Nat :=
  if '0' ≤ c ∧ c ≤ '9' then c.toNat - '0'.toNat
  else if 'a' ≤ c ∧ c ≤ 'f' then c.toNat - 'a'.toNat + 10
  else if 'A' ≤ c ∧ c ≤ 'F' then c.toNat - 'A'.toNat + 10
  else 0

/-- The number written by hexadecimal digits. -/
def ofHex (digits : List Char) : Nat := digits.foldl (fun n c => 16 * n + hexValue c) 0

/-- One entry of a table: a code point, or two joined by a hyphen. -/
def entry (text : List Char) : Nat × Nat :=
  let lo := text.takeWhile (· != '-')
  let hi := (text.dropWhile (· != '-')).drop 1
  (ofHex lo, if hi.isEmpty then ofHex lo else ofHex hi)

/-- The set written by a table. -/
def ofText (text : String) : CharSet :=
  ⟨((text.toList.splitOnP fun c => c = ' ' || c = '\n').filter fun e => !e.isEmpty).map entry⟩

end CharSet

end FieldCopy
