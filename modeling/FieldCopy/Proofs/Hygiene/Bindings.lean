import Mathlib
import FieldCopy.Code.Basic
import FieldCopy.Text.Alphanumeric

/-!
# Names in generated code

What a name in a function stands for depends on the place: on the parameters, and on the names that
statements introduce.

**Bindings.**  The names in force at a place, the innermost first (`Bindings`).  A declaration
introduces its name for the statements behind it, a loop for its body.  The statement that names the
receiver introduces nothing: its name is that of a parameter.

**Places.**  `Statement.places` lists the texts that stand where a variable may stand, in the order
in which they are written, each with the bindings there.  Names of functions, methods and types are
not among them.
-/

namespace FieldCopy

/-- What a name in a function stands for. -/
inductive Variable where
  | parameter (name : String)
  /-- What a statement introduced, by the number of those that others introduced around it. -/
  | introduced (level : Nat)
  deriving DecidableEq

/-- The names in force at a place with what they stand for, the innermost first. -/
structure Bindings where
  entries : List (String × Variable)

namespace Bindings

/-- What a name stands for. -/
def find? (b : Bindings) (name : String) : Option Variable :=
  (b.entries.find? fun e => e.1 = name).map (·.2)

/-- One more name, which hides those that are the same. -/
def bind (b : Bindings) (name : String) (x : Variable) : Bindings := ⟨(name, x) :: b.entries⟩

/-- The number of variables that statements introduced. -/
def level (b : Bindings) : Nat :=
  b.entries.countP fun e => match e.2 with
    | .introduced _ => true
    | .parameter _ => false

/-- A name that a statement introduces. -/
def introduce (b : Bindings) (name : String) : Bindings := b.bind name (.introduced b.level)

/-- The names of parameters. -/
def ofParameters (names : List String) : Bindings := ⟨names.map fun n => (n, .parameter n)⟩

lemma find?_bind (b : Bindings) (name other : String) (x : Variable) :
    (b.bind name x).find? other = if other = name then some x else b.find? other := by
  rw [find?, bind, List.find?_cons]
  by_cases h : other = name
  · simp [h]
  · simp [h, Ne.symm h, find?]

lemma find?_introduce (b : Bindings) (name other : String) :
    (b.introduce name).find? other
      = if other = name then some (.introduced b.level) else b.find? other :=
  find?_bind b name other _

lemma level_introduce (b : Bindings) (name : String) : (b.introduce name).level = b.level + 1 :=
  List.countP_cons_of_pos rfl

lemma level_ofParameters (names : List String) : (ofParameters names).level = 0 := by
  rw [level, ofParameters, List.countP_eq_zero]
  intro e he
  obtain ⟨n, -, rfl⟩ := List.mem_map.1 he
  exact Bool.false_ne_true

lemma find?_ofParameters {names : List String} {name : String} (h : name ∈ names) :
    (ofParameters names).find? name = some (.parameter name) := by
  rw [find?, ofParameters, List.find?_map]
  have hfind : names.find? ((fun e : String × Variable => decide (e.1 = name)) ∘ fun n =>
      (n, Variable.parameter n)) = some name := by
    have hsome : (names.find? fun n => decide (n = name)).isSome = true :=
      List.find?_isSome.2 ⟨name, h, by simp⟩
    obtain ⟨n, hn⟩ := Option.isSome_iff_exists.1 hsome
    obtain rfl : n = name := by simpa using List.find?_some hn
    exact hn
  rw [hfind]
  rfl

end Bindings

/-! ## Places -/

namespace Expression

mutual

/-- The texts in an expression that stand where a variable may stand. -/
def places : Expression → List String
  | verbatim t => [t]
  | member v _ => [v]
  | reference _ e | dereference e | cast e _ | propagate e => e.places
  | call _ arguments => placesAll arguments
  | methodCall e _ arguments => e.places ++ placesAll arguments

/-- Those in a list of expressions. -/
def placesAll : List Expression → List String
  | [] => []
  | e :: rest => e.places ++ placesAll rest

end

/-- Whether an expression is the receiver. -/
def isSelf : Expression → Bool
  | verbatim t => t == "self"
  | _ => false

@[simp] lemma places_invoke (e : Expression) (method : String) :
    (e.invoke method).places = e.places := by simp [invoke, places, placesAll]

@[simp] lemma places_clone (e : Expression) : e.clone.places = e.places := places_invoke e _

@[simp] lemma places_checked (fallible : Bool) (e : Expression) :
    (checked fallible e).places = e.places := by
  cases fallible <;> rfl

end Expression

/-- A text that stands where a variable may stand, with the bindings there. -/
structure Place where
  bindings : Bindings
  text : String

namespace Statement

/-- The bindings behind a statement. -/
def after (b : Bindings) : Statement → Bindings
  | declare _ name e => if e.isSelf then b.bind name (.parameter name) else b.introduce name
  | _ => b

mutual

/-- The places in a statement. -/
def places (b : Bindings) : Statement → List Place
  | declare _ _ e | run e | give e => e.places.map (Place.mk b)
  | assign target e => (target.places ++ e.places).map (Place.mk b)
  | comment _ => []
  | loop item items body => items.places.map (Place.mk b) ++ placesAll (b.introduce item) body

/-- The places in statements that stand one behind the other. -/
def placesAll (b : Bindings) : List Statement → List Place
  | [] => []
  | s :: rest => s.places b ++ placesAll (s.after b) rest

end

lemma placesAll_append (b : Bindings) (ss ts : List Statement) :
    placesAll b (ss ++ ts) = placesAll b ss ++ placesAll (ss.foldl after b) ts := by
  induction ss generalizing b with
  | nil => rfl
  | cons s ss ih => rw [List.cons_append, placesAll, placesAll, ih, List.append_assoc]; rfl

section

variable {α : Type} {b : Bindings} {f : α → List Statement}

lemma after_flatMap (h : ∀ x, (f x).foldl after b = b) (xs : List α) :
    (xs.flatMap f).foldl after b = b := by
  induction xs with
  | nil => rfl
  | cons x xs ih => rw [List.flatMap_cons, List.foldl_append, h, ih]

/-- The places in pieces that leave the bindings as they are. -/
lemma placesAll_flatMap (h : ∀ x, (f x).foldl after b = b) (xs : List α) :
    placesAll b (xs.flatMap f) = xs.flatMap fun x => placesAll b (f x) := by
  induction xs with
  | nil => rfl
  | cons x xs ih => rw [List.flatMap_cons, List.flatMap_cons, placesAll_append, h, ih]

end

end Statement

end FieldCopy
