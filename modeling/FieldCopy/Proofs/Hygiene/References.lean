import Mathlib
import FieldCopy.Code.Conversion
import FieldCopy.Proofs.Hygiene.Bindings

/-!
# What the code of a conversion refers to

Where a variable stands in the function of a conversion, one of four is meant: the source, the
destination, the item of a loop, or the element that a delegate fills.  A text from a directive
stands there as well; it may name the parameters.

**References.**  `Conversion.references` lists what is meant in the places of the function, part by
part, with the names that are in force.  `Conversion.places_body` says that this is what the
function is made of: the names in its places are those of what is meant there.
-/

namespace FieldCopy

open Statement

/-- What is meant by a text that stands where a variable may stand. -/
inductive Role where
  | source
  | target
  | item
  | element
  /-- An expression that a directive gives. -/
  | given (text : String)
  /-- A text that names no variable. -/
  | fixed (text : String)

/-- What is meant in a place. -/
structure Reference where
  bindings : Bindings
  role : Role

namespace Conversion

section

variable (c : Conversion)

/-- The text for what is meant. -/
def written : Role → String
  | .source => c.source
  | .target => c.target
  | .item => "item"
  | .element => "element"
  | .given text | .fixed text => text

/-- The place for what is meant. -/
def placeOf (r : Reference) : Place := ⟨r.bindings, c.written r.role⟩

/-! ## Bindings in the function -/

/-- Where the function begins. -/
def outer : Bindings := .ofParameters (c.parameters.map Prod.fst)

/-- Where the receiver has its name. -/
def entry : Bindings :=
  c.endpoints.receiver.elim c.outer fun r => c.outer.bind r.name (.parameter r.name)

/-- Where the destination is there. -/
def inner : Bindings :=
  match c.instructions.style with
  | .result => c.entry.introduce c.target
  | .argument => c.entry

/-! ## References -/

def receiverReferences : List Reference :=
  c.endpoints.receiver.toList.map fun _ => ⟨c.outer, .fixed "self"⟩

/-- Whether the destination is created with room for the items of the source. -/
def reservesRoom : Bool :=
  c.plan.hasLoop && "Vec<".toList.isPrefixOf c.endpoints.target.written.toList

def openingReferences : List Reference :=
  match c.plan.assignments.isEmpty, c.instructions.style with
  | true, .result => [⟨c.entry, .source⟩]
  | true, .argument => [⟨c.entry, .target⟩, ⟨c.entry, .source⟩]
  | false, .result => if c.reservesRoom then [⟨c.entry, .source⟩] else []
  | false, .argument => []

def hookReferences : Option Hook → List Reference
  | none => []
  | some _ => [⟨c.inner, .target⟩, ⟨c.inner, .source⟩]

/-- References in the body of a loop that calls a delegate of this shape. -/
def delegateReferences (b : Bindings) : Option CallShape → List Reference
  | some ⟨.argument, reversed, receiver⟩ =>
      let b := b.introduce "element"
      let call : List Reference := match receiver, reversed with
        | some .source, _ | none, true => [⟨b, .item⟩, ⟨b, .element⟩]
        | some .target, _ | none, false => [⟨b, .element⟩, ⟨b, .item⟩]
      call ++ [⟨b, .target⟩, ⟨b, .element⟩]
  | some ⟨.result, _, _⟩ | none => [⟨b, .target⟩, ⟨b, .item⟩]

def assignmentReferences (siblings : Keyed CallShape) : Assignment → List Reference
  | .delegateLoop _ _ _ function _ =>
      let clear : List Reference := match c.instructions.style with
        | .argument => [⟨c.inner, .target⟩]
        | .result => []
      clear ++ ⟨c.inner, .source⟩
        :: delegateReferences (c.inner.introduce "item") (siblings.find? function)
  | .skip _ _ => []
  | .literal _ text => [⟨c.inner, .target⟩, ⟨c.inner, .given text⟩]
  | .copy _ _ | .cast _ _ _ | .getter _ _ | .stringer _ _ | .converter _ _ _ _ _
  | .method _ _ _ => [⟨c.inner, .target⟩, ⟨c.inner, .source⟩]

def endingReferences : List Reference :=
  match c.instructions.style, c.fallible with
  | .result, _ => [⟨c.inner, .target⟩]
  | .argument, true => [⟨c.inner, .fixed "()"⟩]
  | .argument, false => []

/-- What is meant in the places of the function, in order. -/
def references (siblings : Keyed CallShape) : List Reference :=
  c.receiverReferences ++ c.openingReferences ++ c.hookReferences c.plan.before
    ++ c.plan.assignments.flatMap (c.assignmentReferences siblings)
    ++ c.hookReferences c.plan.after ++ c.endingReferences

end

/-! ## The places of the function -/

section

variable (k : Catalog) (c : Conversion)

lemma places_receiverStatement :
    placesAll c.outer c.receiverStatement = c.receiverReferences.map c.placeOf := by
  rw [receiverStatement, receiverReferences]
  cases c.endpoints.receiver <;> rfl

lemma after_receiverStatement : c.receiverStatement.foldl after c.outer = c.entry := by
  rw [receiverStatement, entry]
  cases c.endpoints.receiver <;> rfl

lemma places_whole : (c.whole k).places = [c.source] := by
  rw [whole]
  simp only
  split
  · split
    · simp [sourceValue, Expression.places]
    · split
      · split <;> rfl
      · simp [sourceValue, Expression.places]
  · simp [sourceValue, Expression.places]

lemma places_start : c.start.places = if c.reservesRoom then [c.source] else [] := by
  rw [start, reservesRoom]
  split <;> rfl

lemma isSelf_whole : (c.whole k).isSelf = false := by
  rw [whole]
  simp only
  split
  · split
    · rfl
    · split
      · split <;> rfl
      · rfl
  · rfl

lemma isSelf_start : c.start.isSelf = false := by
  rw [start]
  split <;> rfl

lemma after_opening : (c.opening k).foldl after c.entry = c.inner := by
  rw [opening, inner]
  cases c.plan.assignments.isEmpty <;> cases c.instructions.style
    <;> simp [after, isSelf_whole, isSelf_start]

lemma places_opening :
    placesAll c.entry (c.opening k) = c.openingReferences.map c.placeOf := by
  rw [opening, openingReferences]
  cases c.plan.assignments.isEmpty <;> cases c.instructions.style
  case true.result => simp [placesAll, places, places_whole, placeOf, written]
  case true.argument =>
    simp [placesAll, places, places_whole, placeOf, written, Expression.places, targetValue]
  case false.result =>
    simp only [placesAll, places, places_start, List.append_nil]
    split <;> rfl
  case false.argument => rfl

lemma after_hook (h : Option Hook) : (c.hook h).foldl after c.inner = c.inner := by
  cases h <;> rfl

lemma places_hook (h : Option Hook) :
    placesAll c.inner (c.hook h) = (c.hookReferences h).map c.placeOf := by
  cases h with
  | none => rfl
  | some h =>
      rw [hook, hookReferences, placesAll, places, Expression.places_checked]
      cases hstyle : c.instructions.style <;>
        simp [Expression.places, Expression.placesAll, targetArgument, hstyle, targetValue,
          sourceValue, placeOf, written, placesAll]

lemma places_delegate (b : Bindings) (call : Option CallShape) (function element : String)
    (fallible : Bool) :
    placesAll b (c.delegate call function element fallible)
      = (delegateReferences b call).map c.placeOf := by
  rcases call with _ | ⟨style, reversed, receiver⟩
  · cases fallible <;> rfl
  · cases style with
    | result => cases receiver <;> cases fallible <;> rfl
    | argument =>
        rcases receiver with _ | receiver
        · cases reversed <;> cases fallible <;> rfl
        · cases receiver <;> cases fallible <;> rfl

lemma after_assignment (siblings : Keyed CallShape) (a : Assignment) :
    (c.assignment k siblings a).foldl after c.inner = c.inner := by
  cases a with
  | delegateLoop _ _ _ _ _ =>
      rw [assignment]
      cases c.instructions.style <;> rfl
  | _ => rfl

lemma places_assignment (siblings : Keyed CallShape) (a : Assignment) :
    placesAll c.inner (c.assignment k siblings a)
      = (c.assignmentReferences siblings a).map c.placeOf := by
  cases a with
  | delegateLoop _ _ element function fallible =>
      have hbody := fun b element =>
        c.places_delegate b (siblings.find? function) function element fallible
      rw [assignment, assignmentReferences]
      cases c.instructions.style <;> simp [placesAll, places, after, hbody, placeOf, written,
        Expression.places, targetValue, sourceValue]
  | copy field path =>
      simp only [assignment, fieldValue?, assignmentReferences]
      split_ifs <;> rfl
  | cast _ _ type =>
      simp only [assignment, fieldValue?, assignmentReferences]
      split_ifs <;> rfl
  | converter _ _ _ byReference fallible => cases byReference <;> cases fallible <;> rfl
  | method _ _ fallible => cases fallible <;> rfl
  | getter _ _ | stringer _ _ | literal _ _ | skip _ _ => rfl

lemma places_ending : placesAll c.inner c.ending = c.endingReferences.map c.placeOf := by
  rw [ending, endingReferences]
  cases c.instructions.style <;> cases c.fallible <;> rfl

/-- **The names in the places of a function are those of what is meant there.** -/
theorem places_body (siblings : Keyed CallShape) :
    placesAll c.outer (c.body k siblings) = (c.references siblings).map c.placeOf := by
  have hassignments : placesAll c.inner (c.plan.assignments.flatMap (c.assignment k siblings))
      = (c.plan.assignments.flatMap (c.assignmentReferences siblings)).map c.placeOf := by
    rw [placesAll_flatMap (c.after_assignment k siblings), List.map_flatMap]
    exact List.flatMap_congr fun a _ => c.places_assignment k siblings a
  have hafter : (c.plan.assignments.flatMap (c.assignment k siblings)).foldl after c.inner
      = c.inner := after_flatMap (c.after_assignment k siblings) _
  simp only [body, references, placesAll_append, List.foldl_append, after_receiverStatement,
    after_opening, after_hook, hafter, places_receiverStatement, places_opening, places_hook,
    hassignments, places_ending, List.map_append]

end

end Conversion

end FieldCopy
