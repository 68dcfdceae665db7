import Mathlib
import FieldCopy.Proofs.Endpoints
import FieldCopy.Proofs.GroundedGeneration
import FieldCopy.Proofs.Hygiene.References

/-!
# Which names hide others

The function of a conversion introduces a destination if that is the result, and in a loop an item
and perhaps an element.  Their names are fixed, while those of the parameters are not.

**Standing for what is meant.**  The function is hygienic if in every place the name of what is
meant there stands for it (`Conversion.Hygienic`).  A text from a directive means the parameters
that it names.

**Main statement.**  `SourceUnit.hygienic_iff` says exactly when a function is hygienic.  Two things
go wrong (`Conversion.Captures`).  A destination that is the result is called `out` if a parameter
is called `dst`, and hides a parameter `out`.  And a destination that is a parameter is hidden
inside a loop if it is called `item`, or `element` where the loop makes an element.
`SourceUnit.exists_captured` has a function for either.
-/

namespace FieldCopy

/-! ## Names in texts -/

/-- Whether a character can be part of a name. -/
def isNameChar (ch : Char) : Bool := isAlphanumeric ch || ch == '_' || ch == '#'

/-- The names in a text: its longest pieces of characters of names. -/
def namesIn (text : String) : List String :=
  (text.toList.splitOnP fun ch => !isNameChar ch).map String.ofList

namespace Conversion

section

variable (c : Conversion)

def parameterNames : List String := c.declaration.parameters.map Parameter.name

/-- What the destination is. -/
def destination : Variable :=
  match c.instructions.style with
  | .result => .introduced 0
  | .argument => .parameter c.target

/-- The number of variables that the function introduces outside of loops. -/
def outerLevel : Nat :=
  match c.instructions.style with
  | .result => 1
  | .argument => 0

/-- What is meant in a place stands there. -/
def Holds (b : Bindings) : Role → Prop
  | .source => b.find? c.source = some (.parameter c.source)
  | .target => b.find? c.target = some c.destination
  | .item => b.find? "item" = some (.introduced c.outerLevel)
  | .element => b.find? "element" = some (.introduced (c.outerLevel + 1))
  | .given text => ∀ name ∈ c.parameterNames, name ∈ namesIn text →
      b.find? name = some (.parameter name)
  | .fixed _ => True

/-- The places of the function stand for what is meant in them. -/
def Hygienic (siblings : Keyed CallShape) : Prop :=
  ∀ r ∈ c.references siblings, c.Holds r.bindings r.role

/-- The destination is called as the source is. -/
def HidesSource : Prop :=
  c.instructions.style = .result ∧ "dst" ∈ c.parameterNames ∧ c.source = "out"

/-- The destination is called as a parameter that a text names. -/
def HidesNamed (text : String) : Prop :=
  c.instructions.style = .result ∧ "dst" ∈ c.parameterNames ∧ "out" ∈ c.parameterNames
    ∧ "out" ∈ namesIn text

/-- The destination is called as something that a loop introduces whose delegate is called so. -/
def HidesTarget (call : Option CallShape) : Prop :=
  c.instructions.style = .argument
    ∧ (c.target = "item" ∨ c.target = "element" ∧ call.any fun call => call.style = .argument)

/-- Something that an assignment refers to is hidden. -/
def HidesIn (siblings : Keyed CallShape) : Assignment → Prop
  | .delegateLoop _ _ _ function _ => c.HidesSource ∨ c.HidesTarget (siblings.find? function)
  | .literal _ text => c.HidesNamed text
  | .skip _ _ => False
  | .copy _ _ | .cast _ _ _ | .getter _ _ | .stringer _ _ | .converter _ _ _ _ _
  | .method _ _ _ => c.HidesSource

/-- Something that the function refers to behind its opening is hidden. -/
inductive Captures (siblings : Keyed CallShape) : Prop where
  | hook (hidden : c.HidesSource) (called : c.plan.before.isSome ∨ c.plan.after.isSome)
  | assignment {a : Assignment} (mem : a ∈ c.plan.assignments) (hidden : c.HidesIn siblings a)

end

/-! ## What names stand for -/

lemma target_of_result {c : Conversion} (style : c.instructions.style = .result) :
    c.target = if "dst" ∈ c.parameterNames then "out" else "dst" := by
  have htaken : (c.declaration.parameters.any fun p => p.name == "dst") = true
      ↔ "dst" ∈ c.parameterNames := by
    rw [List.any_eq_true, parameterNames, List.mem_map]
    simp only [beq_iff_eq]
  rw [target, style]
  exact if_congr htaken rfl rfl

lemma target_ne_of_result {c : Conversion} (style : c.instructions.style = .result) :
    c.target ≠ "item" ∧ c.target ≠ "element" := by
  rw [target_of_result style]
  split <;> decide

lemma target_of_argument {c : Conversion} (style : c.instructions.style = .argument) :
    c.target = c.endpoints.target.name := by
  rw [target, style]

lemma level_entry (c : Conversion) : c.entry.level = 0 := by
  rw [entry]
  cases c.endpoints.receiver with
  | none => exact Bindings.level_ofParameters _
  | some r =>
      exact (List.countP_cons_of_neg Bool.false_ne_true).trans (Bindings.level_ofParameters _)

lemma level_inner (c : Conversion) : c.inner.level = c.outerLevel := by
  rw [inner, outerLevel]
  cases c.instructions.style with
  | result => exact (Bindings.level_introduce _ _).trans (congrArg (· + 1) c.level_entry)
  | argument => exact c.level_entry

/-- Every parameter has its name where the receiver has one. -/
lemma find?_entry {c : Conversion} {name : String} (h : name ∈ c.parameterNames) :
    c.entry.find? name = some (.parameter name) := by
  obtain ⟨p, hp, rfl⟩ := List.mem_map.1 h
  have houter : (c.endpoints.receiver.any fun r => r.name == p.name) = false →
      c.outer.find? p.name = some (.parameter p.name) := fun hfree =>
    Bindings.find?_ofParameters (List.mem_map.2 ⟨(p.name, p.written),
      List.mem_map_of_mem (List.mem_filter.2 ⟨hp, by rw [hfree]; rfl⟩), rfl⟩)
  rw [entry]
  cases hreceiver : c.endpoints.receiver with
  | none => exact houter (by rw [hreceiver]; rfl)
  | some r =>
      rw [Option.elim_some, Bindings.find?_bind]
      split
      · rename_i hname
        rw [hname]
      · rename_i hname
        exact houter (by rw [hreceiver]; simpa using Ne.symm hname)

/-- A destination that is the result has the name of a parameter only if that is `out`, and another
one is called `dst`. -/
lemma target_eq_iff {c : Conversion} (style : c.instructions.style = .result) {name : String}
    (h : name ∈ c.parameterNames) :
    c.target = name ↔ "dst" ∈ c.parameterNames ∧ name = "out" := by
  rw [target_of_result style]
  by_cases htaken : "dst" ∈ c.parameterNames
  · rw [if_pos htaken, and_iff_right htaken, eq_comm]
  · rw [if_neg htaken]
    exact iff_of_false (fun heq => htaken (heq ▸ h)) fun hout => htaken hout.1

/-- Where the destination is there, a parameter has its name unless it is `out` and hidden. -/
lemma find?_inner_iff {c : Conversion} {name : String} (h : name ∈ c.parameterNames) :
    c.inner.find? name = some (.parameter name)
      ↔ ¬ (c.instructions.style = .result ∧ "dst" ∈ c.parameterNames ∧ name = "out") := by
  rw [inner]
  cases style : c.instructions.style with
  | argument => simp [find?_entry h]
  | result =>
      rw [Bindings.find?_introduce, find?_entry h, ← target_eq_iff style h]
      by_cases hname : name = c.target
      · simp [hname]
      · simp [hname, Ne.symm hname]

section

variable {c : Conversion} (chosen : c.endpoints.Chosen c.declaration c.instructions)

include chosen

lemma source_mem : c.source ∈ c.parameterNames := List.mem_map_of_mem chosen.source_mem

lemma target_mem (style : c.instructions.style = .argument) : c.target ∈ c.parameterNames := by
  rw [target_of_argument style]
  exact List.mem_map_of_mem (chosen.target_mem style)

lemma holds_entry_source : c.Holds c.entry .source := find?_entry (source_mem chosen)

lemma holds_entry_target (style : c.instructions.style = .argument) :
    c.Holds c.entry .target := by
  rw [Holds, destination, style]
  exact find?_entry (target_mem chosen style)

lemma find?_inner_target : c.inner.find? c.target = some c.destination := by
  rw [inner, destination]
  cases style : c.instructions.style with
  | result => exact (Bindings.find?_introduce _ _ _).trans (by rw [if_pos rfl, level_entry])
  | argument => exact find?_entry (target_mem chosen style)

lemma holds_inner_source_iff : c.Holds c.inner .source ↔ ¬ c.HidesSource :=
  find?_inner_iff (source_mem chosen)

omit chosen in
lemma holds_inner_given_iff (text : String) :
    c.Holds c.inner (.given text) ↔ ¬ c.HidesNamed text := by
  constructor
  · rintro hholds ⟨style, htaken, hout, hnamed⟩
    exact (find?_inner_iff hout).1 (hholds "out" hout hnamed) ⟨style, htaken, rfl⟩
  · intro hfree name hname hnamed
    refine (find?_inner_iff hname).2 ?_
    rintro ⟨style, htaken, rfl⟩
    exact hfree ⟨style, htaken, hname, hnamed⟩

end

/-! ## Inside a loop -/

/-- Where the item of a loop has its name. -/
def looping (c : Conversion) : Bindings := c.inner.introduce "item"

/-- Where the element has its name that a delegate fills. -/
def filling (c : Conversion) : Bindings := c.looping.introduce "element"

lemma find?_looping (c : Conversion) (name : String) :
    c.looping.find? name
      = if name = "item" then some (.introduced c.outerLevel) else c.inner.find? name := by
  rw [looping, Bindings.find?_introduce, level_inner]

lemma find?_filling (c : Conversion) (name : String) :
    c.filling.find? name
      = if name = "element" then some (.introduced (c.outerLevel + 1))
        else c.looping.find? name := by
  rw [filling, Bindings.find?_introduce, looping, Bindings.level_introduce, level_inner]

lemma holds_item (c : Conversion) : c.Holds c.looping .item ∧ c.Holds c.filling .item := by
  simp [Holds, find?_looping, find?_filling]

lemma holds_element (c : Conversion) : c.Holds c.filling .element := by
  simp [Holds, find?_filling]

section

variable {c : Conversion} (chosen : c.endpoints.Chosen c.declaration c.instructions)

include chosen

lemma holds_looping_target_iff : c.Holds c.looping .target
    ↔ ¬ (c.instructions.style = .argument ∧ c.target = "item") := by
  rw [Holds, find?_looping, find?_inner_target chosen, destination, outerLevel]
  cases style : c.instructions.style with
  | result => simp [target_ne_of_result style]
  | argument => by_cases h : c.target = "item" <;> simp [h]

lemma holds_filling_target_iff : c.Holds c.filling .target
    ↔ ¬ (c.instructions.style = .argument ∧ (c.target = "item" ∨ c.target = "element")) := by
  rw [Holds, find?_filling, find?_looping, find?_inner_target chosen, destination, outerLevel]
  cases style : c.instructions.style with
  | result => simp [target_ne_of_result style]
  | argument =>
      by_cases hitem : c.target = "item" <;> by_cases helement : c.target = "element" <;>
        simp [hitem, helement]

/-- Where a delegate is called, only the destination can be hidden. -/
lemma holds_delegateReferences_iff (call : Option CallShape) :
    (∀ r ∈ delegateReferences c.looping call, c.Holds r.bindings r.role)
      ↔ ¬ c.HidesTarget call := by
  have hitem := c.holds_item
  have helement := c.holds_element
  rcases call with _ | ⟨style, reversed, receiver⟩
  · simp [delegateReferences, HidesTarget, holds_looping_target_iff chosen, hitem.1]
  · cases style with
    | result => simp [delegateReferences, HidesTarget, holds_looping_target_iff chosen, hitem.1]
    | argument =>
        have hfilling : c.looping.introduce "element" = c.filling := rfl
        have hcall : (∀ r ∈ delegateReferences c.looping (some ⟨.argument, reversed, receiver⟩),
            c.Holds r.bindings r.role) ↔ c.Holds c.filling .target := by
          rcases receiver with _ | receiver
          · cases reversed <;> simp [delegateReferences, hfilling, hitem.2, helement]
          · cases receiver <;> simp [delegateReferences, hfilling, hitem.2, helement]
        rw [hcall, holds_filling_target_iff chosen]
        simp [HidesTarget]

/-! ## The whole function -/

lemma holds_hookReferences_iff (h : Option Hook) :
    (∀ r ∈ c.hookReferences h, c.Holds r.bindings r.role)
      ↔ ¬ (c.HidesSource ∧ h.isSome = true) := by
  have htarget : c.Holds c.inner .target := find?_inner_target chosen
  cases h <;> simp [hookReferences, htarget, holds_inner_source_iff chosen]

lemma holds_assignmentReferences_iff (siblings : Keyed CallShape) (a : Assignment) :
    (∀ r ∈ c.assignmentReferences siblings a, c.Holds r.bindings r.role)
      ↔ ¬ c.HidesIn siblings a := by
  have htarget : c.Holds c.inner .target := find?_inner_target chosen
  have hsource := holds_inner_source_iff chosen
  cases a with
  | delegateLoop _ _ _ function _ =>
      have hloop := holds_delegateReferences_iff chosen (siblings.find? function)
      rw [looping] at hloop
      cases style : c.instructions.style <;>
        simp [assignmentReferences, style, hsource, hloop, htarget, HidesIn]
  | literal _ text => simp [assignmentReferences, htarget, holds_inner_given_iff, HidesIn]
  | skip _ _ => simp [assignmentReferences, HidesIn]
  | _ => simp [assignmentReferences, hsource, htarget, HidesIn]

lemma holds_openingReferences : ∀ r ∈ c.openingReferences, c.Holds r.bindings r.role := by
  have hsource := holds_entry_source chosen
  rw [openingReferences]
  cases c.plan.assignments.isEmpty with
  | true =>
      cases style : c.instructions.style with
      | result => simpa using hsource
      | argument => simpa using ⟨holds_entry_target chosen style, hsource⟩
  | false =>
      cases c.instructions.style with
      | result => cases c.reservesRoom <;> simp [hsource]
      | argument => simp

lemma holds_endingReferences : ∀ r ∈ c.endingReferences, c.Holds r.bindings r.role := by
  have htarget : c.Holds c.inner .target := find?_inner_target chosen
  have hfixed : ∀ text, c.Holds c.inner (.fixed text) := fun _ => trivial
  rw [endingReferences]
  cases c.instructions.style <;> cases c.fallible <;> simp [htarget, hfixed]

omit chosen in
lemma holds_receiverReferences : ∀ r ∈ c.receiverReferences, c.Holds r.bindings r.role := by
  rw [receiverReferences]
  cases c.endpoints.receiver <;> simp [Holds]

/-- **A function is hygienic unless something is hidden** that it refers to behind its opening. -/
lemma hygienic_iff_not_captures (siblings : Keyed CallShape) :
    c.Hygienic siblings ↔ ¬ c.Captures siblings := by
  have hparts : c.Hygienic siblings ↔
      (∀ r ∈ c.hookReferences c.plan.before, c.Holds r.bindings r.role)
        ∧ (∀ a ∈ c.plan.assignments, ∀ r ∈ c.assignmentReferences siblings a,
            c.Holds r.bindings r.role)
        ∧ ∀ r ∈ c.hookReferences c.plan.after, c.Holds r.bindings r.role := by
    have hreceiver := c.holds_receiverReferences
    have hopening := holds_openingReferences chosen
    have hending := holds_endingReferences chosen
    simp only [Hygienic, references, List.forall_mem_append, List.forall_mem_flatMap]
    tauto
  rw [hparts, holds_hookReferences_iff chosen, holds_hookReferences_iff chosen]
  simp only [holds_assignmentReferences_iff chosen]
  constructor
  · rintro ⟨hbefore, hassignments, hafter⟩ (⟨hidden, called⟩ | ⟨mem, hidden⟩)
    · rcases called with called | called
      · exact hbefore ⟨hidden, called⟩
      · exact hafter ⟨hidden, called⟩
    · exact hassignments _ mem hidden
  · intro hfree
    exact ⟨fun h => hfree (.hook h.1 (.inl h.2)),
      fun a mem hidden => hfree (.assignment mem hidden), fun h => hfree (.hook h.1 (.inr h.2))⟩

/-- The destination is called as the source is only if it hides it. -/
lemma target_eq_source_iff (distinct : c.parameterNames.Nodup) :
    c.target = c.source ↔ c.HidesSource := by
  rw [HidesSource]
  cases style : c.instructions.style with
  | result => simpa using target_eq_iff style (source_mem chosen)
  | argument =>
      rw [target_of_argument style]
      exact iff_of_false (chosen.source_ne_target style distinct).symm (by simp)

end

end Conversion

namespace SourceUnit

open Generation

/-- **When names stand for what is meant.**  The places of a function are those of its references.
All of them stand for what is meant in them unless a destination that is the result hides a
parameter `out`, or a loop hides a destination that is a parameter; and the same goes for every
assignment alone.  The destination is called as the source is only in the first of these cases. -/
theorem hygienic_iff (unit : SourceUnit) {c : Conversion} (hc : c ∈ unit.conversions)
    (distinct : c.parameterNames.Nodup) :
    let calls := callShapes unit.entries
    let code := c.code unit.catalog calls
    Statement.placesAll (.ofParameters (code.parameters.map Prod.fst)) code.body
        = (c.references calls).map c.placeOf
      ∧ (c.Hygienic calls ↔ ¬ c.Captures calls)
      ∧ (∀ a ∈ c.plan.assignments,
          (∀ r ∈ c.assignmentReferences calls a, c.Holds r.bindings r.role)
            ↔ ¬ c.HidesIn calls a)
      ∧ (c.target = c.source ↔ c.HidesSource) := by
  intro calls code
  have chosen := chosen_of_mem hc
  exact ⟨c.places_body unit.catalog calls, Conversion.hygienic_iff_not_captures chosen calls,
    fun a _ => Conversion.holds_assignmentReferences_iff chosen calls a,
    Conversion.target_eq_source_iff chosen distinct⟩

/-- Conversions of pets whose parameters are called in three ways. -/
def kennel : SourceUnit :=
  let position : Position := ⟨"kennel.rs", 1, 1⟩
  let method (name : String) (parameters : List Parameter) (result : Option Parameter)
      (lines : List String) : Declaration :=
    { name, position, parameters, result
      docs := []
      lines := lines.map fun text => ⟨text, position⟩
      fallible := false
      errorType := none }
  { file := "kennel.rs"
    catalog := { Catalog.empty with
      types := #[⟨⟨0⟩, "String", .basic⟩, ⟨⟨1⟩, "Pet", .struct ⟨0⟩⟩, ⟨⟨2⟩, "Vec<Pet>", .slice ⟨1⟩⟩,
        ⟨⟨3⟩, "&mut Vec<Pet>", .pointer ⟨2⟩⟩, ⟨⟨4⟩, "&[Pet]", .slice ⟨1⟩⟩]
      structs := #[⟨"Pet", "", [⟨"name", ⟨0⟩, none, false, false⟩], []⟩] }
    interfaces := [⟨"Convert", position, [],
      [method "pet" [⟨"src", ⟨1⟩, "Pet"⟩] (some ⟨"dst", ⟨1⟩, "Pet"⟩) [],
        method "pets" [⟨"item", ⟨3⟩, "&mut Vec<Pet>"⟩, ⟨"src", ⟨4⟩, "&[Pet]"⟩] none
          [":style arg", ":struct_conv pet"],
        method "named" [⟨"out", ⟨1⟩, "Pet"⟩, ⟨"dst", ⟨0⟩, "String"⟩] (some ⟨"dst", ⟨1⟩, "Pet"⟩)
          []]⟩]
    uses := [] }

/-- The conversions of the three methods. -/
def kennelConversion (method : Fin 3) : Conversion :=
  kennel.conversions.get (Fin.cast (by rfl) method)

lemma kennelConversion_mem (method : Fin 3) : kennelConversion method ∈ kennel.conversions :=
  List.get_mem _ _

/-- The conversion of a pet captures no name. -/
theorem kennel_pet_hygienic :
    ∃ c ∈ kennel.conversions, c.declaration.name = "pet" ∧ c.parameterNames.Nodup
      ∧ c.Hygienic (callShapes kennel.entries) ∧ c.target ≠ c.source := by
  have hpet := kennelConversion_mem 0
  have hassignments : (kennelConversion 0).plan.assignments
      = [.copy "name" "name"] := by decide +kernel
  have hfree : ¬ (kennelConversion 0).HidesSource := fun h =>
    absurd h.2.1 (by decide +kernel)
  have h := hygienic_iff kennel hpet (by decide +kernel)
  refine ⟨_, hpet, by decide +kernel, by decide +kernel, h.2.1.2 ?_,
    fun heq => hfree (h.2.2.2.1 heq)⟩
  rintro (⟨hidden, -⟩ | ⟨mem, hidden⟩)
  · exact hfree hidden
  · rw [hassignments, List.mem_singleton] at mem
    subst mem
    exact hfree hidden

/-- **A name that a function introduces can hide what is meant.**  A loop adds to its own item, and
a destination hides the source. -/
theorem exists_captured :
    let calls := callShapes kennel.entries
    ∃ pets ∈ kennel.conversions, ∃ named ∈ kennel.conversions,
      pets.parameterNames.Nodup ∧ named.parameterNames.Nodup
        ∧ ¬ pets.Hygienic calls ∧ ¬ named.Hygienic calls
        ∧ Statement.linesAll (pets.code kennel.catalog calls).body
          = ["item.clear();", "for item in src.iter() \x7b", "    item.push(pet(item));", "\x7d"]
        ∧ Statement.linesAll (named.code kennel.catalog calls).body
          = ["let mut out = Pet::default();", "out.name = out.name.clone();", "out"] := by
  intro calls
  have hpets := kennelConversion_mem 1
  have hnamed := kennelConversion_mem 2
  have hloop : .delegateLoop "&mut Vec<Pet>" "&[Pet]" "Pet" "pet" false
      ∈ (kennelConversion 1).plan.assignments := by decide +kernel
  have hcopy : .copy "name" "name"
      ∈ (kennelConversion 2).plan.assignments := by decide +kernel
  have hitem : (kennelConversion 1).HidesTarget
      ((callShapes kennel.entries).find? "pet") := ⟨by decide +kernel, .inl (by decide +kernel)⟩
  have hout : (kennelConversion 2).HidesSource :=
    ⟨by decide +kernel, by decide +kernel, by decide +kernel⟩
  refine ⟨_, hpets, _, hnamed, by decide +kernel, by decide +kernel, fun hygienic => ?_,
    fun hygienic => ?_, by decide +kernel, by decide +kernel⟩
  · exact (Conversion.hygienic_iff_not_captures (chosen_of_mem hpets) _).1 hygienic
      (.assignment hloop (.inr hitem))
  · exact (Conversion.hygienic_iff_not_captures (chosen_of_mem hnamed) _).1 hygienic
      (.assignment hcopy hout)

end SourceUnit

end FieldCopy
