import Mathlib
import FieldCopy.Proofs.Directives.Acceptance
import FieldCopy.Proofs.Endpoints

/-!
# What a receiver serves as

A method can name one of its parameters as its receiver.  Others then call it on the source or on
the destination, whichever the receiver is said to be.

**Places.**  The ends stand at the front of the parameters, or at their front and in the result
(`Endpoints.Placed`), and a reversal swaps the first two (`Endpoints.select_reversed`).

**Serving.**  Any parameter can be named, also one behind the ends, which serves as neither of them.
What a receiver is said to be goes by its name: it is the destination if it is called like the
destination, and the source otherwise.  A result has a name of its own, which a parameter may have
as well.

**Main statement.**  `Endpoints.selection_told`: where the ends are, which receivers serve as an
end, and when what is said of them is true.  `Endpoints.exists_misplaced` has a receiver that serves
as neither end, and a source that is said to be the destination.
-/

namespace FieldCopy

/-- How many parameters are ends of a conversion. -/
def Style.ends : Style → ℕ
  | result => 1
  | argument => 2

namespace Instructions

/-- Lines that are accepted reverse arguments only. -/
lemma style_of_reversed {valid : List String} {lines : List Annotation} {i : Instructions}
    (accepted : (ofLines valid lines).outcome.value = .ok i) (hreversed : i.reversed = true) :
    i.style = .argument := by
  obtain ⟨hall, hfree⟩ := ofLines_isOk_iff.1 ⟨i, accepted⟩
  obtain rfl := Except.ok.inj ((ofLines_of_accepted hall hfree).value.symm.trans accepted)
  cases hstyle : (ofSaid (said valid lines)).style with
  | argument => rfl
  | result =>
      exact absurd ⟨exists_gives_of_reversed hreversed,
        (lastDecides_ofSaid (said valid lines)).style ▸ hstyle⟩ hfree

end Instructions

namespace Endpoints

variable {m : Declaration} {i : Instructions} {e : Endpoints}

/-- What a parameter serves as.  A destination that is the result is not a parameter. -/
def ServesAs (e : Endpoints) (style : Style) (p : Parameter) : ReceiverEnd → Prop
  | .source => p = e.source
  | .target => style = .argument ∧ p = e.target

instance (e : Endpoints) (style : Style) (p : Parameter) :
    (side : ReceiverEnd) → Decidable (e.ServesAs style p side)
  | .source => inferInstanceAs (Decidable (p = e.source))
  | .target => inferInstanceAs (Decidable (style = .argument ∧ p = e.target))

/-- Where the ends of a method are. -/
structure Placed (m : Declaration) (i : Instructions) (e : Endpoints) : Prop where
  result : i.style = .result →
    i.reversed = false ∧ (∃ rest, m.parameters = e.source :: rest) ∧ m.result = some e.target
  arguments : i.style = .argument → e.source.name ≠ e.target.name
    ∧ ∃ rest, m.parameters
      = (if i.reversed then [e.source, e.target] else [e.target, e.source]) ++ rest

/-! ## Selection -/

lemma select_eq_ok_iff : select m i = .ok e ↔ choose m i = .ok e := by
  rw [select]
  cases choose m i <;> simp

lemma choose_of_result (hstyle : i.style = .result) :
    choose m i = .ok e
      ↔ ofResult m = .ok (e.source, e.target) ∧ receiverOf m i.receiver = .ok e.receiver := by
  rw [choose, hstyle]
  refine ⟨eq_ok_of_receiver, ?_⟩
  rintro ⟨hends, hreceiver⟩
  rw [hends, hreceiver]
  rfl

lemma choose_of_argument (hstyle : i.style = .argument) :
    choose m i = .ok e
      ↔ ofArguments m i.reversed = .ok (e.source, e.target)
        ∧ receiverOf m i.receiver = .ok e.receiver := by
  rw [choose, hstyle]
  refine ⟨eq_ok_of_receiver, ?_⟩
  rintro ⟨hends, hreceiver⟩
  rw [hends, hreceiver]
  rfl

/-- What is selected as receiver is what the instructions name. -/
lemma receiverOf_of_select (h : select m i = .ok e) :
    receiverOf m i.receiver = .ok e.receiver := by
  rw [select_eq_ok_iff] at h
  cases hstyle : i.style with
  | result => exact ((choose_of_result hstyle).1 h).2
  | argument => exact ((choose_of_argument hstyle).1 h).2

/-- There is a receiver if one is named. -/
lemma receiver_eq_none_iff (h : select m i = .ok e) : e.receiver = none ↔ i.receiver = none := by
  have hreceiver := receiverOf_of_select h
  constructor
  · intro hnone
    rw [hnone] at hreceiver
    cases hname : i.receiver with
    | none => rfl
    | some name =>
        rw [hname, receiverOf] at hreceiver
        split at hreceiver <;> exact absurd hreceiver (by simp)
  · intro hnone
    rw [hnone, receiverOf] at hreceiver
    exact (Except.ok.inj hreceiver).symm

lemma ofArguments_not {reversed : Bool} {source target : Parameter}
    (h : ofArguments m reversed = .ok (source, target)) :
    ofArguments m (!reversed) = .ok (target, source) := by
  rw [ofArguments] at h ⊢
  split at h
  · split at h
    · exact absurd h (by simp)
    · rename_i hresult
      rw [if_neg hresult]
      cases reversed <;> obtain ⟨rfl, rfl⟩ := Prod.mk.inj (Except.ok.inj h) <;> rfl
  · exact absurd h (by simp)

/-- **A reversal swaps the ends** and leaves the receiver alone. -/
lemma select_reversed (hstyle : i.style = .argument) (h : select m i = .ok e) :
    select m { i with reversed := !i.reversed } = .ok ⟨e.target, e.source, e.receiver⟩ := by
  obtain ⟨hends, hreceiver⟩ := (choose_of_argument hstyle).1 (select_eq_ok_iff.1 h)
  have hswapped : ({ i with reversed := !i.reversed } : Instructions).style = .argument := hstyle
  exact select_eq_ok_iff.2 ((choose_of_argument hswapped).2 ⟨ofArguments_not hends, hreceiver⟩)

/-- The places of the ends, if a result is not reversed and no two parameters share a name. -/
lemma placed_of_select (hreversed : i.reversed = true → i.style = .argument)
    (distinct : (m.parameters.map Parameter.name).Nodup) (h : select m i = .ok e) :
    Placed m i e := by
  rw [select_eq_ok_iff] at h
  constructor
  · intro hstyle
    have hplain : i.reversed = false := by
      by_contra hon
      exact absurd (hstyle.symm.trans (hreversed (by simpa using hon))) (by decide)
    exact ⟨hplain, ofResult_eq_ok ((choose_of_result hstyle).1 h).1⟩
  · intro hstyle
    exact ⟨(chosen_of_choose h).source_ne_target hstyle distinct,
      ofArguments_eq_ok ((choose_of_argument hstyle).1 h).1⟩

/-! ## Receivers -/

/-- The parameters at the front serve as ends, and no others. -/
lemma Placed.exists_servesAs_iff (h : Placed m i e) (p : Parameter) :
    (∃ side, e.ServesAs i.style p side) ↔ p ∈ m.parameters.take i.style.ends := by
  have hsides : (∃ side, e.ServesAs i.style p side)
      ↔ p = e.source ∨ i.style = .argument ∧ p = e.target := by
    constructor
    · rintro ⟨_ | _, hside⟩
      · exact .inl hside
      · exact .inr hside
    · rintro (hside | hside)
      · exact ⟨.source, hside⟩
      · exact ⟨.target, hside⟩
  rw [hsides]
  cases hstyle : i.style with
  | result =>
      obtain ⟨-, ⟨rest, hparameters⟩, -⟩ := h.result hstyle
      simp [hparameters, Style.ends]
  | argument =>
      obtain ⟨-, rest, hparameters⟩ := h.arguments hstyle
      rw [hparameters]
      cases i.reversed <;> simp [Style.ends, or_comm]

lemma receiver_of_iff {r : Parameter} (h : e.receiver = some r) :
    (CallShape.of i e).receiver = some .target ↔ r.name = e.target.name := by
  rw [CallShape.of, h, Option.map_some]
  by_cases hname : r.name = e.target.name
  · simp [hname]
  · simp [hname]

/-- What is said of a receiver is true unless it is called like the result. -/
lemma Placed.told_iff (h : Placed m i e) (distinct : (m.parameters.map Parameter.name).Nodup)
    {r : Parameter} (hr : e.receiver = some r) (hmem : r ∈ m.parameters) :
    ((CallShape.of i e).receiver = some .target ↔ e.ServesAs i.style r .target)
      ↔ ¬ (i.style = .result ∧ r.name = e.target.name) := by
  rw [receiver_of_iff hr]
  cases hstyle : i.style with
  | result => simp [ServesAs]
  | argument =>
      obtain ⟨-, rest, hparameters⟩ := h.arguments hstyle
      have htarget : e.target ∈ m.parameters := by
        rw [hparameters]
        cases i.reversed <;> simp
      have hsame : r.name = e.target.name ↔ r = e.target :=
        ⟨fun hname => List.inj_on_of_nodup_map distinct hmem htarget hname, congrArg _⟩
      simp [ServesAs, hsame]

/-- **What is selected, and what is said of the receiver.**  The ends are at the front, where style
and reversal have them, and reversing swaps them.  The receiver is the one parameter with the name
that is asked for.  It serves as an end exactly if it is one of the parameters at the front, and it
is said to be the destination exactly if it serves as that, unless it is called like a result. -/
theorem selection_told {valid : List String} {lines : List Annotation}
    (accepted : (Instructions.ofLines valid lines).outcome.value = .ok i)
    (distinct : (m.parameters.map Parameter.name).Nodup) (h : select m i = .ok e) :
    Placed m i e
      ∧ (i.style = .argument → select m { i with reversed := !i.reversed }
          = .ok ⟨e.target, e.source, e.receiver⟩)
      ∧ (e.receiver = none ↔ i.receiver = none)
      ∧ ∀ r, e.receiver = some r →
        (i.receiver = some r.name ∧ r ∈ m.parameters ∧ ∀ p ∈ m.parameters, p.name = r.name → p = r)
        ∧ ((∃ side, e.ServesAs i.style r side) ↔ r ∈ m.parameters.take i.style.ends)
        ∧ (((CallShape.of i e).receiver = some .target ↔ e.ServesAs i.style r .target)
          ↔ ¬ (i.style = .result ∧ r.name = e.target.name)) := by
  have hplaced := placed_of_select (Instructions.style_of_reversed accepted) distinct h
  refine ⟨hplaced, fun hstyle => select_reversed hstyle h, receiver_eq_none_iff h, fun r hr => ?_⟩
  obtain ⟨hname, hmem⟩ := receiverOf_eq_some (hr ▸ receiverOf_of_select h)
  exact ⟨⟨hname, hmem, fun p hp hsame => List.inj_on_of_nodup_map distinct hp hmem hsame⟩,
    hplaced.exists_servesAs_iff r, hplaced.told_iff distinct hr hmem⟩

/-- A method for pets whose parameters and result have these names. -/
def adoption (parameters : List String) (result : Option String) : Declaration :=
  let pet (name : String) : Parameter := ⟨name, ⟨0⟩, "&Pet"⟩
  { name := "adopt", position := ⟨"pets.rs", 1, 1⟩, docs := [], lines := []
    parameters := parameters.map pet, result := result.map pet
    fallible := false, errorType := none }

/-- Lines of a method for pets. -/
def adoptionLines (texts : List String) : List Annotation :=
  texts.map fun text => ⟨text, ⟨"pets.rs", 1, 1⟩⟩

/-- The first parameter is the destination and the second the source, which is the receiver. -/
theorem adoption_told :
    let m := adoption ["dst", "src"] none
    let lines := adoptionLines [":style arg", ":recv src"]
    ∃ i e r, (Instructions.ofLines DirectiveForm.methodNames lines).outcome.value = .ok i
      ∧ select m i = .ok e ∧ e.receiver = some r ∧ e.ServesAs i.style r .source
      ∧ (CallShape.of i e).receiver ≠ some .target := by
  intro m lines
  have haccepted :=
    Instructions.ofLines_eq_ok DirectiveForm.methodNames lines (by decide +kernel)
  have hselected :
      select m (Instructions.ofSaid (Instructions.said DirectiveForm.methodNames lines)) = .ok
        ⟨⟨"src", ⟨0⟩, "&Pet"⟩, ⟨"dst", ⟨0⟩, "&Pet"⟩, some ⟨"src", ⟨0⟩, "&Pet"⟩⟩ := by
    decide +kernel
  obtain ⟨-, -, -, hreceiver⟩ := selection_told haccepted (by decide) hselected
  obtain ⟨-, -, htold⟩ := hreceiver _ rfl
  have hfits := htold.2 fun hname => absurd hname.2 (by decide)
  exact ⟨_, _, _, haccepted, hselected, rfl, rfl, fun hsaid => absurd (hfits.1 hsaid).2 (by decide)⟩

/-- **A receiver that serves as neither end, and a source that is said to be the destination.** -/
theorem exists_misplaced :
    (∃ m lines i e r, (m.parameters.map Parameter.name).Nodup
      ∧ (Instructions.ofLines DirectiveForm.methodNames lines).outcome.value = .ok i
      ∧ select m i = .ok e ∧ e.receiver = some r ∧ ∀ side, ¬ e.ServesAs i.style r side)
    ∧ ∃ m lines i e r, (m.parameters.map Parameter.name).Nodup
      ∧ (Instructions.ofLines DirectiveForm.methodNames lines).outcome.value = .ok i
      ∧ select m i = .ok e ∧ e.receiver = some r ∧ e.ServesAs i.style r .source
      ∧ ¬ e.ServesAs i.style r .target ∧ (CallShape.of i e).receiver = some .target := by
  constructor
  · let lines := adoptionLines [":style arg", ":recv shelter"]
    have haccepted :=
      Instructions.ofLines_eq_ok DirectiveForm.methodNames lines (by decide +kernel)
    have hselected : select (adoption ["dst", "src", "shelter"] none)
        (Instructions.ofSaid (Instructions.said DirectiveForm.methodNames lines))
        = .ok ⟨⟨"src", ⟨0⟩, "&Pet"⟩, ⟨"dst", ⟨0⟩, "&Pet"⟩, some ⟨"shelter", ⟨0⟩, "&Pet"⟩⟩ := by
      decide +kernel
    refine ⟨_, lines, _, _, _, by decide, haccepted, hselected, rfl, fun side => ?_⟩
    cases side <;> decide +kernel
  · let lines := adoptionLines [":recv dst"]
    have haccepted :=
      Instructions.ofLines_eq_ok DirectiveForm.methodNames lines (by decide +kernel)
    have hselected : select (adoption ["dst"] (some "dst"))
        (Instructions.ofSaid (Instructions.said DirectiveForm.methodNames lines))
        = .ok ⟨⟨"dst", ⟨0⟩, "&Pet"⟩, ⟨"dst", ⟨0⟩, "&Pet"⟩, some ⟨"dst", ⟨0⟩, "&Pet"⟩⟩ := by
      decide +kernel
    exact ⟨_, lines, _, _, _, by decide, haccepted, hselected, rfl, rfl, by decide +kernel, rfl⟩

end Endpoints

end FieldCopy
