import Mathlib
import FieldCopy.Endpoints

/-!
# Where the ends of a conversion come from

With the result as destination, the source is a parameter.  With an argument as destination, both
ends are parameters, in different places.  The receiver is a parameter in any case (`Chosen`).
-/

namespace FieldCopy.Endpoints

variable {m : Declaration} {i : Instructions} {e : Endpoints}

/-- What the ends of a method are. -/
structure Chosen (m : Declaration) (i : Instructions) (e : Endpoints) : Prop where
  result : i.style = .result → e.source ∈ m.parameters ∧ m.result = some e.target
  arguments : i.style = .argument → ∃ rest, m.parameters.Perm (e.source :: e.target :: rest)
  receiver : ∀ r, e.receiver = some r → r ∈ m.parameters

/-- The first parameter and the result. -/
lemma ofResult_eq_ok {source target : Parameter} (h : ofResult m = .ok (source, target)) :
    (∃ rest, m.parameters = source :: rest) ∧ m.result = some target := by
  rw [ofResult] at h
  split at h
  · exact absurd h (by simp)
  · exact absurd h (by simp)
  · rename_i rest _ hparameters hresult
    obtain ⟨rfl, rfl⟩ := Prod.mk.inj (Except.ok.inj h)
    exact ⟨⟨_, hparameters⟩, hresult⟩

/-- The first two parameters, the destination in front unless they are reversed. -/
lemma ofArguments_eq_ok {reversed : Bool} {source target : Parameter}
    (h : ofArguments m reversed = .ok (source, target)) :
    ∃ rest, m.parameters = (if reversed then [source, target] else [target, source]) ++ rest := by
  rw [ofArguments] at h
  split at h
  · rename_i first second rest hparameters
    split at h
    · exact absurd h (by simp)
    · refine ⟨rest, hparameters.trans ?_⟩
      split at h <;> rename_i hreversed <;> obtain ⟨rfl, rfl⟩ := Prod.mk.inj (Except.ok.inj h)
      · rw [if_pos hreversed, List.cons_append, List.singleton_append]
      · rw [if_neg hreversed, List.cons_append, List.singleton_append]
  · exact absurd h (by simp)

/-- The ends that are arguments are different parameters. -/
lemma perm_of_ofArguments {reversed : Bool} {source target : Parameter}
    (h : ofArguments m reversed = .ok (source, target)) :
    ∃ rest, m.parameters.Perm (source :: target :: rest) := by
  obtain ⟨rest, hparameters⟩ := ofArguments_eq_ok h
  refine ⟨rest, hparameters ▸ ?_⟩
  cases reversed with
  | true => exact .refl _
  | false => exact .swap _ _ _

/-- A receiver is a parameter of the name that is asked for. -/
lemma receiverOf_eq_some {name : Option String} {r : Parameter}
    (h : receiverOf m name = .ok (some r)) : name = some r.name ∧ r ∈ m.parameters := by
  cases name with
  | none => exact absurd h (by simp [receiverOf])
  | some name =>
      rw [receiverOf] at h
      split at h
      · rename_i hfind
        obtain rfl := Option.some.inj (Except.ok.inj h)
        have hname := List.find?_some hfind
        exact ⟨congrArg some (beq_iff_eq.1 hname).symm, List.mem_of_find?_eq_some hfind⟩
      · exact absurd h (by simp)

/-- The ends that a receiver is added to, and the receiver. -/
lemma eq_ok_of_receiver {x : Except Misconfiguration (Parameter × Parameter)}
    (h : (do
      let (source, target) ← x
      pure ⟨source, target, ← receiverOf m i.receiver⟩) = Except.ok e) :
    x = .ok (e.source, e.target) ∧ receiverOf m i.receiver = .ok e.receiver := by
  cases x with
  | error cause => exact absurd h (by simp [bind, Except.bind])
  | ok ends =>
      cases hreceiver : receiverOf m i.receiver with
      | error cause => simp [hreceiver, bind, Except.bind] at h
      | ok receiver =>
          simp only [hreceiver, bind, Except.bind, pure, Except.pure, Except.ok.injEq] at h
          rw [← h]
          exact ⟨rfl, rfl⟩

lemma chosen_of_choose (h : choose m i = .ok e) : Chosen m i e := by
  rw [choose] at h
  split at h
  · rename_i hstyle
    obtain ⟨hends, hreceiver⟩ := eq_ok_of_receiver h
    obtain ⟨⟨rest, hparameters⟩, hresult⟩ := ofResult_eq_ok hends
    exact ⟨fun _ => ⟨hparameters ▸ List.mem_cons_self, hresult⟩,
      fun h => absurd (hstyle.symm.trans h) (by decide),
      fun r hr => (receiverOf_eq_some (hr ▸ hreceiver)).2⟩
  · rename_i hstyle
    obtain ⟨hends, hreceiver⟩ := eq_ok_of_receiver h
    exact ⟨fun h => absurd (hstyle.symm.trans h) (by decide),
      fun _ => perm_of_ofArguments hends,
      fun r hr => (receiverOf_eq_some (hr ▸ hreceiver)).2⟩

namespace Chosen

variable (h : Chosen m i e)

include h

lemma source_mem : e.source ∈ m.parameters := by
  cases hstyle : i.style with
  | result => exact (h.result hstyle).1
  | argument =>
      obtain ⟨rest, hperm⟩ := h.arguments hstyle
      exact hperm.mem_iff.2 List.mem_cons_self

lemma target_mem (hstyle : i.style = .argument) : e.target ∈ m.parameters := by
  obtain ⟨rest, hperm⟩ := h.arguments hstyle
  exact hperm.mem_iff.2 (List.mem_cons_of_mem _ List.mem_cons_self)

/-- The ends are among the parameters and the result. -/
lemma ends_mem : e.source ∈ m.parameters ++ m.result.toList
    ∧ e.target ∈ m.parameters ++ m.result.toList := by
  refine ⟨List.mem_append_left _ h.source_mem, ?_⟩
  cases hstyle : i.style with
  | result => simp [(h.result hstyle).2]
  | argument => exact List.mem_append_left _ (h.target_mem hstyle)

/-- Two arguments have different names if all parameters have. -/
lemma source_ne_target (hstyle : i.style = .argument)
    (distinct : (m.parameters.map Parameter.name).Nodup) : e.source.name ≠ e.target.name := by
  obtain ⟨rest, hperm⟩ := h.arguments hstyle
  have hnodup := (hperm.map Parameter.name).nodup_iff.1 distinct
  exact fun heq => (List.nodup_cons.1 hnodup).1 (heq ▸ List.mem_cons_self)

end Chosen

end FieldCopy.Endpoints
