import Mathlib
import FieldCopy.Proofs.Wrappers

/-!
# Hooks around the assignments

A conversion may call a hook before its assignments and one after them.  What the first one stores
in the destination stays there only if the destination is not made anew behind the call.

**Resets.**  A statement resets a variable if it introduces it, overwrites what it holds or refers
to, or clears it (`Statement.Resets`).  A variable that is introduced inside a loop is another one.

**Brackets.**  `Conversion.Brackets`: behind the hook before the assignments stands one statement
for each assignment, in order, then the hook after them and what the function gives, and nothing of
this resets the destination.

**Main statement.**  `SourceUnit.brackets_iff`: the hooks of a function bracket its assignments
unless a loop fills a parameter behind a hook, because the parameter is cleared in front of the loop
and not where other destinations are created.  `SourceUnit.exists_discarded` is a function in which
what its hook stored is lost.
-/

namespace FieldCopy

open Statement

namespace Statement

/-- A statement overwrites what a variable holds or refers to, or clears it. -/
inductive Overwrites (v : String) : Statement → Prop
  | assign (value : Expression) : Overwrites v (.assign (.verbatim v) value)
  | through (value : Expression) : Overwrites v (.assign (.dereference (.verbatim v)) value)
  | clear : Overwrites v (.run ((Expression.verbatim v).invoke "clear"))
  | loop {item : String} {items : Expression} {body : List Statement} {s : Statement}
      (mem : s ∈ body) (inside : Overwrites v s) : Overwrites v (.loop item items body)

/-- A statement introduces a variable or overwrites it. -/
def Resets (v : String) (s : Statement) : Prop :=
  (∃ mutable value, s = .declare mutable v value) ∨ s.Overwrites v

lemma not_resets_give (v : String) (value : Expression) : ¬ (Statement.give value).Resets v := by
  rintro (⟨mutable, e, h⟩ | h) <;> cases h

/-- A call that may be checked does not clear a variable. -/
lemma not_overwrites_call (v function : String) (fallible : Bool) (arguments : List Expression) :
    ¬ (Statement.run (.checked fallible (.call function arguments))).Overwrites v := by
  cases fallible <;> intro h <;> cases h

/-- A method that gets an argument does not clear a variable. -/
lemma not_overwrites_method (v method : String) (fallible : Bool) (e argument : Expression) :
    ¬ (Statement.run (.checked fallible (.methodCall e method [argument]))).Overwrites v := by
  cases fallible <;> intro h <;> cases h

end Statement

namespace Conversion

variable (k : Catalog) (siblings : Keyed CallShape) (v : Conversion)

/-- A statement is what an assignment comes to: a comment, a loop, or the assignment of a member of
the destination. -/
inductive Produces : Assignment → Statement → Prop
  | skip (field : String) (reason : SkipReason) :
      Produces (.skip field reason) (.comment (field ++ ": " ++ reason.text))
  | loop (target source element delegate : String) (fallible : Bool) (call : Option CallShape)
      (item : String) :
      Produces (.delegateLoop target source element delegate fallible)
        (.loop "item" (v.sourceValue.invoke "iter") (v.delegate call delegate item fallible))
  | field {a : Assignment} (single : a.isLoop = false) (used : a.isSkip = false)
      (value : Expression) : Produces a (.assign (.member v.target a.target) value)

/-- The hooks of a conversion bracket its assignments. -/
def Brackets : Prop :=
  ∃ front middle,
    (v.code k siblings).body
        = front ++ v.hook v.plan.before ++ (middle ++ v.hook v.plan.after ++ v.ending)
      ∧ List.Forall₂ v.Produces v.plan.assignments middle
      ∧ ∀ s ∈ middle ++ v.hook v.plan.after ++ v.ending, ¬ s.Resets v.target

/-- A destination that a loop fills is cleared behind a hook. -/
structure ClearsBehindHook : Prop where
  style : v.instructions.style = .argument
  hook : v.plan.before.isSome
  loop : v.plan.hasLoop

/-- What stands in front of the statement of an assignment. -/
def clearing (a : Assignment) : List Statement :=
  if a.isLoop ∧ v.instructions.style = .argument then [.run (v.targetValue.invoke "clear")] else []

/-! ## What stands behind the hook -/

/-- What converts an item leaves every variable outside of the loop. -/
lemma not_overwrites_delegate (name : String) (call : Option CallShape)
    (function element : String) (fallible : Bool) :
    ∀ s ∈ v.delegate call function element fallible, ¬ s.Overwrites name := by
  have hpush := fun e => not_overwrites_method name "push" false v.targetValue e
  intro s hs
  match call with
  | none | some ⟨.result, _, none⟩ | some ⟨.result, _, some _⟩ =>
      rw [List.mem_singleton.1 hs]
      exact hpush _
  | some ⟨.argument, reversed, receiver⟩ =>
      rcases List.mem_cons.1 hs with rfl | hs
      · rintro ⟨⟩
      · rcases List.mem_cons.1 hs with rfl | hs
        · match receiver, reversed with
          | some .source, _ | some .target, _ => exact not_overwrites_method _ _ _ _ _
          | none, true | none, false => exact not_overwrites_call _ _ _ _
        · rw [List.mem_singleton.1 hs]
          exact hpush _

variable {v}

lemma Produces.not_resets {a : Assignment} {s : Statement} (h : v.Produces a s) :
    ¬ s.Resets v.target := by
  cases h with
  | skip _ _ | field _ _ _ => rintro (⟨mutable, value, h⟩ | h) <;> cases h
  | loop _ _ _ delegate fallible call item =>
      rintro (⟨mutable, value, h⟩ | h)
      · cases h
      · obtain ⟨⟩ := h
        rename_i s inside mem
        exact v.not_overwrites_delegate _ call delegate item fallible s mem inside

variable (v)

/-- An assignment comes to one statement, in front of which the destination may be cleared. -/
lemma exists_produced (a : Assignment) :
    ∃ s, v.assignment k siblings a = v.clearing a ++ [s] ∧ v.Produces a s := by
  cases a with
  | delegateLoop target source element delegate fallible =>
      refine ⟨_, congrArg (· ++ _) (?_ : _ = v.clearing _),
        .loop target source element delegate fallible _ _⟩
      rw [clearing]
      cases v.instructions.style <;> rfl
  | skip field reason => exact ⟨_, rfl, .skip field reason⟩
  | copy _ _ | cast _ _ _ | getter _ _ | stringer _ _ | converter _ _ _ _ _ | method _ _ _
  | literal _ _ => exact ⟨_, rfl, .field rfl rfl _⟩

/-- Where nothing is cleared, each assignment comes to one statement. -/
lemma produces_flatMap : ∀ as : List Assignment, (∀ a ∈ as, v.clearing a = []) →
    List.Forall₂ v.Produces as (as.flatMap (v.assignment k siblings))
  | [], _ => .nil
  | a :: as, h => by
      obtain ⟨s, hs, hproduces⟩ := v.exists_produced k siblings a
      rw [h a List.mem_cons_self, List.nil_append] at hs
      rw [List.flatMap_cons, hs]
      exact .cons hproduces (produces_flatMap as fun b hb => h b (List.mem_cons_of_mem _ hb))

lemma not_resets_hook (f : Option Hook) : ∀ s ∈ v.hook f, ¬ s.Resets v.target := by
  cases f with
  | none => exact fun s hs => absurd hs List.not_mem_nil
  | some f =>
      intro s hs
      rw [List.mem_singleton.1 hs]
      rintro (⟨mutable, value, h⟩ | h)
      · cases h
      · exact not_overwrites_call _ _ _ _ h

lemma not_resets_ending : ∀ s ∈ v.ending, ¬ s.Resets v.target := by
  intro s hs
  rw [ending] at hs
  split at hs
  · exact List.mem_singleton.1 hs ▸ not_resets_give _ _
  · exact List.mem_singleton.1 hs ▸ not_resets_give _ _
  · exact List.mem_singleton.1 hs ▸ not_resets_give _ _
  · exact absurd hs List.not_mem_nil

lemma not_resets_behind {middle : List Statement}
    (h : List.Forall₂ v.Produces v.plan.assignments middle) :
    ∀ s ∈ middle ++ v.hook v.plan.after ++ v.ending, ¬ s.Resets v.target := by
  intro s hs
  rcases List.mem_append.1 hs with hs | hs
  · rcases List.mem_append.1 hs with hs | hs
    · have hall := h.flip.imp fun s a h => And.intro h.not_resets h
      exact ((List.forall₂_and_left _ _).1 hall).1 s hs
    · exact v.not_resets_hook _ s hs
  · exact v.not_resets_ending s hs

/-! ## Brackets -/

/-- What stands in front of the hook before the assignments. -/
def prologue : List Statement := v.receiverStatement ++ v.opening k

lemma body_eq : (v.code k siblings).body
    = v.prologue k ++ v.hook v.plan.before
      ++ (v.plan.assignments.flatMap (v.assignment k siblings) ++ v.hook v.plan.after
        ++ v.ending) := by
  simp only [code, body, prologue, List.append_assoc]

/-- Where nothing is cleared, hooks bracket the assignments. -/
lemma brackets_of_clearing (h : ∀ a ∈ v.plan.assignments, v.clearing a = []) :
    v.Brackets k siblings := by
  have hproduces := v.produces_flatMap k siblings _ h
  exact ⟨v.prologue k, _, v.body_eq k siblings, hproduces, v.not_resets_behind hproduces⟩

/-- Where no hook is called, what is cleared stands in front of the only loop. -/
lemma brackets_of_loop {a : Assignment} (hplan : v.plan.assignments = [a])
    (hbefore : v.plan.before = none) : v.Brackets k siblings := by
  obtain ⟨s, hs, hproduces⟩ := v.exists_produced k siblings a
  have hmiddle : List.Forall₂ v.Produces v.plan.assignments [s] :=
    hplan ▸ .cons hproduces .nil
  refine ⟨v.prologue k ++ v.clearing a, [s], ?_, hmiddle, v.not_resets_behind hmiddle⟩
  simp only [body_eq, hplan, hbefore, hook, List.flatMap_cons, List.flatMap_nil, hs,
    List.append_assoc, List.append_nil]

/-- A loop that clears its destination behind a hook is not bracketed. -/
lemma ClearsBehindHook.not_brackets (h : v.ClearsBehindHook) {a : Assignment}
    (hplan : v.plan.assignments = [a]) : ¬ v.Brackets k siblings := by
  rintro ⟨front, middle, hbody, hproduces, -⟩
  obtain ⟨before, hbefore⟩ := Option.isSome_iff_exists.1 h.hook
  have hloop : a.isLoop = true := by simpa [Plan.hasLoop, hplan] using h.loop
  obtain ⟨s, hs, -⟩ := v.exists_produced k siblings a
  obtain ⟨last, rfl⟩ : ∃ last, middle = [last] := by
    rw [hplan] at hproduces
    obtain _ | ⟨_, ⟨⟩⟩ := hproduces
    exact ⟨_, rfl⟩
  -- Either way the same stands behind the last statement, so the call would clear.
  rw [body_eq, hplan, hbefore, List.flatMap_singleton, hs, clearing,
    if_pos ⟨hloop, h.style⟩] at hbody
  have hfront : v.prologue k ++ v.hook (some before) ++ [.run (v.targetValue.invoke "clear")] ++ [s]
      = front ++ v.hook (some before) ++ [last] :=
    (List.append_left_inj (v.hook v.plan.after ++ v.ending)).1
      (by simpa only [List.append_assoc] using hbody)
  have hcall := List.append_inj_right' (List.append_inj_left' hfront rfl) rfl
  refine v.not_resets_hook (some before) _ (hcall ▸ List.mem_singleton_self _) (.inr ?_)
  exact .clear

end Conversion

namespace SourceUnit

open Generation

variable {unit : SourceUnit} {v : Conversion}

/-- The plan of a conversion has no loop, or consists of one. -/
lemma loop_alone (hv : v ∈ unit.conversions) :
    (∀ a ∈ v.plan.assignments, a.isLoop = false) ∨ ∃ a, v.plan.assignments = [a] := by
  obtain ⟨siblings, hplan⟩ := exists_planned hv
  rcases Planner.ensures_plan _ _ _ _ _ _ _ hplan with h | ⟨_, _, a, -, -, ha, -⟩
  · exact .inl h
  · exact .inr ⟨a, ha⟩

/-- **Hooks bracket the assignments** unless a destination that a loop fills is cleared behind the
hook before them. -/
theorem brackets_iff (hv : v ∈ unit.conversions) :
    v.Brackets unit.catalog (callShapes unit.entries) ↔ ¬ v.ClearsBehindHook := by
  refine ⟨fun h clears => ?_, fun h => ?_⟩
  · rcases loop_alone hv with hnone | ⟨a, ha⟩
    · obtain ⟨a, ha, hloop⟩ := List.any_eq_true.1 clears.loop
      exact absurd hloop (by simp [hnone a ha])
    · exact clears.not_brackets _ _ _ ha h
  · by_cases hclear : ∀ a ∈ v.plan.assignments, v.clearing a = []
    · exact v.brackets_of_clearing _ _ hclear
    · push Not at hclear
      obtain ⟨a, ha, hne⟩ := hclear
      obtain ⟨hloop, hstyle⟩ : a.isLoop ∧ v.instructions.style = .argument := by
        by_contra hnot
        exact hne (if_neg hnot)
      have hbefore : v.plan.before = none := by
        rw [← Option.not_isSome_iff_eq_none]
        exact fun hbefore => h ⟨hstyle, hbefore, List.any_eq_true.2 ⟨a, ha, hloop⟩⟩
      rcases loop_alone hv with hnone | ⟨b, hb⟩
      · exact absurd hloop (by simp [hnone a ha])
      · exact v.brackets_of_loop _ _ hb hbefore

/-- A file with a method that fills a vector behind a hook. -/
def herdFile : SourceFile :=
  ⟨"herd.rs", "",
    "struct Pet\x7bage:u8\x7d
fn prepare(dst:&mut Vec<Pet>,src:&[Pet])\x7b\x7d
trait Copy\x7bfn pet(src:&Pet)->Pet;
///:style arg
///:struct_conv pet
///:preprocess prepare
fn pets(dst:&mut Vec<Pet>,src:&[Pet]);\x7d"⟩

set_option maxRecDepth 4000 in
/-- What the file is loaded to. -/
lemma load_herdFile :
    ∃ unit, load (some herdFile) [] "Copy" = .ok unit
      ∧ (∃ v ∈ unit.conversions, v.declaration.name = "pet" ∧ v.instructions.style = .result)
      ∧ ∃ v ∈ unit.conversions, v.instructions.style = .argument
        ∧ v.plan = ⟨[.delegateLoop "&mut Vec<Pet>" "&[Pet]" "Pet" "pet" false],
            some ⟨"prepare", false⟩, none⟩
        ∧ linesAll (v.code unit.catalog (callShapes unit.entries)).body
          = ["prepare(dst, src);", "dst.clear();", "for item in src.iter() \x7b",
            "    dst.push(pet(item));", "\x7d"] := by
  have hitems : Source.parseItems? herdFile.text = _ := Source.parseItems?_ofList _
  rw [load_alone, SourceFile.parse, hitems]
  exact exists_ok_of_any (by decide +kernel)

/-- The conversion of a pet, which clears nothing, brackets its assignments. -/
theorem herd_pet_brackets :
    ∃ unit, load (some herdFile) [] "Copy" = .ok unit
      ∧ ∃ v ∈ unit.conversions, v.declaration.name = "pet"
        ∧ v.Brackets unit.catalog (callShapes unit.entries) := by
  obtain ⟨unit, hload, ⟨v, hv, hname, hstyle⟩, -⟩ := load_herdFile
  refine ⟨unit, hload, v, hv, hname, (brackets_iff hv).2 fun clears => ?_⟩
  exact absurd (hstyle.symm.trans clears.style) (by decide)

/-- **What a hook stores can be lost.**  The vector is cleared behind the call. -/
theorem exists_discarded :
    ∃ unit, load (some herdFile) [] "Copy" = .ok unit
      ∧ ∃ v ∈ unit.conversions, ¬ v.Brackets unit.catalog (callShapes unit.entries)
        ∧ linesAll (v.code unit.catalog (callShapes unit.entries)).body
          = ["prepare(dst, src);", "dst.clear();", "for item in src.iter() \x7b",
            "    dst.push(pet(item));", "\x7d"] := by
  obtain ⟨unit, hload, -, v, hv, hstyle, hplan, hlines⟩ := load_herdFile
  have hassignments := congrArg Plan.assignments hplan
  have clears : v.ClearsBehindHook := ⟨hstyle, by rw [hplan]; rfl, by rw [hplan]; rfl⟩
  exact ⟨unit, hload, v, hv, clears.not_brackets _ _ _ hassignments, hlines⟩

end SourceUnit

end FieldCopy
