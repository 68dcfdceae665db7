import Mathlib
import FieldCopy.Proofs.Catalog.Naming

/-!
# Functions and the paths that lead to them

A function of a module is entered under its path, in the place of what was there, and under its name
if that is free.  A function of the root is entered under its name only, which is also its path.

**Who is found.**  `Catalog.find?_functions`: a key leads to the last function of a module with this
path, or else to the first function with this name.

**Main statement.**  `Catalog.function?_path`: where all paths differ, the path of a function of a
module leads to it, and that of a function of the root to the first function of its name.
`Catalog.exists_hidden_function`: there are functions to which their own paths do not lead.
-/

namespace FieldCopy

/-- A function with the path of its module. -/
structure ModuleFunction where
  package : String
  info : FunctionInfo
  deriving DecidableEq

namespace ModuleFunction

def path (f : ModuleFunction) : String := ModulePath.inside f.package f.info.name

/-- Whether a function has this path, and is of a module other than the root. -/
def isAt (key : String) (f : ModuleFunction) : Bool := !f.package.isEmpty && f.path == key

def isNamed (key : String) (f : ModuleFunction) : Bool := f.info.name == key

variable {f : ModuleFunction} {key : String}

lemma isAt_iff : f.isAt key = true ↔ f.package ≠ "" ∧ f.path = key := by
  rw [isAt, Bool.and_eq_true, Bool.not_eq_true', beq_iff_eq, ← Bool.not_eq_true,
    String.isEmpty_iff]

lemma isNamed_iff : f.isNamed key = true ↔ f.info.name = key := beq_iff_eq

/-- The path of a function of the root is its name. -/
lemma path_of_root (h : f.package = "") : f.path = f.info.name := by
  rw [path, ModulePath.inside, h]
  rfl

end ModuleFunction

/-- The function that an operation adds. -/
def Operation.function? : Operation → Option ModuleFunction
  | addFunction package f => some ⟨package, f⟩
  | _ => none

namespace Catalog

/-- What a key leads to once a function was added. -/
lemma find?_addFunction (c : Catalog) (f : ModuleFunction) (key : String) :
    (c.addFunction f.package f.info).functions.find? key
      = if f.isAt key then some f.info
        else (c.functions.find? key).or (if f.isNamed key then some f.info else none) := by
  have hqualified : (if f.package.isEmpty then c.functions
      else c.functions.insert (ModulePath.inside f.package f.info.name) f.info).find? key
        = if f.isAt key then some f.info else c.functions.find? key := by
    by_cases h : f.package.isEmpty = true
    · rw [if_pos h, if_neg (by simp [ModuleFunction.isAt, h])]
    · rw [if_neg h, Keyed.find?_insert]
      refine if_congr ?_ rfl rfl
      rw [ModuleFunction.isAt_iff, ModuleFunction.path, eq_comm,
        and_iff_right (fun he => h (String.isEmpty_iff.2 he))]
  have hname : (key ∈ [f.info.name]) ↔ f.isNamed key = true := by
    rw [ModuleFunction.isNamed_iff, List.mem_singleton, eq_comm]
  have hclaim := Keyed.find?_claim f.info key [f.info.name]
    (if f.package.isEmpty then c.functions
      else c.functions.insert (ModulePath.inside f.package f.info.name) f.info)
  rw [hqualified] at hclaim
  refine hclaim.trans ?_
  rw [if_congr hname rfl rfl]
  split <;> rfl

/-- The functions that operations add, one after the other. -/
def added (ops : List Operation) : List ModuleFunction := ops.filterMap Operation.function?

/-- Functions change only where one is added. -/
lemma functions_apply (c : Catalog) (op : Operation) :
    (op.apply c).functions
      = op.function?.elim c.functions fun f => (c.addFunction f.package f.info).functions := by
  rw [(Operation.tables_of_apply c op).1]
  cases op <;> rfl

/-- **A key leads to the last function of a module with this path, or else to the first function
with this name.** -/
theorem find?_functions (ops : List Operation) (key : String) :
    (ofOperations ops).functions.find? key
      = (((added ops).reverse.find? (ModuleFunction.isAt key)).or
          ((added ops).find? (ModuleFunction.isNamed key))).map ModuleFunction.info := by
  induction ops using List.reverseRecOn with
  | nil => rfl
  | append_singleton ops op ih =>
      have happly : (ofOperations (ops ++ [op])).functions
          = (op.apply (ofOperations ops)).functions := by
        rw [ofOperations_append]
        rfl
      have hadded : added (ops ++ [op]) = added ops ++ op.function?.toList := by
        rw [added, List.filterMap_append, List.filterMap_cons, List.filterMap_nil]
        cases op.function? <;> rfl
      rw [happly, functions_apply, hadded]
      cases op.function? with
      | none => simpa using ih
      | some f =>
          rw [Option.elim_some, find?_addFunction, ih, Option.toList_some, List.reverse_append,
            List.reverse_singleton, List.singleton_append, List.find?_cons, List.find?_append,
            List.find?_singleton]
          cases f.isAt key <;> cases f.isNamed key <;> simp

/-- What is found for the whole path counts first. -/
lemma function?_of_find? {c : Catalog} {written : String} {f : FunctionInfo}
    (h : c.functions.find? written = some f) : c.function? written = some f := by
  obtain ⟨first, rest, hnames⟩ := List.exists_cons_of_ne_nil (ModulePath.segments_ne_nil written)
  rw [function?, ModulePath.suffixes, hnames, ModulePath.tails, List.map_cons, ← hnames,
    ModulePath.join_segments, List.findSome?_cons, h]

/-- Where all paths differ, one function at most is of a module and has a certain path. -/
lemma find?_isAt {fs : List ModuleFunction} (distinct : (fs.map ModuleFunction.path).Nodup)
    {f : ModuleFunction} (hf : f ∈ fs) :
    fs.reverse.find? (ModuleFunction.isAt f.path) = if f.package = "" then none else some f := by
  have hself : ∀ g ∈ fs.reverse, g.isAt f.path = true → g = f ∧ f.package ≠ "" := by
    intro g hg hat
    obtain ⟨hpackage, hpath⟩ := ModuleFunction.isAt_iff.1 hat
    obtain rfl := List.inj_on_of_nodup_map distinct (List.mem_reverse.1 hg) hf hpath
    exact ⟨rfl, hpackage⟩
  by_cases h : f.package = ""
  · rw [if_pos h, List.find?_eq_none]
    exact fun g hg hat => (hself g hg hat).2 h
  · rw [if_neg h]
    cases hfound : fs.reverse.find? (ModuleFunction.isAt f.path) with
    | some g =>
        rw [(hself g (List.mem_of_find?_eq_some hfound) (List.find?_some hfound)).1]
    | none =>
        exact absurd (ModuleFunction.isAt_iff.2 ⟨h, rfl⟩)
          (List.find?_eq_none.1 hfound f (List.mem_reverse.2 hf))

/-- The first function of a name that there is a function of. -/
lemma find?_isNamed {fs : List ModuleFunction} (k : Fin fs.length) :
    ∃ i : Fin fs.length, fs.find? (ModuleFunction.isNamed (fs.get k).info.name) = some (fs.get i)
      ∧ (fs.get i).info.name = (fs.get k).info.name
      ∧ ∀ j < i, (fs.get j).info.name ≠ (fs.get k).info.name := by
  obtain ⟨f, hf⟩ := Option.isSome_iff_exists.1 (List.find?_isSome.2
    ⟨fs.get k, List.get_mem fs k, ModuleFunction.isNamed_iff.2 rfl⟩)
  obtain ⟨hname, i, hi, hget, hfirst⟩ := List.find?_eq_some_iff_getElem.1 hf
  refine ⟨⟨i, hi⟩, hf.trans (congrArg some hget.symm), ?_, fun j hj heq => ?_⟩
  · rw [List.get_eq_getElem, hget]
    exact ModuleFunction.isNamed_iff.1 hname
  · have hnot := hfirst j hj
    rw [← List.get_eq_getElem, ModuleFunction.isNamed_iff.2 heq] at hnot
    exact absurd hnot (by decide)

/-- **Whom the path of a function leads to.**  The path of a function of a module leads to it, and
that of a function of the root to the first function that has its name, of whatever module.  So a
path leads to another function exactly if it is that of a function of the root and one of its name
was added before. -/
theorem function?_path (ops : List Operation)
    (distinct : ((added ops).map ModuleFunction.path).Nodup) (k : Fin (added ops).length) :
    ∃ i : Fin (added ops).length,
      (ofOperations ops).finished.function? ((added ops).get k).path
          = some ((added ops).get i).info
        ∧ ((added ops).get i).info.name = ((added ops).get k).info.name
        ∧ (((added ops).get k).package ≠ "" → i = k)
        ∧ (((added ops).get k).package = "" →
          ∀ j < i, ((added ops).get j).info.name ≠ ((added ops).get k).info.name)
        ∧ (i = k ↔ (((added ops).get k).package = "" →
          ∀ j < k, ((added ops).get j).info.name ≠ ((added ops).get k).info.name)) := by
  have hfound := find?_functions ops ((added ops).get k).path
  rw [find?_isAt distinct (List.get_mem _ k)] at hfound
  by_cases h : ((added ops).get k).package = ""
  · obtain ⟨i, hi, hname, hfirst⟩ := find?_isNamed k
    rw [ModuleFunction.path_of_root h] at hfound ⊢
    rw [if_pos h, Option.none_or, hi] at hfound
    refine ⟨i, function?_of_find? hfound, hname, fun hne => absurd h hne, fun _ => hfirst, ?_⟩
    constructor
    · rintro rfl _
      exact hfirst
    · intro hearlier
      have hki : ¬ i < k := fun hlt => hearlier h i hlt hname
      have hik : ¬ k < i := fun hlt => hfirst k hlt rfl
      exact le_antisymm (not_lt.1 hik) (not_lt.1 hki)
  · rw [if_neg h, Option.some_or] at hfound
    exact ⟨k, function?_of_find? hfound, rfl, fun _ => rfl, fun he => absurd he h,
      fun _ he => absurd he h, fun _ => rfl⟩

/-- A function of the root that is added first keeps its path, and so does one of a module. -/
theorem labels_found :
    let ops : List Operation := [.basic "String", .addFunction "" ⟨"label", [], some ⟨0⟩, false⟩,
      .addFunction "convert" ⟨"label", [⟨0⟩], some ⟨0⟩, true⟩]
    ((added ops).map ModuleFunction.path).Nodup
      ∧ (ofOperations ops).finished.function? "label" = some ⟨"label", [], some ⟨0⟩, false⟩
      ∧ (ofOperations ops).finished.function? "convert::label"
        = some ⟨"label", [⟨0⟩], some ⟨0⟩, true⟩ := by
  intro ops
  have distinct : ((added ops).map ModuleFunction.path).Nodup := by decide
  obtain ⟨i, hroot, -, -, -, hi⟩ := function?_path ops distinct (0 : Fin 2)
  obtain rfl := hi.2 (by decide)
  obtain ⟨j, hinside, -, hj, -⟩ := function?_path ops distinct (1 : Fin 2)
  obtain rfl := hj (by decide)
  exact ⟨distinct, hroot, hinside⟩

/-- **A function of the root is hidden by one of a module.**  One of its name that was added before
has taken the name, which is its only path. -/
theorem exists_hidden_function : ¬ ∀ (ops : List Operation) (k : Fin (added ops).length),
    ((added ops).map ModuleFunction.path).Nodup →
      (ofOperations ops).finished.function? ((added ops).get k).path
        = some ((added ops).get k).info := by
  intro h
  have hfound := h [.basic "String", .addFunction "convert" ⟨"label", [⟨0⟩], some ⟨0⟩, true⟩,
    .addFunction "" ⟨"label", [], some ⟨0⟩, false⟩] (1 : Fin 2) (by decide)
  exact absurd hfound (by decide)

end Catalog

end FieldCopy
