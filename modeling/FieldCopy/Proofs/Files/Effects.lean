import Mathlib
import FieldCopy.Command.Run
import FieldCopy.Proofs.Files.Disks

/-!
# What a run does to files

`Disk.perform` is what a computation gives on a disk, and the disk that it leaves.

**Reading.**  The computations that only read (`OnlyReads`) leave the disk alone and fail only for a
file that cannot be read.  They are closed under the ways in which `readSources` is put together
(`onlyReads_readSources`).

**Writing.**  `Written` has a case for each way in which the writing can end, with all that is known
then (`written_writeOutput`).

**Runs.**  `RunEffects` is what is known of the files behind a run.  A run succeeds if the sources
can be read and parsed and its paths have targets, whatever is wrong with the methods; a run that
does not get as far as writing changes no file; and one that succeeds changes the targets of its
paths only.
-/

namespace FieldCopy

open Disk

/-- What a computation gives on a disk, and the disk that it leaves. -/
def Disk.perform {α : Type} (x : StateM Disk α) (d : Disk) : α × Disk := (x.run d).run

section

variable {α β : Type} {d : Disk}

lemma perform_bind (x : StateM Disk α) (f : α → StateM Disk β) :
    perform (x >>= f) d = perform (f (perform x d).1) (perform x d).2 := rfl

lemma perform_lift_bind (x : StateM Disk α) (f : α → ExceptT RunError (StateM Disk) β) (d : Disk) :
    perform (ExceptT.lift x >>= f).run d = perform (f (perform x d).1).run (perform x d).2 := rfl

/-! ## Reading -/

/-- A computation that leaves a disk alone and fails only for a file that cannot be read. -/
structure OnlyReads (x : ExceptT RunError (StateM Disk) α) : Prop where
  still : ∀ d, (perform x.run d).2 = d
  fails : ∀ d e, (perform x.run d).1 = .error e →
    ∃ reported path cause, e = .unreadable reported cause ∧ d.read path = .error cause

namespace OnlyReads

lemma pure (a : α) : OnlyReads (Pure.pure a : ExceptT RunError (StateM Disk) α) :=
  ⟨fun _ => rfl, fun _ _ h => by cases h⟩

/-- A look at the disk. -/
lemma lift {x : StateM Disk α} (h : ∀ d, (perform x d).2 = d) :
    OnlyReads (ExceptT.lift x) :=
  ⟨h, fun _ _ h => by cases h⟩

lemma bind {x : ExceptT RunError (StateM Disk) α} {f : α → ExceptT RunError (StateM Disk) β}
    (hx : OnlyReads x) (hf : ∀ a, OnlyReads (f a)) : OnlyReads (x >>= f) := by
  have hrun : ∀ d, perform (x >>= f).run d = match (perform x.run d).1 with
      | .ok a => perform (f a).run (perform x.run d).2
      | .error e => (.error e, (perform x.run d).2) := by
    intro d
    change perform (x.run >>= ExceptT.bindCont f) d = _
    rw [perform_bind]
    cases (perform x.run d).1 <;> rfl
  constructor
  · intro d
    rw [hrun, hx.still]
    cases (perform x.run d).1 with
    | ok a => exact (hf a).still d
    | error e => rfl
  · intro d e h
    rw [hrun, hx.still] at h
    cases hfirst : (perform x.run d).1 with
    | ok a => rw [hfirst] at h; exact (hf a).fails d e h
    | error e' =>
        rw [hfirst] at h
        cases h
        exact hx.fails d e hfirst

lemma mapM {f : α → ExceptT RunError (StateM Disk) β} (hf : ∀ a, OnlyReads (f a)) :
    ∀ l : List α, OnlyReads (l.mapM f)
  | [] => .pure []
  | a :: rest => by
      rw [List.mapM_cons]
      exact (hf a).bind fun _ => (mapM hf rest).bind fun _ => .pure _

end OnlyReads

lemma perform_readFile (reported path : String) (d : Disk) :
    perform (readFile access reported path).run d
      = ((d.read path).mapError (.unreadable reported), d) := by
  refine (perform_lift_bind (access.read path) _ d).trans ?_
  have hread : perform (access.read path) d = (d.read path, d) := rfl
  rw [hread]
  cases d.read path <;> rfl

lemma onlyReads_readFile (reported path : String) :
    OnlyReads (readFile access reported path) := by
  constructor
  · intro d
    rw [perform_readFile]
  · intro d e h
    rw [perform_readFile] at h
    cases hread : d.read path with
    | ok t => rw [hread] at h; cases h
    | error cause =>
        rw [hread] at h
        cases h
        exact ⟨reported, path, cause, rfl, hread⟩

lemma onlyReads_readBelow (path : String) (names : List String) :
    OnlyReads (readBelow access path names) :=
  (onlyReads_readFile path _).bind fun _ => .pure _

lemma onlyReads_readInclude (path : String) : OnlyReads (readInclude access path) := by
  refine (OnlyReads.lift (x := access.isFile path) fun _ => rfl).bind fun isFile => ?_
  cases isFile with
  | true => exact (onlyReads_readFile path path).bind fun _ => .pure _
  | false =>
      exact (OnlyReads.lift (x := access.below path) fun _ => rfl).bind fun found =>
        .mapM (onlyReads_readBelow path) _

/-- **Reading the sources leaves the disk alone** and fails only for a file that cannot be read. -/
theorem onlyReads_readSources (a : RunArguments) : OnlyReads (readSources access a) :=
  (onlyReads_readFile a.input a.input).bind fun _ =>
    (OnlyReads.mapM onlyReads_readInclude a.includes).bind fun _ => .pure _

end

/-! ## Loading -/

/-- Whether a source file can be parsed. -/
def SourceFile.Parses (f : SourceFile) : Prop := (Source.parseItems? f.text).isSome = true

lemma parse_cases (f : SourceFile) :
    (∃ p, f.parse = .ok p ∧ f.Parses) ∨ f.parse = .error (.unparsable f.name) ∧ ¬ f.Parses := by
  rw [SourceFile.parse, SourceFile.Parses]
  cases Source.parseItems? f.text with
  | some items => exact .inl ⟨_, rfl, rfl⟩
  | none => exact .inr ⟨rfl, by simp⟩

/-- Files are parsed together, or one of them cannot be. -/
lemma mapM_parse_cases (files : List SourceFile) :
    (∃ ps, files.mapM SourceFile.parse = .ok ps ∧ ∀ f ∈ files, f.Parses)
      ∨ ∃ f ∈ files, files.mapM SourceFile.parse = .error (.unparsable f.name) ∧ ¬ f.Parses := by
  induction files with
  | nil => exact .inl ⟨[], rfl, fun _ h => absurd h List.not_mem_nil⟩
  | cons f rest ih =>
      rw [List.mapM_cons]
      rcases parse_cases f with ⟨p, hp, hparses⟩ | ⟨hf, hparses⟩
      · rw [hp]
        rcases ih with ⟨ps, hps, hall⟩ | ⟨g, hg, hrest, hfails⟩
        · rw [hps]
          exact .inl ⟨p :: ps, rfl, List.forall_mem_cons.2 ⟨hparses, hall⟩⟩
        · rw [hrest]
          exact .inr ⟨g, List.mem_cons_of_mem _ hg, rfl, hfails⟩
      · rw [hf]
        exact .inr ⟨f, List.mem_cons_self, rfl, hparses⟩

/-- **Whatever is wrong with its methods, a file is generated** from sources that can be parsed. -/
theorem ofSources_cases (input : SourceFile) (includes : List SourceFile)
    (options : GenerationOptions) :
    (∃ j, GeneratedFile.ofSources (some input) includes options = .ok j
        ∧ ∀ f ∈ input :: includes, f.Parses)
      ∨ ∃ f ∈ input :: includes, GeneratedFile.ofSources (some input) includes options
          = .error (.unparsable f.name) ∧ ¬ f.Parses := by
  rw [GeneratedFile.ofSources, SourceUnit.load]
  rcases parse_cases input with ⟨p, hp, hparses⟩ | ⟨hf, hparses⟩
  · simp only [hp]
    rcases mapM_parse_cases includes with ⟨ps, hps, hall⟩ | ⟨g, hg, hrest, hfails⟩
    · rw [hps]
      exact .inl ⟨_, rfl, List.forall_mem_cons.2 ⟨hparses, hall⟩⟩
    · rw [hrest]
      exact .inr ⟨g, List.mem_cons_of_mem _ hg, rfl, hfails⟩
  · simp only [hf]
    exact .inr ⟨input, List.mem_cons_self, rfl, hparses⟩

/-! ## Writing -/

section

variable {a : RunArguments} {output : String} {g : GeneratedFile} {d d' : Disk}

/-- A disk on which the report has been written, if there is a path for it. -/
inductive Reported (a : RunArguments) (d : Disk) : Disk → Prop
  | none : a.plan = none → Reported a d d
  | some (path k text : String) : a.plan = some path → d.Target path k →
      Reported a d (d.put k text)

/-- How writing ends, and the disk that it leaves. -/
inductive Written (a : RunArguments) (output : String) (g : GeneratedFile) (d : Disk) :
    Except RunError GeneratedFile → Disk → Prop
  /-- The report cannot be written. -/
  | unreported (path : String) (cause : FileError) : a.plan = some path →
      (∀ k, ¬ d.Target path k) → Written a output g d (.error (.unwritable path cause)) d
  /-- The output file is not to be written. -/
  | dry {d₁ : Disk} : Reported a d d₁ → a.dry = true → Written a output g d (.ok g) d₁
  /-- The output file cannot be written. -/
  | unwritten {d₁ : Disk} (cause : FileError) : Reported a d d₁ → a.dry = false →
      (∀ k, ¬ d₁.Target output k) → Written a output g d (.error (.unwritable output cause)) d₁
  | written {d₁ : Disk} (k : String) : Reported a d d₁ → a.dry = false → d₁.Target output k →
      Written a output g d (.ok g) (d₁.put k g.code)

lemma perform_write (path text : String) (d : Disk) :
    perform (access.write path text) d = match d.write path text with
      | .ok d' => (.ok (), d')
      | .error cause => (.error cause, d) := by
  have hrun : perform (access.write path text) d
      = perform (match d.write path text with
          | .ok d' => (do set d'; pure (.ok ()) : StateM Disk (Except FileError Unit))
          | .error cause => pure (.error cause)) d := rfl
  rw [hrun]
  cases d.write path text <;> rfl

/-- A file is written, or its path has no target. -/
lemma writeFile_cases (path text : String) (d : Disk) :
    (∃ k, d.Target path k ∧ perform (writeFile access path text).run d = (.ok (), d.put k text))
      ∨ ∃ cause, (∀ k, ¬ d.Target path k)
        ∧ perform (writeFile access path text).run d = (.error (.unwritable path cause), d) := by
  cases hwrite : d.write path text with
  | ok d' =>
      obtain ⟨k, htarget, rfl⟩ := write_eq_ok_iff.1 hwrite
      refine .inl ⟨k, htarget, (perform_lift_bind (access.write path text) _ d).trans ?_⟩
      rw [perform_write, hwrite]
      rfl
  | error cause =>
      refine .inr ⟨cause, fun k htarget => ?_,
        (perform_lift_bind (access.write path text) _ d).trans ?_⟩
      · rw [write_eq_ok_iff.2 ⟨k, htarget, rfl⟩] at hwrite
        cases hwrite
      · rw [perform_write, hwrite]
        rfl

lemma writeReport_cases (a : RunArguments) (g : GeneratedFile) (d : Disk) :
    (∃ d₁, Reported a d d₁ ∧ perform (writeReport access a g).run d = (.ok (), d₁))
      ∨ ∃ path cause, a.plan = some path ∧ (∀ k, ¬ d.Target path k)
        ∧ perform (writeReport access a g).run d = (.error (.unwritable path cause), d) := by
  rw [writeReport]
  cases hplan : a.plan with
  | none => exact .inl ⟨d, .none hplan, rfl⟩
  | some path =>
      rcases writeFile_cases path (Report.generated g).pretty d with
        ⟨k, htarget, hrun⟩ | ⟨cause, htarget, hrun⟩
      · exact .inl ⟨_, .some path k _ hplan htarget, hrun⟩
      · exact .inr ⟨path, cause, rfl, htarget, hrun⟩

/-- **How writing ends.** -/
theorem written_writeOutput (a : RunArguments) (output : String) (j : Journaled GeneratedFile)
    (d : Disk) :
    Written a output j.value d (perform (writeOutput access a output j) d).1.outcome
      (perform (writeOutput access a output j) d).2 := by
  rw [writeOutput]
  simp only [perform_bind]
  rcases writeReport_cases a j.value d with
    ⟨d₁, hreport, hrun⟩ | ⟨path, cause, hplan, htarget, hrun⟩
  · rw [hrun]
    cases hdry : a.dry with
    | true => exact .dry hreport hdry
    | false =>
        simp only [Bool.false_eq_true, if_false, perform_bind]
        rcases writeFile_cases output j.value.code d₁ with
          ⟨k, htarget, hrun⟩ | ⟨cause, htarget, hrun⟩
        · rw [hrun]
          exact .written k hreport hdry htarget
        · rw [hrun]
          exact .unwritten cause hreport hdry htarget
  · rw [hrun]
    exact .unreported path cause hplan htarget

/-! ## Runs -/

namespace Reported

/-- What differs behind the report is the target of its path. -/
lemma target {d₁ : Disk} (h : Reported a d d₁) {k : String}
    (hk : d₁.files.find? k ≠ d.files.find? k) : ∃ path ∈ a.plan, d.Target path k := by
  cases h with
  | none => exact absurd rfl hk
  | some path l text hplan htarget =>
      rw [find?_put] at hk
      split_ifs at hk with heq
      · exact ⟨path, hplan, heq ▸ htarget⟩
      · exact absurd rfl hk

lemma target_iff {d₁ : Disk} (h : Reported a d d₁) (path k : String) :
    d₁.Target path k ↔ d.Target path k := by
  cases h with
  | none => rfl
  | some _ _ _ _ htarget => exact target_put htarget path k

/-- If there is a path for the report, it has a target. -/
lemma exists_target {d₁ : Disk} (h : Reported a d d₁) :
    ∀ path ∈ a.plan, ∃ k, d.Target path k := by
  intro path hpath
  cases h with
  | none hplan => rw [hplan] at hpath; cases hpath
  | some path' k text hplan htarget =>
      rw [hplan] at hpath
      cases hpath
      exact ⟨k, htarget⟩

end Reported

/-- A key with another file is the target of a path that was written. -/
lemma Written.target {x : Except RunError GeneratedFile} (h : Written a output g d x d')
    {k : String} (hk : d'.files.find? k ≠ d.files.find? k) :
    (∃ path ∈ a.plan, d.Target path k) ∨ a.dry = false ∧ d.Target output k := by
  cases h with
  | unreported => exact absurd rfl hk
  | dry hreport => exact .inl (hreport.target hk)
  | unwritten cause hreport => exact .inl (hreport.target hk)
  | written l hreport hdry htarget =>
      rw [find?_put] at hk
      split_ifs at hk with heq
      · exact .inr ⟨hdry, heq ▸ (hreport.target_iff output l).1 htarget⟩
      · exact .inl (hreport.target hk)

/-- Writing succeeds if the paths have targets. -/
lemma Written.succeeds_iff {x : Except RunError GeneratedFile} (h : Written a output g d x d') :
    (∃ g', x = .ok g') ↔
      (∀ path ∈ a.plan, ∃ k, d.Target path k) ∧ (a.dry = false → ∃ k, d.Target output k) := by
  cases h with
  | unreported path cause hplan htarget =>
      refine iff_of_false (fun ⟨_, h⟩ => by cases h) fun h => ?_
      obtain ⟨k, hk⟩ := h.1 path hplan
      exact htarget k hk
  | dry hreport hdry =>
      refine iff_of_true ⟨g, rfl⟩ ⟨hreport.exists_target, fun h => ?_⟩
      rw [hdry] at h
      cases h
  | unwritten cause hreport hdry htarget =>
      refine iff_of_false (fun ⟨_, h⟩ => by cases h) fun h => ?_
      obtain ⟨k, hk⟩ := h.2 hdry
      exact htarget k ((hreport.target_iff output k).2 hk)
  | written k hreport hdry htarget =>
      exact iff_of_true ⟨g, rfl⟩ ⟨hreport.exists_target, fun _ =>
        ⟨k, (hreport.target_iff output k).1 htarget⟩⟩

lemma Written.eq_of_ok {g' : GeneratedFile} (h : Written a output g d (.ok g') d') : g' = g := by
  cases h <;> rfl

/-- What was generated can be read from the output path. -/
lemma Written.read {g' : GeneratedFile} (h : Written a output g d (.ok g') d')
    (hdry : a.dry = false) : d'.read output = .ok g'.code := by
  cases h with
  | dry _ h => rw [hdry] at h; cases h
  | written k _ _ htarget => exact read_put htarget

/-- Writing fails for a path without a target. -/
lemma Written.failed {e : RunError} (h : Written a output g d (.error e) d') :
    ∃ path cause, e = .unwritable path cause
      ∧ (path ∈ a.plan ∨ a.dry = false ∧ path = output) ∧ ∀ k, ¬ d.Target path k := by
  cases h with
  | unreported path cause hplan htarget => exact ⟨path, cause, rfl, .inl hplan, htarget⟩
  | unwritten cause hreport hdry htarget =>
      exact ⟨output, cause, rfl, .inr ⟨hdry, rfl⟩, fun k hk =>
        htarget k ((hreport.target_iff output k).2 hk)⟩

/-- What is known of the files behind a run on a disk. -/
structure RunEffects (a : RunArguments) (s : Settings) (output : String) (d : Disk)
    (r : RunReport) (d' : Disk) : Prop where
  /-- If a file cannot be read, the run fails and changes nothing. -/
  unread : ∀ e, (perform (readSources access a).run d).1 = .error e →
    (∃ reported path cause, e = .unreadable reported cause ∧ d.read path = .error cause)
      ∧ r.outcome = .error e ∧ d' = d
  /-- If a source cannot be parsed, the run fails and changes nothing. -/
  unparsed : ∀ input includes,
    (perform (readSources access a).run d).1 = .ok (input, includes) →
      (∃ f ∈ input :: includes, ¬ f.Parses) →
        (∃ f ∈ input :: includes, ¬ f.Parses
          ∧ r.outcome = .error (.notLoaded (.unparsable f.name))) ∧ d' = d
  /-- A run fails for what cannot be read or parsed, and then it changes nothing, or for a path that
  cannot be written. -/
  failed : ∀ e, r.outcome = .error e →
    ((∃ path cause, e = .unreadable path cause) ∨ ∃ file, e = .notLoaded (.unparsable file))
        ∧ d' = d
      ∨ ∃ path cause, e = .unwritable path cause
        ∧ (path ∈ a.plan ∨ a.dry = false ∧ path = output) ∧ ∀ k, ¬ d.Target path k
  /-- A run that succeeds without an output file changes the target of the report's path only. -/
  dry : ∀ g, r.outcome = .ok g → a.dry = true →
    ∀ k, d'.files.find? k ≠ d.files.find? k → ∃ path ∈ a.plan, d.Target path k
  /-- A run that succeeds with an output file changes the targets of the two paths only, and leaves
  the generated code where the output path leads. -/
  written : ∀ g, r.outcome = .ok g → a.dry = false →
    (∀ k, d'.files.find? k ≠ d.files.find? k →
      (∃ path ∈ a.plan, d.Target path k) ∨ d.Target output k)
      ∧ d'.read output = .ok g.code
  /-- What a run generates is generated from the sources that it reads. -/
  generated : ∀ g, r.outcome = .ok g → ∃ input includes j,
    (perform (readSources access a).run d).1 = .ok (input, includes)
      ∧ GeneratedFile.ofSources (some input) includes s.generation = .ok j ∧ g = j.value
  /-- A run succeeds if the sources can be read and parsed and the paths have targets; nothing else
  makes it fail. -/
  succeeds : (∃ g, r.outcome = .ok g) ↔
    (∃ input includes, (perform (readSources access a).run d).1 = .ok (input, includes)
        ∧ ∀ f ∈ input :: includes, f.Parses)
      ∧ (∀ path ∈ a.plan, ∃ k, d.Target path k) ∧ (a.dry = false → ∃ k, d.Target output k)

/-- A run reads, loads and writes, and ends with the first of these that fails. -/
lemma perform_run (a : RunArguments) (s : Settings) (output : String) (d : Disk) :
    perform (run access a s output) d =
      match (perform (readSources access a).run d).1 with
      | .error e => (⟨[], "", .error e⟩, d)
      | .ok (input, includes) =>
          match GeneratedFile.ofSources (some input) includes s.generation with
          | .error e => (⟨[], "", .error (.notLoaded e)⟩, d)
          | .ok j => perform (writeOutput access a output j) d := by
  rw [run, perform_bind, (onlyReads_readSources a).still]
  cases (perform (readSources access a).run d).1 with
  | error e => rfl
  | ok sources =>
      obtain ⟨input, includes⟩ := sources
      simp only
      cases GeneratedFile.ofSources (some input) includes s.generation <;> rfl

namespace RunEffects

variable {s : Settings} {r : RunReport} {input : SourceFile} {includes : List SourceFile}

lemma of_unread {e : RunError} (hread : (perform (readSources access a).run d).1 = .error e)
    (hr : r.outcome = .error e) : RunEffects a s output d r d where
  unread e' he' := by
    obtain rfl : e = e' := Except.error.inj (hread.symm.trans he')
    exact ⟨(onlyReads_readSources a).fails d e hread, hr, rfl⟩
  unparsed _ _ h := by rw [hread] at h; cases h
  failed e' he' := by
    obtain rfl : e = e' := Except.error.inj (hr.symm.trans he')
    obtain ⟨reported, -, cause, he, -⟩ := (onlyReads_readSources a).fails d e hread
    exact .inl ⟨.inl ⟨reported, cause, he⟩, rfl⟩
  dry _ h := by rw [hr] at h; cases h
  written _ h := by rw [hr] at h; cases h
  generated _ h := by rw [hr] at h; cases h
  succeeds := by
    refine iff_of_false ?_ ?_
    · rintro ⟨g, h⟩
      rw [hr] at h
      cases h
    · rintro ⟨⟨_, _, h, -⟩, -⟩
      rw [hread] at h
      cases h

lemma of_unparsed {f : SourceFile}
    (hread : (perform (readSources access a).run d).1 = .ok (input, includes))
    (hf : f ∈ input :: includes) (hfails : ¬ f.Parses)
    (hr : r.outcome = .error (.notLoaded (.unparsable f.name))) :
    RunEffects a s output d r d where
  unread _ h := by rw [hread] at h; cases h
  unparsed _ _ h _ := by
    rw [hread] at h
    cases h
    exact ⟨⟨f, hf, hfails, hr⟩, rfl⟩
  failed e he := .inl ⟨.inr ⟨f.name, Except.error.inj (he.symm.trans hr)⟩, rfl⟩
  dry _ h := by rw [hr] at h; cases h
  written _ h := by rw [hr] at h; cases h
  generated _ h := by rw [hr] at h; cases h
  succeeds := by
    refine iff_of_false ?_ ?_
    · rintro ⟨g, h⟩
      rw [hr] at h
      cases h
    · rintro ⟨⟨_, _, h, hall⟩, -⟩
      rw [hread] at h
      cases h
      exact hfails (hall f hf)

lemma of_written {j : Journaled GeneratedFile}
    (hread : (perform (readSources access a).run d).1 = .ok (input, includes))
    (hall : ∀ f ∈ input :: includes, f.Parses)
    (hload : GeneratedFile.ofSources (some input) includes s.generation = .ok j)
    (h : Written a output j.value d r.outcome d') : RunEffects a s output d r d' where
  unread _ h := by rw [hread] at h; cases h
  unparsed _ _ h := by
    rw [hread] at h
    cases h
    rintro ⟨f, hf, hfails⟩
    exact absurd (hall f hf) hfails
  failed e he := .inr (he ▸ h).failed
  dry g _ hdry k hk := by
    refine (h.target hk).resolve_right fun hwrite => ?_
    rw [hdry] at hwrite
    cases hwrite.1
  written g hr hdry :=
    ⟨fun k hk => (h.target hk).imp_right And.right, (hr ▸ h).read hdry⟩
  generated g hr := ⟨input, includes, j, hread, hload, (hr ▸ h).eq_of_ok⟩
  succeeds := by
    rw [h.succeeds_iff]
    exact (and_iff_right ⟨input, includes, hread, hall⟩).symm

end RunEffects

/-- **What a run does to files**, on every disk and whatever it is told.  Without a path of its own
the output file never takes the path of the input file; nor does it take the place of that file, if
there is no slash in the suffix. -/
theorem run_effects (a : RunArguments) (s : Settings) (output : String) (d : Disk) :
    RunEffects a s output d (perform (run access a s output) d).1
        (perform (run access a s output) d).2
      ∧ ∀ suffix : String,
        FilePath.steps (outputPath a.input none suffix) ≠ FilePath.steps a.input
          ∧ ('/' ∉ suffix.toList → ∀ names only k, d.locate a.input = .ok (names, only) →
            d.Target (outputPath a.input none suffix) k → key names ≠ k) := by
  refine ⟨?_, fun suffix => ⟨FilePath.steps_outputPath_ne a.input suffix,
    fun hsuffix names only k => target_outputPath_ne hsuffix⟩⟩
  rw [perform_run]
  cases hread : (perform (readSources access a).run d).1 with
  | error e => exact .of_unread hread rfl
  | ok sources =>
      obtain ⟨input, includes⟩ := sources
      simp only
      rcases ofSources_cases input includes s.generation with
        ⟨j, hload, hall⟩ | ⟨f, hf, hload, hfails⟩
      · rw [hload]
        exact .of_written hread hall hload (written_writeOutput a output j d)
      · rw [hload]
        exact .of_unparsed hread hf hfails rfl

end

end FieldCopy
