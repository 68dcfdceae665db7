import Mathlib
import FieldCopy.Proofs.Loading.Fitting

/-!
# What finding types keeps

`Lowering.type` finds the type of the catalog for a type as written, and adds what is new.

**Names that are asked for.**  `intern` is only ever asked for a name that is no path, for the path
of a structure with the shape of that structure, or for another path with the basic shape
(`keeps_named`).

**Main statement.**  `keeps_type`: finding a proper type keeps what asking for fitting types keeps
(`Catalog.Closed`), by recursion over the type.  That the catalog fits is such a property, and so is
what a number stands for.
-/

namespace FieldCopy

open Source ModulePath Catalog

/-! ## Computations that keep something -/

namespace Lowering

variable {α β : Type} {I : Catalog → Prop}

/-- A computation leaves a catalog with a property behind if it starts from one. -/
def Keeps (I : Catalog → Prop) (m : Lowering α) : Prop := ∀ c, I c → I (m c).2

namespace Keeps

lemma pure (a : α) : Keeps I (Pure.pure a : Lowering α) := fun _ hc => hc

lemma get : Keeps I (MonadState.get : Lowering Catalog) := fun _ hc => hc

lemma bind {m : Lowering α} {f : α → Lowering β} (hm : Keeps I m) (hf : ∀ a, Keeps I (f a)) :
    Keeps I (m >>= f) := fun c hc => hf (m c).1 (m c).2 (hm c hc)

lemma mapM {f : α → Lowering β} : ∀ {l : List α}, (∀ a ∈ l, Keeps I (f a)) → Keeps I (l.mapM f)
  | [], _ => by rw [List.mapM_nil]; exact pure _
  | a :: l, h => by
      rw [List.mapM_cons]
      exact bind (h a List.mem_cons_self) fun _ =>
        bind (mapM fun b hb => h b (List.mem_cons_of_mem a hb)) fun _ => pure _

lemma forM {f : α → Lowering Unit} : ∀ {l : List α}, (∀ a ∈ l, Keeps I (f a)) → Keeps I (l.forM f)
  | [], _ => pure _
  | a :: l, h => by
      change Keeps I (f a >>= fun _ => l.forM f)
      exact bind (h a List.mem_cons_self) fun _ =>
        forM fun b hb => h b (List.mem_cons_of_mem a hb)

end Keeps

end Lowering

/-! ## Properties that asking for types keeps -/

namespace Catalog

variable {ss es : List QualifiedName}

/-- A property of fitting catalogs that they keep when a fitting type is asked for. -/
structure Closed (ss es : List QualifiedName) (I : Catalog → Prop) : Prop where
  fits : ∀ c, I c → Fits ss es c
  intern : ∀ c name shape, I c → Fitting ss es name shape → I (c.intern name shape).2

lemma closed_fits : Closed ss es (Fits ss es) :=
  ⟨fun _ hc => hc, fun _ _ _ hc hfit => hc.intern hfit⟩

/-- What a number stands for is never forgotten. -/
lemma closed_type? (id : TypeId) (t : TypeInfo) :
    Closed ss es fun c => Fits ss es c ∧ c.type? id = some t :=
  ⟨fun _ hc => hc.1, fun _ name shape hc hfit => ⟨hc.1.intern hfit, type?_intern hc.2 name shape⟩⟩

end Catalog

/-! ## Finding types -/

namespace Lowering

variable {ss es : List QualifiedName} {I : Catalog → Prop}

/-- The scope of a module while declared enumerations are known. -/
def scopeOf (es : List QualifiedName) (package : String) : Scope := ⟨enumerationTable es, package⟩

/-- A generic argument keeps a property if it is a type that does. -/
def Argument.Keeps (I : Catalog → Prop) : Argument → Prop
  | .type find => Lowering.Keeps I find
  | .text _ => True

lemma Argument.Keeps.name : ∀ {a : Argument}, a.Keeps I → Lowering.Keeps I a.name
  | .type _, h => Lowering.Keeps.bind h fun _ => Lowering.Keeps.bind .get fun _ => .pure _
  | .text _, _ => .pure _

/-- **How the type of a path is found:** as a pointer to a type among the arguments, as a slice of
one, as a map between two, or as a path that leads to no wrapper. -/
lemma atPath_cases (scope : Scope) (written last : String) (arguments : List Argument) :
    (∃ e, .type e ∈ arguments ∧ last ∈ pointerNames
        ∧ atPath scope written last arguments = around e .pointer fun n => s!"{written}<{n}>")
      ∨ (∃ e, .type e ∈ arguments ∧ last ∈ sliceNames
        ∧ atPath scope written last arguments = around e .slice fun n => s!"{written}<{n}>")
      ∨ (∃ key value, .type key ∈ arguments ∧ .type value ∈ arguments
        ∧ atPath scope written last arguments = mapBetween written key value)
      ∨ atPath scope written last arguments = named scope written arguments := by
  have hmem : ∀ find ∈ arguments.filterMap Argument.type?, .type find ∈ arguments := by
    intro find hmem
    obtain ⟨a, ha, hfind⟩ := List.mem_filterMap.1 hmem
    cases a with
    | type find' => exact Option.some.inj hfind ▸ ha
    | text t => exact absurd hfind (by simp [Argument.type?])
  rw [atPath]
  split
  · rename_i element heq
    have helement := hmem element (heq ▸ List.mem_singleton_self _)
    split
    · rename_i hpointer
      exact .inl ⟨element, helement, List.contains_iff_mem.1 hpointer, rfl⟩
    · split
      · rename_i hslice
        exact .inr (.inl ⟨element, helement, List.contains_iff_mem.1 hslice, rfl⟩)
      · exact .inr (.inr (.inr rfl))
  · rename_i key value rest heq
    split
    · exact .inr (.inr (.inl ⟨key, value, hmem key (heq ▸ List.mem_cons_self),
        hmem value (heq ▸ List.mem_cons_of_mem _ List.mem_cons_self), rfl⟩))
    · exact .inr (.inr (.inr rfl))
  · exact .inr (.inr (.inr rfl))

lemma keeps_intern (closed : Closed ss es I) {name : String} {shape : Shape}
    (h : Fitting ss es name shape) : Keeps I (intern name shape) :=
  fun c hc => closed.intern c name shape hc h

section

variable (closed : Closed ss es I) (distinct : Distinct ss es)

include closed distinct

lemma keeps_intern_of_mem {c : Char} (hc : c ∈ typeMarks) (hcolon : c ≠ ':') {name : String}
    (hmem : c ∈ name.toList) (shape : Shape) : Keeps I (intern name shape) :=
  keeps_intern closed (distinct.fitting (not_reads_of_mem hc hcolon hmem) shape)

lemma keeps_around {find : Lowering TypeId} (h : Keeps I find) {c : Char}
    (hc : c ∈ typeMarks) (hcolon : c ≠ ':') {name : String → String}
    (hmem : ∀ n, c ∈ (name n).toList) (shape : TypeId → Shape) :
    Keeps I (around find shape name) :=
  .bind h fun _ => .bind .get fun _ => keeps_intern_of_mem closed distinct hc hcolon (hmem _) _

lemma keeps_mapBetween (written : String) {key value : Lowering TypeId}
    (hkey : Keeps I key) (hvalue : Keeps I value) :
    Keeps I (mapBetween written key value) :=
  .bind hkey fun _ => .bind hvalue fun _ => .bind .get fun _ =>
    keeps_intern_of_mem closed distinct (c := '<') (by decide) (by decide) (by simp [toString]) _

end

/-! ## Names that lead somewhere -/

section

variable {α : Type} {scope : Scope} {c : Catalog}

lemma exists_find_of_resolve {find : String → Option α} {path : String} {a : α}
    (h : scope.resolve find path = some a) : ∃ key, find key = some a := by
  rw [Scope.resolve] at h
  rcases (Option.orElse_eq_some _ _ _).1 h with h | ⟨-, h⟩
  · split at h
    · exact ⟨_, h⟩
    · exact absurd h (by simp)
  · exact ⟨path, h⟩

/-- A path that leads nowhere in a module leads nowhere at all. -/
lemma find_eq_none_of_resolve {find : String → Option α} {path : String}
    (h : scope.resolve find path = none) : find path = none := by
  rw [Scope.resolve] at h
  exact (Option.orElse_eq_none _ _).1 h |>.2

lemma enumeration?_mem {package written path : String}
    (h : (scopeOf es package).enumeration? written = some path) : ∃ e ∈ es, e.path = path := by
  obtain ⟨key, hkey⟩ := exists_find_of_resolve h
  rw [scopeOf, find?_enumerations] at hkey
  obtain ⟨e, he, rfl⟩ := Option.map_eq_some_iff.1 hkey
  exact ⟨e, List.mem_of_find?_eq_some he, rfl⟩

lemma get_bind (f : Catalog → Lowering α) (c : Catalog) :
    ((MonadState.get : Lowering Catalog) >>= f) c = f c c := rfl

/-- A path that leads to a structure is found as that structure. -/
lemma named_of_struct (hc : Fits ss es c) {written : String} (k : Fin ss.length)
    (h : scope.struct? c written = some ⟨k⟩) (arguments : List Argument) :
    named scope written arguments c = c.intern (ss.get k).path (.struct ⟨k⟩) := by
  rw [named, get_bind, h, Option.bind_some, hc.structType_eq k]
  rfl

/-- A path that leads to no structure is found under its own name, or that of an enumeration. -/
lemma named_of_none {written : String} (h : scope.struct? c written = none)
    (arguments : List Argument) :
    named scope written arguments c
      = (if arguments.isEmpty then intern ((scope.enumeration? written).getD written) .basic
          else do
            let names ← arguments.mapM Argument.name
            let inner := ", ".intercalate names
            intern s!"{(scope.enumeration? written).getD written}<{inner}>" .basic) c := by
  rw [named, get_bind, h, Option.bind_none]

end

section

variable (distinct : Distinct ss es)

include distinct

/-- The name under which a path is found that leads to no structure is not that of one. -/
lemma fitting_base {c : Catalog} (hc : Fits ss es c) {package written : String}
    (h : (scopeOf es package).struct? c written = none) :
    Fitting ss es (((scopeOf es package).enumeration? written).getD written) .basic := by
  refine Distinct.fitting_basic fun s hs hpath => ?_
  cases he : (scopeOf es package).enumeration? written with
  | some path =>
      obtain ⟨e, hmem, rfl⟩ := enumeration?_mem he
      rw [he, Option.getD_some] at hpath
      exact distinct.disjoint s hs e hmem hpath
  | none =>
      rw [he, Option.getD_none] at hpath
      obtain ⟨k, hk, hsk⟩ := List.getElem_of_mem hs
      obtain ⟨i, hi, -, -⟩ := structIdAtPath?_path ss ⟨k, hk⟩
      have hnone := find_eq_none_of_resolve h
      rw [hc.structIdAtPath?_eq, ← hpath, ← hsk] at hnone
      exact absurd (hnone.symm.trans hi) (by simp)

end

section

variable (closed : Closed ss es I) (distinct : Distinct ss es)

include closed distinct

/-- **Finding the type of a path keeps what asking for types keeps.** -/
lemma keeps_named (package written : String) {arguments : List Argument}
    (hargs : ∀ a ∈ arguments, a.Keeps I) :
    Keeps I (named (scopeOf es package) written arguments) := by
  intro c hc
  cases hs : (scopeOf es package).struct? c written with
  | some id =>
      obtain ⟨key, hkey⟩ := exists_find_of_resolve hs
      have hlt := (closed.fits c hc).lt_of_structIdAtPath? hkey
      rw [named_of_struct (closed.fits c hc) ⟨id.index, hlt⟩ hs]
      exact closed.intern c _ _ hc (distinct.fitting_struct ⟨id.index, hlt⟩)
  | none =>
      rw [named_of_none hs]
      split
      · exact keeps_intern closed (fitting_base distinct (closed.fits c hc) hs) c hc
      · refine Keeps.bind (.mapM fun a ha => (hargs a ha).name) (fun names => ?_) c hc
        exact keeps_intern_of_mem closed distinct (c := '<') (by decide) (by decide)
          (by simp [toString]) _

lemma keeps_atPath (package written last : String) {arguments : List Argument}
    (hargs : ∀ a ∈ arguments, a.Keeps I) :
    Keeps I (atPath (scopeOf es package) written last arguments) := by
  obtain ⟨e, he, -, hrun⟩ | ⟨e, he, -, hrun⟩ | ⟨key, value, hkey, hvalue, hrun⟩ | hrun :=
    atPath_cases (scopeOf es package) written last arguments
  · rw [hrun]
    exact keeps_around closed distinct (hargs _ he) (c := '<') (by decide) (by decide)
      (by simp [toString]) _
  · rw [hrun]
    exact keeps_around closed distinct (hargs _ he) (c := '<') (by decide) (by decide)
      (by simp [toString]) _
  · rw [hrun]
    exact keeps_mapBetween closed distinct written (hargs _ hkey) (hargs _ hvalue)
  · rw [hrun]
    exact keeps_named closed distinct package written hargs

end

lemma mem_referenceSign (l : Option String) (m : Bool) (n : String) :
    '&' ∈ (referenceSign l m ++ n).toList := by
  simp [referenceSign, String.toList_append]

/-- A reference to anything but a slice. -/
lemma type_reference {t : Ty} (h : ∀ e, t ≠ .slice e) (scope : Scope) (l : Option String)
    (m : Bool) :
    type scope (.reference l m t)
      = if isString t then intern (Ty.reference l m t).displayName .basic
        else around (type scope t) .pointer fun n => referenceSign l m ++ n := by
  rw [type]
  exact h

lemma listArguments_eq_map (scope : Scope) (items : List Source.Argument) :
    listArguments scope items = items.map (oneArgument scope) := by
  induction items with
  | nil => rw [listArguments, List.map_nil]
  | cons i items ih => rw [listArguments, ih, List.map_cons]

/-- The arguments of a path are those of its last name, one by one. -/
lemma pathArguments_eq_map (scope : Scope) : ∀ {p : Path} {s : Segment}, p.last? = some s →
    pathArguments scope p = s.arguments.items.map (oneArgument scope)
  | .mk _ _, _, hs => by
      have hsingle : ∀ s, lastArguments scope [s] = s.arguments.items.map (oneArgument scope) := by
        rintro ⟨n, a⟩
        rw [lastArguments]
        cases a with
        | angled turbofish items trailing =>
            rw [segmentArguments]
            exact listArguments_eq_map scope items
        | none | called =>
            rw [segmentArguments]
            rfl
      have hbehind : ∀ s t rest,
          lastArguments scope (s :: t :: rest) = lastArguments scope (t :: rest) := by
        intro s t rest
        rw [lastArguments]
        exact fun h => List.cons_ne_nil t rest h
      rw [pathArguments]
      exact eq_of_getLast? hsingle hbehind hs

/-- What holds of texts, and of the types among arguments, holds of the arguments of a path. -/
lemma forall_pathArguments {P : Argument → Prop} {scope : Scope} {p : Path} {s : Segment}
    (hs : p.last? = some s) (text : ∀ text, P (.text text))
    (types : ∀ t ∈ s.arguments.types, P (.type (type scope t))) :
    ∀ a ∈ pathArguments scope p, P a := by
  rw [pathArguments_eq_map scope hs, List.forall_mem_map]
  intro i hi
  cases i with
  | type t =>
      rw [oneArgument]
      exact types t (Arguments.mem_types.2 hi)
  | lifetime n =>
      rw [oneArgument]
      exact text _
  | other ps =>
      rw [oneArgument]
      exact text _

/-- **Finding a proper type keeps what asking for types keeps.** -/
theorem keeps_type (closed : Closed ss es I) (distinct : Distinct ss es) (package : String) (t : Ty)
    (h : t.IsProper) : Keeps I (type (scopeOf es package) t) := by
  induction t using Ty.form_induction with
  | parenthesized t ih =>
      rw [type]
      exact ih h
  | sliceReference l m e ih =>
      rw [type]
      exact keeps_around closed distinct (ih h) (c := '[') (by decide) (by decide)
        (by simp [toString]) _
  | reference l m t hslice ih =>
      rw [type_reference hslice]
      split
      · exact keeps_intern closed (distinct.fitting (not_reads_reference _ _ _) _)
      · exact keeps_around closed distinct (ih h) (c := '&') (by decide) (by decide)
          (mem_referenceSign l m) _
  | slice e ih | array e n ih =>
      rw [type]
      exact keeps_around closed distinct (ih h) (c := '[') (by decide) (by decide)
        (by simp [toString]) _
  | path p ih =>
      rw [type]
      cases hlast : p.last? with
      | some s =>
          have htypes := Path.IsProper.types h s (List.mem_of_getLast? hlast)
          exact keeps_atPath closed distinct package _ _ <| forall_pathArguments hlast
            (fun _ => True.intro) fun t ht => ih s hlast t ht (htypes t ht)
      | none =>
          obtain ⟨r, segments⟩ := p
          have hnil : segments = [] := List.getLast?_eq_none_iff.1 hlast
          subst hnil
          exact keeps_intern closed (distinct.fitting not_reads_empty _)
  | unit trailing =>
      rw [type]
      exact keeps_intern_of_mem closed distinct (c := '(') (by decide) (by decide) (by decide) _
  | tuple t ts trailing =>
      rw [type]
      exact keeps_intern closed (distinct.fitting (not_reads_tuple _ _) _)
  | qualified s d p =>
      rw [type]
      exact keeps_intern closed (distinct.fitting (not_reads_qualified _ _ _) _)
  | traitObject ps | implTrait ps | other ps =>
      rw [type]
      exact keeps_intern closed (distinct.fitting h _)

end Lowering

end FieldCopy
