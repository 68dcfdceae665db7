import Mathlib
import FieldCopy.Loading.Collecting
import FieldCopy.Proofs.ItemOrder.Sketches

/-!
# What items say

Items say which fields and methods structures have, which types can be turned into text, and which
functions there are.  A *report* lists this without numbers of types: a function of the items and of
what the paths in them lead to.

**Reports and catalogs.**  A catalog tells what a report says (`Catalog.Tells`) if its structures
have these fields and methods, each under the path of its structure, and so on.

**Main statement.**  `Lowering.adding_items`: collecting items adds their report to what the catalog
says.
-/

namespace FieldCopy

open Source Catalog

/-! ## Members and functions without numbers -/

/-- A field without the number of its type. -/
structure FieldView where
  name : String
  type : TypeView
  tag : Option String
  deriving DecidableEq

/-- A method without the number of its result. -/
structure MethodView where
  name : String
  parameterCount : Nat
  result : Option TypeView
  fallible : Bool
  deriving DecidableEq

/-- A function without the numbers of its types. -/
structure FunctionView where
  name : String
  parameters : List TypeView
  result : Option TypeView
  fallible : Bool
  deriving DecidableEq

namespace Catalog

/-- A number is that of a type that looks like this. -/
def IsType (c : Catalog) (id : TypeId) (v : TypeView) : Prop := c.viewOf id = some v

/-- A field looks like this. -/
structure IsField (c : Catalog) (f : FieldInfo) (v : FieldView) : Prop where
  name : f.name = v.name
  type : c.IsType f.type v.type
  tag : f.tag = v.tag

/-- A method looks like this. -/
structure IsMethod (c : Catalog) (m : MethodInfo) (v : MethodView) : Prop where
  name : m.name = v.name
  parameterCount : m.parameterCount = v.parameterCount
  result : Option.Rel c.IsType m.result v.result
  fallible : m.fallible = v.fallible

/-- A function looks like this. -/
structure IsFunction (c : Catalog) (f : FunctionInfo) (v : FunctionView) : Prop where
  name : f.name = v.name
  parameters : List.Forall₂ c.IsType f.parameters v.parameters
  result : Option.Rel c.IsType f.result v.result
  fallible : f.fallible = v.fallible

end Catalog

lemma relOption_imp {α β : Type} {r s : α → β → Prop} (h : ∀ a b, r a b → s a b) {a : Option α}
    {b : Option β} (hab : Option.Rel r a b) : Option.Rel s a b := by
  cases hab with
  | some hr => exact .some (h _ _ hr)
  | none => exact .none

lemma exists_of_relOption {α β : Type} {r : α → β → Prop} {a : Option α} {b : Option β}
    (h : Option.Rel r a b) {x : α} (hx : a = some x) : ∃ y, b = some y ∧ r x y := by
  cases h with
  | some hr => exact ⟨_, rfl, Option.some.inj hx ▸ hr⟩
  | none => exact absurd hx (by simp)

lemma exists_of_forall₂ {α β : Type} {r : α → β → Prop} {l : List α} {l' : List β}
    (h : List.Forall₂ r l l') {a : α} (ha : a ∈ l) : ∃ b, r a b := by
  induction h with
  | nil => exact absurd ha List.not_mem_nil
  | cons hr _ ih =>
      rcases List.mem_cons.1 ha with rfl | ha
      · exact ⟨_, hr⟩
      · exact ih ha

namespace Catalog.KeepsTypes

variable {c c' : Catalog} (h : KeepsTypes c c')

include h

lemma isType {id : TypeId} {v : TypeView} (hv : c.IsType id v) : c'.IsType id v := h.viewOf hv

lemma isField {f : FieldInfo} {v : FieldView} (hv : c.IsField f v) : c'.IsField f v :=
  ⟨hv.name, h.isType hv.type, hv.tag⟩

lemma isMethod {m : MethodInfo} {v : MethodView} (hv : c.IsMethod m v) : c'.IsMethod m v :=
  ⟨hv.name, hv.parameterCount, relOption_imp (fun _ _ => h.isType) hv.result, hv.fallible⟩

lemma isFunction {f : FunctionInfo} {v : FunctionView} (hv : c.IsFunction f v) :
    c'.IsFunction f v :=
  ⟨hv.name, hv.parameters.imp fun _ _ => h.isType, relOption_imp (fun _ _ => h.isType) hv.result,
    hv.fallible⟩

end Catalog.KeepsTypes

/-! ## Tables of functions -/

namespace Keyed

variable {α β : Type}

/-- Two tables have related values for the same keys. -/
def Related (r : α → β → Prop) (s : Keyed α) (t : Keyed β) : Prop :=
  ∀ key, Option.Rel r (s.find? key) (t.find? key)

namespace Related

variable {r : α → β → Prop} {s : Keyed α} {t : Keyed β}

lemma insert (h : Related r s t) (key : String) {a : α} {b : β} (hab : r a b) :
    Related r (s.insert key a) (t.insert key b) := by
  intro k
  rw [find?_insert, find?_insert]
  split
  · exact .some hab
  · exact h k

lemma insertIfNew (h : Related r s t) (key : String) {a : α} {b : β} (hab : r a b) :
    Related r (s.insertIfNew key a) (t.insertIfNew key b) := by
  intro k
  rw [find?_insertIfNew, find?_insertIfNew]
  split
  · have hkey := h key
    generalize s.find? key = a' at hkey ⊢
    generalize t.find? key = b' at hkey ⊢
    cases hkey with
    | some hr => exact .some hr
    | none => exact .some hab
  · exact h k

end Related

/-- Adds a function of a module to a table of functions. -/
def addFunction (t : Keyed α) (package name : String) (a : α) : Keyed α :=
  (if package.isEmpty then t else t.insert (ModulePath.inside package name) a).insertIfNew name a

lemma Related.addFunction {r : α → β → Prop} {s : Keyed α} {t : Keyed β} (h : Related r s t)
    (package name : String) {a : α} {b : β} (hab : r a b) :
    Related r (s.addFunction package name a) (t.addFunction package name b) := by
  rw [Keyed.addFunction, Keyed.addFunction]
  split
  · exact h.insertIfNew name hab
  · exact (h.insert _ hab).insertIfNew name hab

end Keyed

/-- The table of functions, each of a module. -/
def functionTable (functions : List (String × FunctionView)) : Keyed FunctionView :=
  functions.foldl (fun t f => t.addFunction f.1 f.2.name f.2) .empty

lemma functionTable_concat (functions : List (String × FunctionView)) (package : String)
    (f : FunctionView) :
    functionTable (functions ++ [(package, f)])
      = (functionTable functions).addFunction package f.name f := by
  rw [functionTable, List.foldl_append]
  rfl

/-! ## Reports -/

/-- What items say. -/
structure Report where
  /-- The types that are asked for. -/
  asked : List TypeView
  /-- The fields of structures, each given by its path. -/
  records : List (String × List FieldView)
  /-- The methods of structures, each given by its path. -/
  methods : List (String × MethodView)
  /-- The types that can be turned into text. -/
  texts : List TypeView
  /-- The functions of modules. -/
  functions : List (String × FunctionView)

namespace Report

/-- Nothing is said. -/
def empty : Report := ⟨[], [], [], [], []⟩

instance : Append Report :=
  ⟨fun r s => ⟨r.asked ++ s.asked, r.records ++ s.records, r.methods ++ s.methods,
    r.texts ++ s.texts, r.functions ++ s.functions⟩⟩

lemma append_def (r s : Report) :
    r ++ s = ⟨r.asked ++ s.asked, r.records ++ s.records, r.methods ++ s.methods,
      r.texts ++ s.texts, r.functions ++ s.functions⟩ := rfl

lemma append_empty (r : Report) : r ++ empty = r := by
  simp [append_def, empty]

lemma append_assoc (r s t : Report) : r ++ s ++ t = r ++ (s ++ t) := by
  simp [append_def]

/-- Everything that is said in some reports. -/
def all : List Report → Report
  | [] => empty
  | r :: rest => r ++ all rest

/-- The fields of the structure at a path. -/
def fieldsOf (r : Report) (path : String) : List FieldView :=
  (r.records.filter fun e => e.1 = path).flatMap Prod.snd

/-- The methods of the structure at a path. -/
def methodsOf (r : Report) (path : String) : List MethodView :=
  (r.methods.filter fun e => e.1 = path).map Prod.snd

lemma fieldsOf_append (r s : Report) (path : String) :
    (r ++ s).fieldsOf path = r.fieldsOf path ++ s.fieldsOf path := by
  simp [fieldsOf, append_def]

lemma methodsOf_append (r s : Report) (path : String) :
    (r ++ s).methodsOf path = r.methodsOf path ++ s.methodsOf path := by
  simp [methodsOf, append_def]

end Report

namespace Lowering

section

variable (n : Names)

/-- What a field looks like. -/
def fieldView (f : Field) : FieldView :=
  ⟨String.ofList (Text.dropRepeated "r#".toList f.name.toList), (sketch n f.type).type,
    SerializedName.ofAttributes? f.attributes⟩

/-- The result of a function, and whether the function can fail. -/
def resultSketch (s : Signature) : Option Sketch × Bool :=
  match s.result with
  | none => (none, false)
  | some t =>
      match t.outcome? with
      | some (value, _) => (some (sketch n value), true)
      | none => (some (sketch n t), false)

/-- What the result of a function looks like. -/
def resultView (s : Signature) : Option TypeView := (resultSketch n s).1.map Sketch.type

/-- What the parameters of a function look like. -/
def parameterViews (s : Signature) : List TypeView :=
  s.parameters.map fun p => (sketch n p.type).type

/-- The types that are asked for by the head of a function. -/
def signatureAsked (s : Signature) : List TypeView :=
  s.parameters.flatMap (fun p => (sketch n p.type).asked)
    ++ (resultSketch n s).1.toList.flatMap Sketch.asked

/-- What a function of the structure at a path says. -/
def methodReport (path : String) (s : Signature) : Report :=
  if s.hasReceiver then
    { Report.empty with
      asked := signatureAsked n s
      methods := [(path, ⟨s.name, s.parameters.length, resultView n s, (resultSketch n s).2⟩)] }
  else .empty

/-- What a function of a module says. -/
def functionReport (package : String) (s : Signature) : Report :=
  { Report.empty with
    asked := signatureAsked n s
    functions := [(package, ⟨s.name, parameterViews n s, resultView n s, (resultSketch n s).2⟩)] }

/-- What an implementation says. -/
def implementationReport (i : Implementation) : Report :=
  match i.traitPath with
  | some t =>
      if t.last?.any fun s => s.name == "Display" then
        let subject := sketch n i.subject
        { Report.empty with asked := subject.asked, texts := [subject.type] }
      else .empty
  | none =>
      match i.subject with
      | .path p | .qualified _ _ p =>
          match n.structPath? p.displayName with
          | some path => .all (i.functions.map (methodReport n path))
          | none => .empty
      | _ => .empty

/-- What a structure with named fields says. -/
def recordReport (name : String) (fields : List Field) : Report :=
  match n.structPath? name with
  | some path =>
      { Report.empty with
        asked := fields.flatMap fun f => (sketch n f.type).asked
        records := [(path, fields.map (fieldView n))] }
  | none => .empty

end

mutual

/-- What an item of a module says, given what names mean in each module. -/
def itemReport (names : String → Names) (package : String) : Item → Report
  | .record name fields => recordReport (names package) name fields
  | .implementation i => implementationReport (names package) i
  | .function s => functionReport (names package) package s
  | .module name inner => itemsReport names (ModulePath.inside package name) inner
  | .enumeration _ | .trait _ | .use _ | .other => .empty

/-- What the items of a module say. -/
def itemsReport (names : String → Names) (package : String) : List Item → Report
  | [] => .empty
  | i :: rest => itemReport names package i ++ itemsReport names package rest

end

end Lowering

/-! ## Catalogs that say something -/

namespace Catalog

/-- The catalog tells what the report says. -/
structure Tells (c : Catalog) (r : Report) : Prop where
  fields : ∀ id s, c.struct? id = some s → List.Forall₂ c.IsField s.fields (r.fieldsOf s.path)
  methods : ∀ id s, c.struct? id = some s → List.Forall₂ c.IsMethod s.methods (r.methodsOf s.path)
  texts : ∀ v ∈ r.texts, ∃ id ∈ c.stringers, c.IsType id v
  stringers : ∀ id ∈ c.stringers, ∃ v ∈ r.texts, c.IsType id v
  functions : Keyed.Related c.IsFunction c.functions (functionTable r.functions)

/-- Everything that was said is still said when types are added. -/
lemma Tells.addsTypes {c c' : Catalog} {r : Report} (h : c.Tells r) (adds : AddsTypes c c') :
    c'.Tells r := by
  refine ⟨fun id s hs => ?_, fun id s hs => ?_, fun v hv => ?_, fun id hid => ?_, fun key => ?_⟩
  · exact (h.fields id s (adds.struct? id ▸ hs)).imp fun _ _ => adds.types.isField
  · exact (h.methods id s (adds.struct? id ▸ hs)).imp fun _ _ => adds.types.isMethod
  · obtain ⟨id, hid, hview⟩ := h.texts v hv
    exact ⟨id, adds.stringers.symm ▸ hid, adds.types.isType hview⟩
  · obtain ⟨v, hv, hview⟩ := h.stringers id (adds.stringers ▸ hid)
    exact ⟨v, hv, adds.types.isType hview⟩
  · rw [adds.functions]
    exact relOption_imp (fun _ _ => adds.types.isFunction) (h.functions key)

/-- Structures are known by their paths. -/
def PathsDistinct (d : Catalog) : Prop :=
  ∀ id id' path, (d.struct? id).map StructInfo.path = some path →
    (d.struct? id').map StructInfo.path = some path → id = id'

variable {d c : Catalog} {known : List TypeView} {r : Report}

/-- A catalog that the loader comes to, which tells what a report says. -/
structure Loads (d : Catalog) (known : List TypeView) (c : Catalog) (r : Report) : Prop where
  holds : Holds d known c
  tells : c.Tells r

/-- What a path leads to in a catalog that the loader comes to. -/
lemma Holds.struct?_cases (h : Holds d known c) (scope : Scope) (path : String) :
    (scope.struct? c path = none ∧ scope.structPath? d path = none)
      ∨ ∃ id s, scope.struct? c path = some id ∧ c.struct? id = some s
          ∧ scope.structPath? d path = some s.path := by
  rw [← h.structPath? scope path, Scope.structPath?]
  cases hid : scope.struct? c path with
  | none => exact .inl ⟨rfl, rfl⟩
  | some id =>
      have hfound : ∀ p, c.structIdAtPath? p = some id → c.Knows (.struct id) := by
        intro p hp
        obtain ⟨key, hkey⟩ := exists_find?_of_lookPath hp
        exact h.sound.stored _ (.structPath hkey)
      have hknows : c.Knows (.struct id) := by
        rw [Scope.struct?, Scope.resolve] at hid
        rcases (Option.orElse_eq_some _ _ _).1 hid with hinner | ⟨-, houter⟩
        · split at hinner
          · exact hfound _ hinner
          · exact absurd hinner (by simp)
        · exact hfound _ houter
      obtain ⟨s, hs⟩ := knows_struct_iff.1 hknows
      exact .inr ⟨id, s, rfl, hs, by rw [Option.bind_some, hs, Option.map_some]⟩

/-- Reports that say the same of each structure are told alike. -/
lemma Loads.congr (h : Loads d known c r) {r' : Report}
    (fields : ∀ path, r'.fieldsOf path = r.fieldsOf path)
    (methods : ∀ path, r'.methodsOf path = r.methodsOf path) (texts : r'.texts = r.texts)
    (functions : r'.functions = r.functions) : Loads d known c r' where
  holds := h.holds
  tells :=
    { fields := fun id s hs => fields s.path ▸ h.tells.fields id s hs
      methods := fun id s hs => methods s.path ▸ h.tells.methods id s hs
      texts := texts ▸ h.tells.texts
      stringers := texts ▸ h.tells.stringers
      functions := functions ▸ h.tells.functions }

/-! ### Changing a structure -/

/-- The catalog with other things known of a structure. -/
def setStruct (c : Catalog) (id : StructId) (s : StructInfo) : Catalog :=
  { c with structs := c.structs.setIfInBounds id.index s }

lemma changeStruct_eq {id : StructId} {s : StructInfo} (h : c.struct? id = some s)
    (f : StructInfo → StructInfo) : c.changeStruct id f = .ok (c.setStruct id (f s)) := by
  rw [changeStruct, structAt, h]
  rfl

lemma struct?_setStruct {id : StructId} {s : StructInfo} (h : c.struct? id = some s)
    (s' : StructInfo) (other : StructId) :
    (c.setStruct id s').struct? other = if other = id then some s' else c.struct? other := by
  have hlt : id.index < c.structs.size := (Array.getElem?_eq_some_iff.1 h).1
  rw [setStruct, struct?, Array.getElem?_setIfInBounds]
  by_cases hother : other = id
  · rw [if_pos hother, if_pos (by rw [hother]), if_pos hlt]
  · have hindex : id.index ≠ other.index := fun heq => hother (congrArg StructId.mk heq).symm
    rw [if_neg hother, if_neg hindex, struct?]

/-- **Members that are added to a structure are told of it.** -/
lemma Loads.setStruct (distinct : PathsDistinct d) (h : Loads d known c r) {id : StructId}
    {s s' : StructInfo} (hs : c.struct? id = some s) (hsound : (c.setStruct id s').Sound)
    (hpath : s'.path = s.path) {added : Report}
    (fields : List.Forall₂ c.IsField s'.fields (r.fieldsOf s.path ++ added.fieldsOf s.path))
    (methods : List.Forall₂ c.IsMethod s'.methods (r.methodsOf s.path ++ added.methodsOf s.path))
    (others : ∀ path, path ≠ s.path → added.fieldsOf path = [] ∧ added.methodsOf path = [])
    (texts : added.texts = []) (functions : added.functions = []) :
    Loads d known (c.setStruct id s') (r ++ added) := by
  have hstruct := struct?_setStruct hs s'
  have hkeeps : KeepsTypes c (c.setStruct id s') := fun _ _ ht => ht
  -- Another structure has another path.
  have hother : ∀ other o, other ≠ id → c.struct? other = some o → o.path ≠ s.path := by
    intro other o hne ho heq
    refine hne (distinct other id s.path ?_ ?_)
    · rw [← h.holds.structs, ho, Option.map_some, heq]
    · rw [← h.holds.structs, hs, Option.map_some]
  refine ⟨⟨h.holds.structPaths, fun other => ?_, hsound, h.holds.names.congr rfl rfl,
    h.holds.known⟩, ⟨fun other o ho => ?_, fun other o ho => ?_, ?_, ?_, ?_⟩⟩
  · rw [← h.holds.structs other, hstruct]
    split
    · rename_i heq
      rw [heq, hs, Option.map_some, Option.map_some, hpath]
    · rfl
  · rw [hstruct] at ho
    rw [Report.fieldsOf_append]
    split at ho
    · obtain rfl := Option.some.inj ho
      rw [hpath]
      exact fields.imp fun _ _ => hkeeps.isField
    · rename_i hne
      rw [(others o.path (hother other o hne ho)).1, List.append_nil]
      exact (h.tells.fields other o ho).imp fun _ _ => hkeeps.isField
  · rw [hstruct] at ho
    rw [Report.methodsOf_append]
    split at ho
    · obtain rfl := Option.some.inj ho
      rw [hpath]
      exact methods.imp fun _ _ => hkeeps.isMethod
    · rename_i hne
      rw [(others o.path (hother other o hne ho)).2, List.append_nil]
      exact (h.tells.methods other o ho).imp fun _ _ => hkeeps.isMethod
  · rw [Report.append_def, texts, List.append_nil]
    exact h.tells.texts
  · rw [Report.append_def, texts, List.append_nil]
    exact h.tells.stringers
  · rw [Report.append_def, functions, List.append_nil]
    exact fun key => relOption_imp (fun _ _ => hkeeps.isFunction) (h.tells.functions key)

lemma addField_eq (hc : c.Sound) {id : StructId} {s : StructInfo} (hs : c.struct? id = some s)
    {type : TypeId} (htype : c.Knows (.type type)) (name : String) (tag : Option String) :
    ∃ isPointer isSlice, c.addField id name type tag = .ok (c.setStruct id
      { s with fields := s.fields ++ [⟨name, type, tag, isPointer, isSlice⟩] }) := by
  obtain ⟨⟨isPointer, isSlice⟩, hshape⟩ := Operation.fieldShape_ok hc htype
  refine ⟨isPointer, isSlice, ?_⟩
  rw [addField, hshape, ok_bind]
  exact changeStruct_eq hs _

/-- **A field is told of its structure.** -/
lemma Loads.addField (distinct : PathsDistinct d) (h : Loads d known c r) {id : StructId}
    {path : String} (hpath : (d.struct? id).map StructInfo.path = some path) {type : TypeId}
    {v : FieldView} (hv : c.IsType type v.type) (asked : List TypeView) :
    Loads d known ((c.addField id v.name type v.tag).toOption.getD c)
      (r ++ { Report.empty with asked, records := [(path, [v])] }) := by
  obtain ⟨s, hs, rfl⟩ := Option.map_eq_some_iff.1 ((h.holds.structs id).trans hpath)
  obtain ⟨isPointer, isSlice, hadd⟩ :=
    addField_eq h.holds.sound hs (Holds.knows hv) v.name v.tag
  have hsound := (Extends.of_addField hadd).sound h.holds.sound (by
    simp [Holds.knows hv, knows_struct_iff.2 ⟨s, hs⟩])
  rw [hadd]
  refine h.setStruct distinct hs hsound rfl ?_ ?_ ?_ rfl rfl
  · refine List.rel_append (h.tells.fields id s hs) ?_
    simp only [Report.fieldsOf, List.filter_cons_of_pos, decide_true]
    exact .cons ⟨rfl, hv, rfl⟩ .nil
  · have hsame := h.tells.methods id s hs
    rw [← List.append_nil (r.methodsOf s.path)] at hsame
    exact hsame
  · intro other hother
    simp [Report.fieldsOf, Report.methodsOf, Report.empty, hother.symm]

/-- **A method is told of its structure.** -/
lemma Loads.addMethod (distinct : PathsDistinct d) (h : Loads d known c r) {id : StructId}
    {path : String} (hpath : (d.struct? id).map StructInfo.path = some path) {m : MethodInfo}
    {v : MethodView} (hv : c.IsMethod m v) (asked : List TypeView) :
    Loads d known ((c.addMethod id m).toOption.getD c)
      (r ++ { Report.empty with asked, methods := [(path, v)] }) := by
  obtain ⟨s, hs, rfl⟩ := Option.map_eq_some_iff.1 ((h.holds.structs id).trans hpath)
  have hadd : c.addMethod id m = .ok (c.setStruct id { s with methods := s.methods ++ [m] }) :=
    changeStruct_eq hs _
  have hgiven : ∀ n ∈ Number.struct id :: (m.result.map .type).toList, c.Knows n := by
    intro n hn
    rcases List.mem_cons.1 hn with rfl | hn
    · exact knows_struct_iff.2 ⟨s, hs⟩
    · obtain ⟨result, hresult, rfl⟩ := Option.map_eq_some_iff.1 (Option.mem_toList.1 hn)
      obtain ⟨_, -, hview⟩ := exists_of_relOption hv.result hresult
      exact Holds.knows hview
  have hsound := (Extends.of_addMethod hadd).sound h.holds.sound hgiven
  rw [hadd]
  refine h.setStruct distinct hs hsound rfl ?_ ?_ ?_ rfl rfl
  · have hsame := h.tells.fields id s hs
    rw [← List.append_nil (r.fieldsOf s.path)] at hsame
    exact hsame
  · refine List.rel_append (h.tells.methods id s hs) ?_
    simp only [Report.methodsOf, List.filter_cons_of_pos, decide_true]
    exact .cons hv .nil
  · intro other hother
    simp [Report.fieldsOf, Report.methodsOf, Report.empty, hother.symm]

/-! ### Adding functions and texts -/

/-- **What is added beside types and structures is told.** -/
lemma Loads.beside (h : Loads d known c r) {c' : Catalog} (sound : c'.Sound)
    (types : c'.types = c.types) (typeNames : c'.typeNames = c.typeNames)
    (structs : c'.structs = c.structs) (structPaths : c'.structPaths = c.structPaths)
    {added : Report} (records : added.records = []) (methods : added.methods = [])
    (texts : ∀ v ∈ r.texts ++ added.texts, ∃ id ∈ c'.stringers, c.IsType id v)
    (stringers : ∀ id ∈ c'.stringers, ∃ v ∈ r.texts ++ added.texts, c.IsType id v)
    (functions : Keyed.Related c.IsFunction c'.functions
      (functionTable (r.functions ++ added.functions))) :
    Loads d known c' (r ++ added) := by
  have hkeeps : KeepsTypes c c' := fun id t ht => by rwa [type?, types]
  have hstruct : ∀ id, c'.struct? id = c.struct? id := fun id => by rw [struct?, struct?, structs]
  refine ⟨⟨structPaths.trans h.holds.structPaths, fun id => ?_, sound,
    h.holds.names.congr types typeNames, fun id v hv => ?_⟩,
    ⟨fun id s hs => ?_, fun id s hs => ?_, fun v hv => ?_, fun id hid => ?_, fun key => ?_⟩⟩
  · rw [hstruct]
    exact h.holds.structs id
  · rw [viewOf, type?, types] at hv
    exact h.holds.known id v hv
  · rw [Report.fieldsOf, Report.append_def, records, List.append_nil]
    exact (h.tells.fields id s (hstruct id ▸ hs)).imp fun _ _ => hkeeps.isField
  · rw [Report.methodsOf, Report.append_def, methods, List.append_nil]
    exact (h.tells.methods id s (hstruct id ▸ hs)).imp fun _ _ => hkeeps.isMethod
  · obtain ⟨id, hid, hview⟩ := texts v hv
    exact ⟨id, hid, hkeeps.isType hview⟩
  · obtain ⟨v, hv, hview⟩ := stringers id hid
    exact ⟨v, hv, hkeeps.isType hview⟩
  · exact relOption_imp (fun _ _ => hkeeps.isFunction) (functions key)

/-- **A function is told of its module.** -/
lemma Loads.addFunction (h : Loads d known c r) (package : String) {f : FunctionInfo}
    {v : FunctionView} (hv : c.IsFunction f v) (asked : List TypeView) :
    Loads d known (c.addFunction package f)
      (r ++ { Report.empty with asked, functions := [(package, v)] }) := by
  have hgiven : ∀ n ∈ f.numbers, c.Knows n := by
    intro n hn
    rcases List.mem_append.1 hn with hn | hn
    · obtain ⟨id, hid, rfl⟩ := List.mem_map.1 hn
      obtain ⟨_, hview⟩ := exists_of_forall₂ hv.parameters hid
      exact Holds.knows hview
    · obtain ⟨result, hresult, rfl⟩ := Option.map_eq_some_iff.1 (Option.mem_toList.1 hn)
      obtain ⟨_, -, hview⟩ := exists_of_relOption hv.result hresult
      exact Holds.knows hview
  have hsound := (Extends.of_addFunction package f).sound h.holds.sound hgiven
  have hstringers : (c.addFunction package f).stringers = c.stringers := rfl
  refine h.beside hsound rfl rfl rfl rfl rfl rfl ?_ ?_ ?_
  · simpa [Report.empty, hstringers] using h.tells.texts
  · simpa [Report.empty, hstringers] using h.tells.stringers
  · rw [functionTable_concat, ← hv.name]
    exact h.tells.functions.addFunction package f.name hv

/-- **A type that can be turned into text is told.** -/
lemma Loads.markStringer (h : Loads d known c r) {id : TypeId} {v : TypeView}
    (hv : c.IsType id v) (asked : List TypeView) :
    Loads d known (c.markStringer id) (r ++ { Report.empty with asked, texts := [v] }) := by
  have hsound := (Extends.of_markStringer id).sound h.holds.sound (by simp [Holds.knows hv])
  have hmem : ∀ other,
      other ∈ (c.markStringer id).stringers ↔ other ∈ c.stringers ∨ other = id := by
    intro other
    rw [Catalog.markStringer]
    split
    · rename_i hmarked
      rw [List.contains_iff_mem] at hmarked
      exact ⟨.inl, fun hother => hother.elim (fun hmem => hmem) fun heq => heq ▸ hmarked⟩
    · simp
  have hsame : ∀ {α : Type} (g : Catalog → α), g { c with stringers := c.stringers ++ [id] } = g c →
      g (c.markStringer id) = g c := by
    intro α g hg
    rw [Catalog.markStringer]
    split
    · rfl
    · exact hg
  refine h.beside hsound (hsame _ rfl) (hsame _ rfl) (hsame _ rfl) (hsame _ rfl) rfl rfl ?_ ?_ ?_
  · intro w hw
    rcases List.mem_append.1 hw with hw | hw
    · obtain ⟨other, hother, hview⟩ := h.tells.texts w hw
      exact ⟨other, (hmem other).2 (.inl hother), hview⟩
    · rw [List.mem_singleton.1 hw]
      exact ⟨id, (hmem id).2 (.inr rfl), hv⟩
  · intro other hother
    rcases (hmem other).1 hother with hother | rfl
    · obtain ⟨w, hw, hview⟩ := h.tells.stringers other hother
      exact ⟨w, List.mem_append_left _ hw, hview⟩
    · exact ⟨v, List.mem_append_right _ (List.mem_singleton_self v), hv⟩
  · rw [hsame Catalog.functions rfl]
    exact (List.append_nil r.functions).symm ▸ h.tells.functions

end Catalog

/-! ## Collecting items -/

namespace Lowering

variable {d : Catalog} {known : List TypeView}

/-- A computation adds to what the catalog tells, if nothing but what is known is asked for. -/
def Adding (d : Catalog) (known : List TypeView) (m : Lowering Unit) (added : Report) : Prop :=
  added.asked ⊆ known → ∀ c r, Loads d known c r → Loads d known (m c).2 (r ++ added)

namespace Adding

lemma pure : Adding d known (Pure.pure ()) .empty := fun _ _ r h => by
  rw [r.append_empty]
  exact h

lemma bind {m : Lowering Unit} {f : Unit → Lowering Unit} {added added' : Report}
    (hm : Adding d known m added) (hf : Adding d known (f ()) added') :
    Adding d known (m >>= f) (added ++ added') := by
  intro hknown c r h
  obtain ⟨hfirst, hsecond⟩ := List.append_subset.1 hknown
  rw [← Report.append_assoc]
  exact hf hsecond _ _ (hm hfirst c r h)

lemma forM {α : Type} {f : α → Lowering Unit} {g : α → Report} :
    ∀ {l : List α}, (∀ a ∈ l, Adding d known (f a) (g a)) →
      Adding d known (l.forM f) (.all (l.map g))
  | [], _ => pure
  | a :: l, h => by
      change Adding d known (f a >>= fun _ => l.forM f) (g a ++ .all (l.map g))
      exact bind (h a List.mem_cons_self) (forM fun b hb => h b (List.mem_cons_of_mem a hb))

end Adding

/-! ### Heads of functions -/

/-- The types of the head of a function were found. -/
structure SignatureFound (c : Catalog) (n : Names) (s : Signature) (types : SignatureTypes) :
    Prop where
  parameters : List.Forall₂ c.IsType types.parameters (parameterViews n s)
  result : Option.Rel c.IsType types.result (resultView n s)
  fallible : types.fallible = (resultSketch n s).2

section

variable {c : Catalog} {r : Report} (oneKind : OneKind known) (scope : Scope)

include oneKind

lemma loads_type (h : Loads d known c r) {t : Ty}
    (hasked : (sketch (scope.names d) t).asked ⊆ known) :
    Loads d known (type scope t c).2 r ∧ AddsTypes c (type scope t c).2
      ∧ (type scope t c).2.IsType (type scope t c).1 (sketch (scope.names d) t).type := by
  have hdraws := draws_type (d := d) oneKind scope t
  obtain ⟨hholds, hview⟩ := hdraws.finds hasked c h.holds
  exact ⟨⟨hholds, h.tells.addsTypes (hdraws.adds c)⟩, hdraws.adds c, hview⟩

lemma loads_parameters (ps : List Source.Parameter) {c : Catalog} (h : Loads d known c r)
    (hasked : ps.flatMap (fun p => (sketch (scope.names d) p.type).asked) ⊆ known) :
    Loads d known (ps.mapM (fun p => type scope p.type) c).2 r
      ∧ List.Forall₂ (ps.mapM (fun p => type scope p.type) c).2.IsType
          (ps.mapM (fun p => type scope p.type) c).1
          (ps.map fun p => (sketch (scope.names d) p.type).type)
      ∧ AddsTypes c (ps.mapM (fun p => type scope p.type) c).2 := by
  induction ps generalizing c with
  | nil =>
      rw [List.mapM_nil]
      exact ⟨h, .nil, .refl c⟩
  | cons p ps ih =>
      rw [List.flatMap_cons] at hasked
      obtain ⟨hfirst, hrest⟩ := List.append_subset.1 hasked
      obtain ⟨hload, hadds, hview⟩ := loads_type oneKind scope h hfirst
      obtain ⟨hloads, hviews, hadds'⟩ := ih hload hrest
      rw [List.mapM_cons]
      exact ⟨hloads, .cons (hadds'.types.isType hview) hviews, hadds.trans hadds'⟩

lemma loads_signature (h : Loads d known c r) {s : Signature}
    (hasked : signatureAsked (scope.names d) s ⊆ known) :
    Loads d known (signature scope s c).2 r
      ∧ SignatureFound (signature scope s c).2 (scope.names d) s (signature scope s c).1 := by
  obtain ⟨hparameters, hresult⟩ := List.append_subset.1 hasked
  obtain ⟨hloads, hviews, -⟩ := loads_parameters oneKind scope s.parameters h hparameters
  -- The result is found when the parameters have been found, if there is one.
  have hfound : ∀ (t : Ty) (fallible : Bool), resultSketch (scope.names d) s
        = (some (sketch (scope.names d) t), fallible) →
      Loads d known (type scope t (s.parameters.mapM (fun p => type scope p.type) c).2).2 r
        ∧ SignatureFound (type scope t (s.parameters.mapM (fun p => type scope p.type) c).2).2
            (scope.names d) s ⟨(s.parameters.mapM (fun p => type scope p.type) c).1,
              some (type scope t (s.parameters.mapM (fun p => type scope p.type) c).2).1,
              fallible⟩ := by
    intro t fallible hsketch
    rw [hsketch] at hresult
    obtain ⟨hload, hadds, hview⟩ := loads_type oneKind scope hloads
      (t := t) (by simpa using hresult)
    refine ⟨hload, hviews.imp fun _ _ => hadds.types.isType, ?_, ?_⟩
    · rw [resultView, hsketch]
      exact .some hview
    · rw [hsketch]
  rw [signature]
  cases hr : s.result with
  | none =>
      refine ⟨hloads, hviews, ?_, ?_⟩
      · rw [resultView, resultSketch, hr]
        exact .none
      · rw [resultSketch, hr]
        rfl
  | some t =>
      cases ho : t.outcome? with
      | none =>
          have hfound := hfound t false (by simp only [resultSketch, hr, ho])
          simp only [ho]
          exact hfound
      | some outcome =>
          have hfound := hfound outcome.1 true (by simp only [resultSketch, hr, ho])
          simp only [ho]
          exact hfound

/-! ### Items -/

lemma adding_field (distinct : PathsDistinct d) {id : StructId} {path : String}
    (hpath : (d.struct? id).map StructInfo.path = some path) (f : Field) :
    Adding d known (field scope id f)
      { Report.empty with
        asked := (sketch (scope.names d) f.type).asked
        records := [(path, [fieldView (scope.names d) f])] } := by
  intro hasked c r h
  obtain ⟨hload, -, hview⟩ := loads_type oneKind scope h hasked
  exact hload.addField distinct hpath (v := fieldView (scope.names d) f) hview _

lemma adding_method (distinct : PathsDistinct d) {id : StructId} {path : String}
    (hpath : (d.struct? id).map StructInfo.path = some path) (s : Signature) :
    Adding d known (method scope id s) (methodReport (scope.names d) path s) := by
  rw [method, methodReport]
  split
  · intro hasked c r h
    obtain ⟨hload, hfound⟩ := loads_signature oneKind scope h hasked
    have hcount : (signature scope s c).1.parameters.length = s.parameters.length := by
      rw [hfound.parameters.length_eq, parameterViews, List.length_map]
    exact hload.addMethod distinct hpath ⟨rfl, hcount, hfound.result, hfound.fallible⟩ _
  · exact .pure

lemma adding_function (s : Signature) :
    Adding d known (function scope s) (functionReport (scope.names d) scope.package s) := by
  intro hasked c r h
  obtain ⟨hload, hfound⟩ := loads_signature oneKind scope h hasked
  exact hload.addFunction scope.package
    ⟨rfl, hfound.parameters, hfound.result, hfound.fallible⟩ _

omit oneKind in
/-- What single fields of a structure say is what all of them say. -/
lemma all_fields (n : Names) (path : String) (fields : List Field) :
    Report.all (fields.map fun f =>
        { Report.empty with
          asked := (sketch n f.type).asked
          records := [(path, [fieldView n f])] })
      = { Report.empty with
          asked := fields.flatMap fun f => (sketch n f.type).asked
          records := fields.map fun f => (path, [fieldView n f]) } := by
  induction fields with
  | nil => rfl
  | cons f fields ih =>
      rw [List.map_cons, Report.all, ih]
      rfl

omit oneKind in
lemma fieldsOf_fields (n : Names) (path other : String) (fields : List Field)
    (asked asked' : List TypeView) :
    Report.fieldsOf
        { Report.empty with asked, records := fields.map fun f => (path, [fieldView n f]) }
        other
      = Report.fieldsOf { Report.empty with
          asked := asked', records := [(path, fields.map (fieldView n))] } other := by
  by_cases h : path = other
  · have hall : (fields.map fun f => (path, [fieldView n f])).filter (fun e => e.1 = other)
        = fields.map fun f => (path, [fieldView n f]) := by
      rw [List.filter_eq_self]
      intro e he
      obtain ⟨f, -, rfl⟩ := List.mem_map.1 he
      exact decide_eq_true h
    have hblock : Report.fieldsOf { Report.empty with
        asked := asked', records := [(path, fields.map (fieldView n))] } other
          = fields.map (fieldView n) := by simp [Report.fieldsOf, h]
    rw [hblock, Report.fieldsOf, hall, List.flatMap_map]
    exact List.map_eq_flatMap.symm
  · simp [Report.fieldsOf, h]

/-- **The fields of a structure are told of it.** -/
lemma adding_record (distinct : PathsDistinct d) (name : String) (fields : List Field) :
    Adding d known
      (do
        match scope.struct? (← get) name with
        | some id => fields.forM (field scope id)
        | none => pure ())
      (recordReport (scope.names d) name fields) := by
  intro hasked c r h
  change Loads d known ((match scope.struct? c name with
    | some id => fields.forM (field scope id)
    | none => pure ()) c).2 _
  rw [recordReport, Scope.names] at hasked ⊢
  dsimp only at hasked ⊢
  rcases h.holds.struct?_cases scope name with ⟨hid, hpath⟩ | ⟨id, s, hid, hs, hpath⟩
  · rw [hid, hpath]
    exact Adding.pure (List.nil_subset _) c r h
  · rw [hpath] at hasked ⊢
    rw [hid]
    have hd : (d.struct? id).map StructInfo.path = some s.path := by
      rw [← h.holds.structs, hs, Option.map_some]
    have hall := Adding.forM (l := fields) fun f _ => adding_field oneKind scope distinct hd f
    rw [all_fields] at hall
    refine (hall hasked c r h).congr (fun path => ?_) (fun path => ?_) rfl rfl
    · rw [Report.fieldsOf_append, Report.fieldsOf_append]
      exact congrArg _ (fieldsOf_fields _ _ _ _ _ _).symm
    · rw [Report.methodsOf_append, Report.methodsOf_append]
      rfl

/-- **What is implemented for a type is told.** -/
lemma adding_implementation (distinct : PathsDistinct d) (i : Implementation) :
    Adding d known (implementation scope i) (implementationReport (scope.names d) i) := by
  have hmethods : ∀ path, Adding d known
      (do
        match scope.struct? (← get) path with
        | some id => i.functions.forM (method scope id)
        | none => pure ())
      (match (scope.names d).structPath? path with
        | some path => .all (i.functions.map (methodReport (scope.names d) path))
        | none => .empty) := by
    intro path hasked c r h
    change Loads d known ((match scope.struct? c path with
      | some id => i.functions.forM (method scope id)
      | none => pure ()) c).2 _
    have hnames : (scope.names d).structPath? path = scope.structPath? d path := rfl
    rw [hnames] at hasked ⊢
    rcases h.holds.struct?_cases scope path with ⟨hid, hpath⟩ | ⟨id, s, hid, hs, hpath⟩
    · rw [hid, hpath]
      exact Adding.pure (List.nil_subset _) c r h
    · rw [hpath] at hasked ⊢
      rw [hid]
      have hd : (d.struct? id).map StructInfo.path = some s.path := by
        rw [← h.holds.structs, hs, Option.map_some]
      exact Adding.forM (l := i.functions)
        (fun f _ => adding_method oneKind scope distinct hd f) hasked c r h
  rw [implementation, implementationReport]
  cases ht : i.traitPath with
  | some t =>
      dsimp only
      split
      · intro hasked c r h
        obtain ⟨hload, -, hview⟩ := loads_type oneKind scope h hasked
        exact hload.markStringer hview _
      · exact .pure
  | none =>
      cases hs : i.subject with
      | path p => exact hmethods p.displayName
      | qualified _ _ p => exact hmethods p.displayName
      | _ => exact .pure

end

mutual

/-- **What an item says is told.** -/
lemma adding_item (oneKind : OneKind known) (distinct : PathsDistinct d) (scope : Scope) :
    ∀ i : Item, Adding d known (item scope i)
      (itemReport (fun package => { scope with package }.names d) scope.package i)
  | .record name fields => by
      rw [item, itemReport]
      exact adding_record oneKind scope distinct name fields
  | .implementation i => by
      rw [item, itemReport]
      exact adding_implementation oneKind scope distinct i
  | .function s => by
      rw [item, itemReport]
      exact adding_function oneKind scope s
  | .module name inner => by
      rw [item, itemReport]
      exact adding_items oneKind distinct
        { scope with package := ModulePath.inside scope.package name } inner
  | .enumeration _ | .trait _ | .use _ | .other => by
      rw [item, itemReport]
      exact .pure

/-- **What items say is told.** -/
theorem adding_items (oneKind : OneKind known) (distinct : PathsDistinct d) (scope : Scope) :
    ∀ is : List Item, Adding d known (items scope is)
      (itemsReport (fun package => { scope with package }.names d) scope.package is)
  | [] => by
      rw [items, itemsReport]
      exact .pure
  | i :: rest => by
      rw [items, itemsReport]
      exact .bind (adding_item oneKind distinct scope i) (adding_items oneKind distinct scope rest)

end

end Lowering

end FieldCopy
