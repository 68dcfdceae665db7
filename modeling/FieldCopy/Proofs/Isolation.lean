import Mathlib
import FieldCopy.Proofs.Accounting
import FieldCopy.Proofs.Isolation.Chains

/-!
# Methods do not disturb each other

What a file has of a method is its report, its diagnostics and its function (`Share`).  The lines of
one method can make it fail, or change how it is called and whether it can fail.  The shares of the
other methods do not notice, unless they call that method.

**One open method.**  A `Hole` is a unit in which one method is left open.  Every method of a unit
leaves one (`Hole.exists_fill_eq`), and two units that differ in the lines of one method are one
hole that is filled twice.

**Main statement.**  `Hole.isolated`: the share of another method stays the same if its delegate
does not lead to the method whose lines change.  A method that calls it through other methods may
notice, so it is not enough to look at delegates alone: `Hole.exists_disturbed`.
-/

namespace FieldCopy

namespace Generation

/-! ## Call shapes -/

/-- A table of call shapes with that of one more entry. -/
def addCall (calls : Keyed CallShape) (e : Entry) : Keyed CallShape :=
  e.sibling?.elim calls fun s => calls.insert s.1 s.2

lemma callShapes_eq_foldl (es : List Entry) : callShapes es = es.foldl addCall .empty :=
  (Keyed.foldl_insert Entry.sibling? es).symm

lemma callShapes_unplanned (es : List Entry) :
    callShapes (es.map Entry.unplanned) = callShapes es := by
  rw [callShapes, callShapes, List.filterMap_map]
  rfl

section

variable {names : List String} {s t : Keyed CallShape}

lemma agreeOff_addCall (h : Keyed.AgreeOff names s t) (e : Entry) :
    Keyed.AgreeOff names (addCall s e) (addCall t e) := by
  rw [addCall, addCall]
  cases e.sibling? with
  | none => exact h
  | some c => exact h.insert c.1 c.2

lemma agreeOff_addCall_left (h : Keyed.AgreeOff names s t) {e : Entry}
    (he : e.declaration.name ∈ names) : Keyed.AgreeOff names (addCall s e) t := by
  rw [addCall, Entry.sibling?]
  cases e.prepared.value with
  | none => exact h
  | some p => exact h.insert_left he _

lemma agreeOff_foldl_addCall : ∀ (es : List Entry) {s t : Keyed CallShape},
    Keyed.AgreeOff names s t → Keyed.AgreeOff names (es.foldl addCall s) (es.foldl addCall t)
  | [], _, _, h => h
  | e :: es, _, _, h => agreeOff_foldl_addCall es (agreeOff_addCall h e)

/-- The call shapes of entries that differ in one place. -/
lemma agreeOff_callShapes {front back : List Entry} {x y : Entry}
    (hname : y.declaration.name = x.declaration.name) :
    Keyed.AgreeOff [x.declaration.name] (callShapes (front ++ x :: back))
      (callShapes (front ++ y :: back)) := by
  have hx : x.declaration.name ∈ [x.declaration.name] := List.mem_singleton_self _
  have hy : y.declaration.name ∈ [x.declaration.name] := hname ▸ hx
  have hplace := (agreeOff_addCall_left (agreeOff_addCall_left
    (.refl [x.declaration.name] (front.foldl addCall .empty)) hx).symm hy).symm
  simpa only [callShapes_eq_foldl, List.foldl_append, List.foldl_cons]
    using agreeOff_foldl_addCall back hplace

end

/-! ## Shares -/

/-- What a file has of a method. -/
structure Share where
  report : MethodReport
  diagnostics : List Diagnostic
  functions : List FunctionCode

/-- A report as if no delegate could fail. -/
def unflaggedReport (r : MethodReport) : MethodReport :=
  { r with plan := r.plan.map Plan.unflagged }

/-- The part of a share that is told before it is known whether delegates can fail. -/
def Share.unflagged (s : Share) : MethodReport × List Diagnostic :=
  (unflaggedReport s.report, s.diagnostics)

/-- The share of an entry. -/
def Entry.share (c : Catalog) (calls : Keyed CallShape) (e : Entry) : Share :=
  ⟨e.report, e.diagnostics, e.functions c calls⟩

/-- Similar entries have shares that differ in flags and functions only. -/
lemma Entry.Similar.unflagged_share {d e : Entry} (h : d.Similar e) (c : Catalog)
    (calls calls' : Keyed CallShape) :
    (d.share c calls).unflagged = (e.share c calls').unflagged := by
  obtain ⟨hunplanned, hplan, hdiagnostics⟩ := h
  obtain ⟨hinterface, hdeclaration, hprepared, -⟩ := Entry.mk.inj hunplanned
  rw [Share.unflagged, Share.unflagged, share, share, unflaggedReport, unflaggedReport, report,
    report, hplan, hdiagnostics, hinterface, hdeclaration, hprepared]

end Generation

namespace SourceUnit

open Generation

variable (unit : SourceUnit)

/-- What the file of a unit has of its methods, in the order of declaration. -/
def shares : List Share :=
  unit.entries.map (Entry.share unit.catalog (callShapes unit.entries))

/-- A file consists of shares, and of what its interfaces and imports give. -/
structure ConsistsOfShares (options : GenerationOptions) (g : GeneratedFile) : Prop where
  reports : g.methods = unit.shares.map Share.report
  code : g.code = codeText (front unit options
    ++ (unit.shares.flatMap Share.functions).map .function)
  diagnostics : g.diagnostics.Perm
    (unit.interfaces.flatMap interfaceDiagnostics ++ unit.shares.flatMap Share.diagnostics)

/-- **A generated file consists of shares.** -/
theorem generate_consistsOfShares (options : GenerationOptions) :
    unit.ConsistsOfShares options (unit.generate options).value where
  reports := by
    rw [shares, List.map_map]
    rfl
  code := by
    have hfunctions : Generation.functions unit.catalog unit.entries
        = unit.shares.flatMap Share.functions := by
      rw [Generation.functions, List.filterMap_eq_flatMap_toList, List.map_flatMap, shares,
        List.flatMap_map]
      rfl
    rw [← hfunctions]
    rfl
  diagnostics := by
    have h := unit.diagnostics_perm options
    rwa [shares, List.flatMap_map]

lemma entries_eq :
    unit.entries = planAll unit.catalog (unit.annotated.map fun m => Entry.of m.1 m.2) := by
  rw [entries, examined_entries]
  rfl

end SourceUnit

/-! ## Holes -/

/-- A unit in which one method is left open. -/
structure Hole where
  file : String
  catalog : Catalog
  uses : List String
  /-- The interfaces in front of the one with the hole. -/
  before : List Interface
  name : String
  position : Position
  lines : List Annotation
  /-- The methods of the interface in front of the hole. -/
  front : List Declaration
  back : List Declaration
  after : List Interface

namespace Hole

open Generation

/-- The interface with the hole filled. -/
def interface (h : Hole) (m : Declaration) : Interface :=
  ⟨h.name, h.position, h.lines, h.front ++ m :: h.back⟩

/-- The unit with a method in the place of the hole. -/
def fill (h : Hole) (m : Declaration) : SourceUnit :=
  ⟨h.file, h.catalog, h.before ++ h.interface m :: h.after, h.uses⟩

/-- Every method of a unit leaves a hole. -/
lemma exists_fill_eq (unit : SourceUnit) {i : Interface} (hi : i ∈ unit.interfaces)
    {m : Declaration} (hm : m ∈ i.methods) : ∃ h : Hole, h.fill m = unit := by
  obtain ⟨before, after, hinterfaces⟩ := List.append_of_mem hi
  obtain ⟨front, back, hmethods⟩ := List.append_of_mem hm
  refine ⟨⟨unit.file, unit.catalog, unit.uses, before, i.name, i.position, i.lines, front, back,
    after⟩, ?_⟩
  rw [fill, interface, ← hmethods, ← hinterfaces]

/-- Whether the methods of the interface with the hole count. -/
def isReadable (h : Hole) : Bool := Interface.isReadable ⟨h.name, h.position, h.lines, []⟩

/-- The methods of some interfaces that count. -/
def counted (is : List Interface) : List (String × Declaration) :=
  (is.filter Interface.isReadable).flatMap fun i => i.methods.map fun m => (i.name, m)

/-- The methods that count in front of the hole. -/
def ahead (h : Hole) : List (String × Declaration) :=
  counted h.before ++ h.front.map fun m => (h.name, m)

/-- The methods that count behind the hole. -/
def behind (h : Hole) : List (String × Declaration) :=
  (h.back.map fun m => (h.name, m)) ++ counted h.after

/-- The place of the hole among the methods that count. -/
def place (h : Hole) : Nat := h.ahead.length

variable {h : Hole}

lemma annotated_fill (hread : h.isReadable = true) (m : Declaration) :
    (h.fill m).annotated = h.ahead ++ (h.name, m) :: h.behind := by
  have hread' : (h.interface m).isReadable = true := hread
  rw [SourceUnit.annotated, fill, List.filter_append, List.filter_cons_of_pos hread']
  simp [ahead, behind, counted, interface]

lemma annotated_fill_of_not (hread : h.isReadable = false) (m : Declaration) :
    (h.fill m).annotated = counted h.before ++ counted h.after := by
  have hread' : (h.interface m).isReadable = false := hread
  simp [SourceUnit.annotated, fill, List.filter_append, hread', counted]

/-- A method as an entry before planning. -/
def fresh (m : String × Declaration) : Entry := Entry.of m.1 m.2

lemma entries_unplanned_fill (hread : h.isReadable = true) (m : Declaration) :
    (h.fill m).entries.map Entry.unplanned
      = h.ahead.map fresh ++ Entry.of h.name m :: h.behind.map fresh := by
  rw [SourceUnit.entries_unplanned, annotated_fill hread, List.map_append, List.map_cons]
  rfl

lemma entries_fill (hread : h.isReadable = true) (m : Declaration) :
    (h.fill m).entries
      = planAll h.catalog (h.ahead.map fresh ++ Entry.of h.name m :: h.behind.map fresh) := by
  rw [SourceUnit.entries_eq, annotated_fill hread, List.map_append, List.map_cons]
  rfl

/-- If the interface with the hole does not count, it does not matter what is in the hole. -/
lemma entries_fill_of_not (hread : h.isReadable = false) (m n : Declaration) :
    (h.fill m).entries = (h.fill n).entries := by
  rw [SourceUnit.entries_eq, SourceUnit.entries_eq, annotated_fill_of_not hread,
    annotated_fill_of_not hread]
  rfl

/-! ## Two ways to fill a hole -/

/-- A place other than that of the hole. -/
def Other (h : Hole) (i : Nat) : Prop := h.isReadable = true → i ≠ h.place

variable {m n : Declaration} {i : Nat} {e : Entry}

/-- The entries in another place. -/
lemma entries_alike (hname : n.name = m.name) (he : (h.fill m).entries[i]? = some e)
    (hother : h.Other i) :
    ∃ d, (h.fill n).entries[i]? = some d ∧ Alike h.catalog m.name
      (leadingTo h.catalog [m.name] ((h.fill m).entries.take i)) e e d := by
  cases hread : h.isReadable with
  | false => exact ⟨e, entries_fill_of_not hread m n ▸ he, fun _ => .refl e, fun _ => rfl⟩
  | true =>
      have hunplanned := entries_unplanned_fill hread m
      have he' : (h.ahead.map fresh ++ Entry.of h.name m :: h.behind.map fresh)[i]?
          = some e.unplanned := by
        rw [← hunplanned, List.getElem?_map, he]
        rfl
      have hplace : i ≠ (h.ahead.map fresh).length := by simpa [place] using hother hread
      obtain ⟨d, d', hd, hd', halike⟩ := planAll_alike (c := h.catalog) (x := Entry.of h.name m)
        (y := Entry.of h.name n) hname hplace he'
      rw [← entries_fill hread, he] at hd
      rw [← entries_fill hread] at hd'
      obtain rfl := Option.some.inj hd
      refine ⟨d', hd', ?_⟩
      rw [← hunplanned, ← List.map_take, leadingTo_unplanned] at halike
      exact halike.of_unplanned rfl

/-- The call shapes of the methods. -/
lemma callShapes_agree (hname : n.name = m.name) :
    Keyed.AgreeOff [m.name] (callShapes (h.fill m).entries) (callShapes (h.fill n).entries) := by
  cases hread : h.isReadable with
  | false => exact entries_fill_of_not hread m n ▸ .refl _ _
  | true =>
      rw [← callShapes_unplanned, ← callShapes_unplanned (h.fill n).entries,
        entries_unplanned_fill hread, entries_unplanned_fill hread]
      exact agreeOff_callShapes (x := Entry.of h.name m) (y := Entry.of h.name n) hname

/-- **The lines of a method do not disturb other methods.**  What a file has of a method stays the
same if its delegate does not lead to the method whose lines change.  If its delegate is not that
method, then at most the flag of its loop changes, with the function that is made from it. -/
theorem isolated (h : Hole) (m : Declaration) (lines : List Annotation) {i : Nat} {e : Entry}
    (he : (h.fill m).entries[i]? = some e) (hother : h.Other i)
    (hdelegate : e.delegate? h.catalog ≠ some m.name) (options : GenerationOptions) :
    let u := h.fill m
    let v := h.fill { m with lines := lines }
    u.ConsistsOfShares options (u.generate options).value
      ∧ v.ConsistsOfShares options (v.generate options).value
      ∧ v.shares[i]?.map Share.unflagged = u.shares[i]?.map Share.unflagged
      ∧ (e.delegatesTo h.catalog (leadingTo h.catalog [m.name] (u.entries.take i)) = false →
          v.shares[i]? = u.shares[i]?) := by
  intro u v
  refine ⟨u.generate_consistsOfShares _, v.generate_consistsOfShares _, ?_⟩
  obtain ⟨d, hd, halike⟩ : ∃ d, v.entries[i]? = some d ∧ Alike h.catalog m.name
      (leadingTo h.catalog [m.name] (u.entries.take i)) e e d :=
    entries_alike (m := m) (n := { m with lines := lines }) rfl he hother
  have hshare : u.shares[i]? = some (e.share h.catalog (callShapes u.entries)) := by
    rw [SourceUnit.shares, List.getElem?_map, he]
    rfl
  have hshare' : v.shares[i]? = some (d.share h.catalog (callShapes v.entries)) := by
    rw [SourceUnit.shares, List.getElem?_map, hd]
    rfl
  rw [hshare, hshare']
  refine ⟨congrArg some ((halike.direct hdelegate).unflagged_share _ _ _).symm, fun hfree => ?_⟩
  obtain rfl := halike.chain hfree
  obtain ⟨siblings, hsettled⟩ := u.entry_settled (List.mem_of_getElem? he)
  have hcalls : Keyed.AgreeOff [m.name] (callShapes u.entries) (callShapes v.entries) :=
    callShapes_agree rfl
  have hfunctions : e.functions h.catalog (callShapes u.entries)
      = e.functions h.catalog (callShapes v.entries) :=
    hsettled.functions_congr fun name hname => hcalls name fun hmem =>
      Entry.notMem_of_delegatesTo hfree name hname (subset_leadingTo _ _ hmem)
  rw [Entry.share, Entry.share, hfunctions]

/-! ## Pets -/

/-- A method that converts pets, or lists of pets. -/
def petMethod (name : String) (ofMany : Bool) (lines : List String) : Declaration :=
  let position : Position := ⟨"pets.rs", 1, 1⟩
  let (type, written) := if ofMany then (⟨2⟩, "Vec<Pet>") else (⟨1⟩, "Pet")
  { name, position
    docs := []
    lines := lines.map fun text => ⟨text, position⟩
    parameters := [⟨"src", type, written⟩]
    result := some ⟨"dst", type, written⟩
    fallible := false
    errorType := none }

/-- Conversions of pets next to one that is left open.  Only that of a herd calls it, and not by
itself. -/
def pets : Hole where
  file := "pets.rs"
  catalog := { Catalog.empty with
    types := #[⟨⟨0⟩, "String", .basic⟩, ⟨⟨1⟩, "Pet", .struct ⟨0⟩⟩, ⟨⟨2⟩, "Vec<Pet>", .slice ⟨1⟩⟩]
    structs := #[⟨"Pet", "", [⟨"name", ⟨0⟩, none, false, false⟩], []⟩]
    functions := Keyed.empty.insert "parse" ⟨"parse", [⟨0⟩], some ⟨0⟩, true⟩ }
  uses := []
  before := []
  name := "Convert"
  position := ⟨"pets.rs", 1, 1⟩
  lines := []
  front := [petMethod "twins" true [":struct_conv twin"]]
  back := [petMethod "twin" false [], petMethod "pets" true [":struct_conv pet"],
    petMethod "herd" true [":struct_conv pets"]]
  after := []

/-- With a directive for the conversion of a pet, the share of the first method stays the same, and
that of the last one does but for flags. -/
theorem pets_isolated :
    let m := petMethod "pet" false []
    let lines : List Annotation := [⟨":conv name parse", m.position⟩]
    (pets.fill { m with lines := lines }).shares[0]? = (pets.fill m).shares[0]?
      ∧ (pets.fill { m with lines := lines }).shares[4]?.map Share.unflagged
        = (pets.fill m).shares[4]?.map Share.unflagged := by
  intro m lines
  obtain ⟨twins, htwins, htwin⟩ := Option.map_eq_some_iff.1
    (show (pets.fill m).entries[0]?.map (Entry.delegate? pets.catalog) = some (some "twin") by
      decide +kernel)
  obtain ⟨herd, hherd, hpets⟩ := Option.map_eq_some_iff.1
    (show (pets.fill m).entries[4]?.map (Entry.delegate? pets.catalog) = some (some "pets") by
      decide +kernel)
  have hfirst := isolated pets m lines htwins (fun _ => by decide +kernel) (by rw [htwin]; decide)
    .default
  have hlast := isolated pets m lines hherd (fun _ => by decide +kernel) (by rw [hpets]; decide)
    .default
  refine ⟨hfirst.2.2.2 ?_, hlast.2.2.1⟩
  rw [Entry.delegatesTo, htwin]
  decide +kernel

/-- **A method that calls another through a third can be disturbed by it.** -/
theorem exists_disturbed :
    ∃ (h : Hole) (m : Declaration) (lines : List Annotation) (i : Nat) (delegate : String),
      h.Other i ∧ ((h.fill m).entries[i]?.bind fun e => e.prepared.value.bind fun p =>
          p.instructions.delegate.map FunctionRef.name) = some delegate
        ∧ delegate ≠ m.name
        ∧ (h.fill { m with lines := lines }).shares[i]? ≠ (h.fill m).shares[i]? := by
  refine ⟨pets, petMethod "pet" false [], [⟨":conv name parse", ⟨"pets.rs", 1, 1⟩⟩], 4, "pets",
    fun _ => by decide +kernel, by decide +kernel, by decide, fun hsame => ?_⟩
  have hplan := congrArg (fun s => s.bind fun s => s.report.plan) hsame
  exact absurd hplan (by decide +kernel)

end Hole

end FieldCopy
