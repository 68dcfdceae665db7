import Mathlib
import FieldCopy.Proofs.Elements.Shown
import FieldCopy.Proofs.Elements.Stored
import FieldCopy.Proofs.Loading.Fields
import FieldCopy.Proofs.Loading.Written
import FieldCopy.Proofs.Wrappers

/-!
# The elements of a destination

A loop that fills a destination by a delegate makes each element anew.  What the elements are is
read off the type of the destination as it is written, while the plan goes by where pointers and
slices lead from the type in the catalog.

**Agreement.**  The two agree if the text that is read off leads, in the root module, to the
structure of the plan (`Conversion.ElementsAgree`).  Only references are looked through in the text,
so they do not agree if another pointer stands around the slice.

**Main statement.**  `SourceUnit.elements_agree_iff`: they agree exactly if the type as it is
written is a slice, an array or a list behind references.
-/

namespace FieldCopy

open Source Catalog

/-- The elements that are read off the destination as it is written lead, in the root module, to the
structure that pointers and a slice lead to from its type. -/
def Conversion.ElementsAgree (files : List ParsedFile) (c : Catalog) (v : Conversion) : Prop :=
  ∃ text e s, Ty.elementName? v.endpoints.target.written = some text ∧ Ty.parse? text = some e
    ∧ c.elementStructOf v.endpoints.target.type = .ok (some s)
    ∧ (Loading.typeIn files "" e c).2.structOf (Loading.typeIn files "" e c).1 = .ok (some s)

namespace Catalog

variable {c c' : Catalog}

/-- Where pointers lead does not change when types are added. -/
lemma LeadsToStruct.addsTypes (adds : AddsTypes c c') {id : TypeId} {s : StructInfo}
    (h : c.LeadsToStruct id s) : c'.LeadsToStruct id s := by
  obtain ⟨last, t, d, hleads, ht, hshape, hs⟩ := h
  have hpoints : ∀ a b, c.Points a b → c'.Points a b := by
    rintro a b ⟨t, ht, hshape⟩
    exact ⟨t, adds.types a t ht, hshape⟩
  exact ⟨last, t, d, Relation.ReflTransGen.mono hpoints _ _ hleads, adds.types _ _ ht, hshape,
    (adds.struct? d).trans hs⟩

lemma LeadsToElements.exists_type {id : TypeId} {s : StructInfo} (h : c.LeadsToElements id s) :
    ∃ t, c.type? id = some t := by
  obtain ⟨last, t, -, hleads, ht, -⟩ := h
  rcases hleads.cases_head with rfl | ⟨-, ⟨t', ht', -⟩, -⟩
  · exact ⟨t, ht⟩
  · exact ⟨t', ht'⟩

/-- In a closed catalog, a known type has the structure that pointers lead to. -/
lemma IsClosed.structOf_iff (hc : c.IsClosed) {id : TypeId} (h : c.Knows (.type id))
    {s : StructInfo} : c.structOf id = .ok (some s) ↔ c.LeadsToStruct id s := by
  obtain ⟨found, hfound⟩ := hc.structOf h
  rw [← structOf_eq_some_iff hfound, hfound]
  rw [Except.ok.injEq]

lemma IsClosed.elementStructOf_iff (hc : c.IsClosed) {id : TypeId} (h : c.Knows (.type id))
    {s : StructInfo} : c.elementStructOf id = .ok (some s) ↔ c.LeadsToElements id s := by
  obtain ⟨found, hfound⟩ := hc.elementStructOf h
  rw [← elementStructOf_eq_some_iff hfound, hfound]
  rw [Except.ok.injEq]

end Catalog

namespace Loading

variable {files : List ParsedFile} {c : Catalog}

/-- What is found for a type in a built catalog is known, and the catalog stays closed. -/
lemma closed_typeIn (files : List ParsedFile) {gave : List Number} (hc : Built gave c)
    (package : String) (t : Ty) :
    (typeIn files package t c).2.IsClosed
      ∧ (typeIn files package t c).2.Knows (.type (typeIn files package t c).1) := by
  obtain ⟨after, hafter, -, hgives⟩ :=
    Lowering.builds_type (.ofFiles files package) t gave c hc (List.nil_subset _)
  obtain ⟨hsound, hknown⟩ := hafter.sound
  exact ⟨hsound.closed, hknown _ (hgives (List.mem_singleton_self _))⟩

/-- Finding a type adds types only. -/
lemma addsTypes_typeIn (package : String) (t : Ty) (c : Catalog) :
    AddsTypes c (typeIn files package t c).2 := by
  have oneKind : OneKind [] := List.forall_mem_nil _
  exact (Lowering.draws_type (d := c) oneKind _ t).adds c

/-- The number that is found for a type has the name of the type, if it was known. -/
lemma nameOf_of_typeIn (hc : GrowsTo (Declared.ofFiles files).catalog c) {package : String}
    {t : Ty} {id : TypeId} (h : (typeIn files package t c).1 = id)
    (known : ∃ info, c.type? id = some info) : c.nameOf id = nameIn files package t := by
  obtain ⟨info, hinfo⟩ := known
  have hname := (calls_typeIn files package t).nameOf (wellNamed_ofFiles files) hc
  rw [h, nameOf, (addsTypes_typeIn package t c).types _ _ hinfo] at hname
  rw [nameOf, hinfo]
  exact hname

/-! ## Elements and canonical elements -/

section

variable (unmarked : ∀ f ∈ files, f.IsUnmarked)
  (hc : GrowsSpelled (Declared.ofFiles files).catalog c) {e : Ty} (he : e.WellSpelled)
  {s : StructInfo}

include unmarked hc he

/-- What the name of a type leads to, the canonical type leads to. -/
lemma leadsToStruct_canonical {id : TypeId} (hid : c.typeNamed? (nameIn files "" e) = some id)
    (h : c.LeadsToStruct id s) :
    (typeIn files "" e.canonical c).2.LeadsToStruct (typeIn files "" e.canonical c).1 s := by
  have wellNamed := hc.grows.wellNamed (wellNamed_ofFiles files)
  have hleading := hc.spelled.leading wellNamed h
  rw [wellNamed.nameOf hid] at hleading
  have hname := agree_canonical (clean_namesIn unmarked) he (.inl hleading)
  have hcalls := calls_typeIn files "" e.canonical
  have hnumber := hcalls.number c hc.grows
  rw [← hname, (hcalls.adds c).known _ _ hid] at hnumber
  rw [← Option.some.inj hnumber]
  exact h.addsTypes (addsTypes_typeIn "" _ c)

/-- A type has a leading name if the canonical type leads to a structure. -/
lemma leading_of_canonical
    (h : (typeIn files "" e.canonical c).2.LeadsToStruct (typeIn files "" e.canonical c).1 s) :
    TypeText.Leading (nameIn files "" e) := by
  have hcalls := calls_typeIn files "" e.canonical
  have isPath : ∀ written path,
      (Scope.ofFiles files "").structPath? (Declared.ofFiles files).catalog written = some path →
        TypeText.IsPath path := fun _ _ h => isPath_structPath? unmarked h
  have hspelled := Lowering.keepsSpelled_type (wellNamed_ofFiles files) isPath e.canonical
    he.canonical.spoken c hc
  have hleading : TypeText.Leading (nameIn files "" e.canonical) := by
    rw [← hcalls.nameOf (wellNamed_ofFiles files) hc.grows]
    exact hspelled.spelled.leading (hspelled.grows.wellNamed (wellNamed_ofFiles files)) h
  rwa [agree_canonical (clean_namesIn unmarked) he (.inr hleading)]

end

/-- **The elements that are read off a parameter** lead to the structure that its type leads to
exactly if the type shows its elements. -/
theorem elements_iff_shows (unmarked : ∀ f ∈ files, f.IsUnmarked)
    (hc : GrowsSpelled (Declared.ofFiles files).catalog c) {p : Parameter} {t : Ty}
    (ht : t.WellSpelled) (hp : p.IsOf files c t) {s : StructInfo}
    (hs : c.LeadsToElements p.type s) :
    (∃ text e, Ty.elementName? p.written = some text ∧ Ty.parse? text = some e
        ∧ (typeIn files "" e c).2.LeadsToStruct (typeIn files "" e c).1 s)
      ↔ t.ShowsElements := by
  have wellNamed := hc.grows.wellNamed (wellNamed_ofFiles files)
  have hread := Ty.elementName?_displayName ht
  rw [← hp.written] at hread
  have helemental := hc.spelled.elemental wellNamed hs
  rw [nameOf_of_typeIn hc.grows hp.number hs.exists_type] at helemental
  have leading : ∀ inner, (∃ id, c.typeNamed? inner = some id ∧ c.LeadsToStruct id s) →
      TypeText.Leading inner := by
    rintro inner ⟨id, hid, hstruct⟩
    exact wellNamed.nameOf hid ▸ hc.spelled.leading wellNamed hstruct
  rcases shows_of_elemental (clean_namesIn unmarked) leading ht helemental with
    ⟨shown, e, he, id, hid, hstruct⟩ | ⟨hidden, hnot⟩
  · refine ⟨fun _ => shown, fun _ => ?_⟩
    rw [he, Option.map_some] at hread
    have hwell := ht.element he
    exact ⟨e.displayName, e.canonical, hread, Ty.parse?_displayName hwell,
      leadsToStruct_canonical unmarked hc hwell hid hstruct⟩
  · refine ⟨?_, fun shown => absurd shown hidden⟩
    rintro ⟨text, e', htext, hparse, hstruct⟩
    obtain ⟨e, he, rfl⟩ := Option.map_eq_some_iff.1 (hread.symm.trans htext)
    have hwell := ht.element he
    obtain rfl := Option.some.inj ((Ty.parse?_displayName hwell).symm.trans hparse)
    exact absurd (leading_of_canonical unmarked hc hwell hstruct) (hnot e he)

end Loading

/-! ## Loaded units -/

/-- The types in the heads of the functions of a trait are looked up by words. -/
lemma Source.Item.All.ends {i : Item} (h : i.All Ty.Heard) : ∀ t ∈ i.ends, t.Heard := by
  obtain ⟨⟩ | ⟨⟩ | ⟨⟩ | ⟨⟩ | ⟨⟩ | hfunctions := h
  case trait =>
    intro t ht
    obtain ⟨f, hf, ht⟩ := List.mem_flatMap.1 ht
    rcases List.mem_append.1 ht with ht | ht
    · obtain ⟨p, hp, rfl⟩ := List.mem_map.1 ht
      exact (hfunctions f hf).parameters p hp
    · obtain ⟨u, hu, rfl⟩ := List.mem_map.1 ht
      have hresult := (hfunctions f hf).result u (Option.mem_toList.1 hu)
      cases ho : u.outcome? with
      | none => exact hresult
      | some outcome =>
          obtain ⟨value, failure⟩ := outcome
          exact hresult.outcome ho
  all_goals exact List.forall_mem_nil _

/-- The types in the heads of the functions of traits. -/
def Loading.headTypes (files : List ParsedFile) : List Ty :=
  files.flatMap fun f => f.items.flatMap Item.ends

/-- A plan has a loop only between slices of structures. -/
lemma Planner.Shaped.betweenElements {k : Planner} {method : String} {i : Instructions}
    {source target : TypeId} {anchor : Position} {as : List Assignment}
    (h : k.Shaped method i source target anchor as) {a : Assignment} (ha : a ∈ as)
    (hloop : a.isLoop = true) : k.BetweenElements source target := by
  by_contra hapart
  by_cases hstructs : k.BetweenStructs source target
  · obtain ⟨⟨s, hs⟩, t, ht⟩ := hstructs
    obtain ⟨field, -, hshaped⟩ := exists_of_mem_right (h.fields hapart s t hs ht) ha
    exact absurd hloop (by simp [hshaped.single])
  · rw [h.whole hapart hstructs] at ha
    exact absurd ha List.not_mem_nil

namespace SourceUnit

open Generation Statement

/-- A loop fills slices of structures. -/
lemma leadsToElements_of_loop {unit : SourceUnit} {v : Conversion} (hv : v ∈ unit.conversions)
    (hloop : v.plan.hasLoop = true) :
    ∃ s, unit.catalog.LeadsToElements v.endpoints.target.type s := by
  obtain ⟨siblings, hshaped⟩ := exists_shaped hv
  obtain ⟨a, ha, hloop⟩ := List.any_eq_true.1 hloop
  exact (hshaped.betweenElements ha hloop).2

/-- The destination of a conversion is a parameter or the result of a method. -/
lemma target_mem {unit : SourceUnit} {v : Conversion} (hv : v ∈ unit.conversions) :
    ∃ i ∈ unit.interfaces, ∃ m ∈ i.methods,
      v.endpoints.target ∈ m.parameters ++ m.result.toList := by
  obtain ⟨e, he, hev⟩ := List.mem_filterMap.1 hv
  obtain ⟨p, hp, -, -, hendpoints⟩ := Entry.conversion?_eq_some hev
  obtain ⟨i, hi, m, hm, -, htarget⟩ := prepared_ends he hp
  exact ⟨i, hi, m, hm, hendpoints ▸ htarget⟩

section

variable {first : ParsedFile} {rest : List ParsedFile} (file interfaceName : String)
  (unmarked : ∀ f ∈ first :: rest, f.IsUnmarked)
  (heard : ∀ f ∈ first :: rest, ∀ i ∈ f.items, i.All Ty.Heard)

include unmarked heard

/-- **What is read off agrees with the plan exactly if the type shows its elements.** -/
lemma elementsAgree_iff {v : Conversion}
    (hv : v ∈ (ofParsed file interfaceName first rest).conversions)
    (hloop : v.plan.hasLoop = true) {t : Ty} (ht : t.WellSpelled)
    (hof : v.endpoints.target.IsOf (first :: rest)
      (ofParsed file interfaceName first rest).catalog t) :
    v.ElementsAgree (first :: rest) (ofParsed file interfaceName first rest).catalog
      ↔ t.ShowsElements := by
  obtain ⟨gave, hgave, -⟩ := built_ofParsed file interfaceName first rest
  obtain ⟨s, hs⟩ := leadsToElements_of_loop hv hloop
  have hplanned := ((hgave.sound).1.closed.elementStructOf_iff
    (knows_type_iff.2 hs.exists_type)).2 hs
  have hspelled := spelled_ofParsed file interfaceName unmarked heard
  rw [← Loading.elements_iff_shows unmarked hspelled ht hof hs]
  constructor
  · rintro ⟨text, e, s', htext, he, hs', hstruct⟩
    obtain rfl : s' = s := Option.some.inj (Except.ok.inj (hs'.symm.trans hplanned))
    obtain ⟨hclosed, hknown⟩ := Loading.closed_typeIn (first :: rest) hgave "" e
    exact ⟨text, e, htext, he, (hclosed.structOf_iff hknown).1 hstruct⟩
  · rintro ⟨text, e, htext, he, hstruct⟩
    obtain ⟨hclosed, hknown⟩ := Loading.closed_typeIn (first :: rest) hgave "" e
    exact ⟨text, e, s, htext, he, hplanned, (hclosed.structOf_iff hknown).2 hstruct⟩

end

/-- **What is read off as the elements of a destination agrees with the plan exactly if the
destination is written as a slice, an array or a list behind references.**  The destination is
written as a type in the head of a function, and it is looked up as this type. -/
theorem elements_agree_iff {input : SourceFile} {includes : List SourceFile}
    {files : List ParsedFile} (parsed : (input :: includes).mapM SourceFile.parse = .ok files)
    (unmarked : ∀ f ∈ files, ∀ c ∈ f.package.toList, c ∉ TypeText.marks) (interfaceName : String) :
    ∃ unit, load (some input) includes interfaceName = .ok unit
      ∧ ∀ v ∈ unit.conversions, v.plan.hasLoop = true →
        (∃ t ∈ Loading.headTypes files, v.endpoints.target.IsOf files unit.catalog t)
          ∧ ∀ t ∈ Loading.headTypes files, v.endpoints.target.IsOf files unit.catalog t →
            t.Plain → (v.ElementsAgree files unit.catalog ↔ t.ShowsElements) := by
  have hspoken := spoken_of_mapM_parse parsed
  have hfiles : ∀ f ∈ files, f.IsUnmarked := fun f hf =>
    ⟨unmarked f hf, fun i hi => (hspoken f hf i hi).worded⟩
  have heard : ∀ f ∈ files, ∀ i ∈ f.items, i.All Ty.Heard := fun f hf i hi =>
    (hspoken f hf i hi).types
  obtain ⟨first, rest, hfirst, hrest, rfl⟩ := exists_of_mapM_parse parsed
  refine ⟨ofParsed input.name interfaceName first rest, ?_, fun v hv hloop => ⟨?_, ?_⟩⟩
  · rw [load, hfirst, hrest]
    rfl
  · obtain ⟨i, hi, m, hm, htarget⟩ := target_mem hv
    obtain ⟨t, ht, hof⟩ := isOf_ofParsed input.name interfaceName first rest i hi m hm _ htarget
    exact ⟨t, List.mem_append_left _ ht, hof⟩
  · intro t ht hof hplain
    obtain ⟨f, hf, ht⟩ := List.mem_flatMap.1 ht
    obtain ⟨i, hi, ht⟩ := List.mem_flatMap.1 ht
    have hwell := ((heard f hf i hi).ends t ht).plain hplain
    exact elementsAgree_iff _ _ hfiles heard hv hloop hwell hof

/-- A file with methods that fill a list of pets, in a box and without. -/
def flockFile : SourceFile :=
  ⟨"flock.rs", "",
    "struct Pet\x7bage:u8\x7d
trait Copy\x7b///:style arg
fn fill(dst:&mut Pet,src:&Pet);
///:style arg
///:struct_conv fill
fn pets(dst:&mut Vec<Pet>,src:&[Pet]);
///:style arg
///:struct_conv fill
fn boxed(dst:&mut Box<Vec<Pet>>,src:&[Pet]);\x7d"⟩

/-- The type of a list of pets that can be changed. -/
def petList : Ty :=
  .reference none true (.path (.mk false [.mk "Vec" (.angled false [.type (.ofName "Pet")] false)]))

/-- Whether a type is that of a list of pets. -/
def isPetList : Ty → Bool
  | .reference none true (.path (.mk false
      [.mk list (.angled false [.type (.path (.mk false [.mk pet .none]))] false)])) =>
      list == "Vec" && pet == "Pet"
  | _ => false

lemma eq_of_isPetList {t : Ty} (h : isPetList t = true) : t = petList := by
  unfold isPetList at h
  split at h
  · obtain ⟨hlist, hpet⟩ := Bool.and_eq_true_iff.1 h
    rw [eq_of_beq hlist, eq_of_beq hpet]
    rfl
  · exact absurd h (by simp)

/-- The files that are parsed for a file, and the unit that it is loaded to. -/
def parsedAndLoaded (f : SourceFile) (interfaceName : String) :
    Except LoadError (List ParsedFile × SourceUnit) := do
  pure (← [f].mapM SourceFile.parse, ← load (some f) [] interfaceName)

lemma of_parsedAndLoaded {f : SourceFile} {interfaceName : String}
    {a : List ParsedFile × SourceUnit} (h : parsedAndLoaded f interfaceName = .ok a) :
    [f].mapM SourceFile.parse = .ok a.1 ∧ load (some f) [] interfaceName = .ok a.2 := by
  rw [parsedAndLoaded] at h
  cases hparsed : [f].mapM SourceFile.parse with
  | error e => rw [hparsed] at h; exact absurd h (by simp [bind, Except.bind])
  | ok files =>
      cases hunit : load (some f) [] interfaceName with
      | error e => rw [hparsed, hunit] at h; exact absurd h (by simp [bind, Except.bind])
      | ok unit =>
          rw [hparsed, hunit] at h
          obtain rfl := Except.ok.inj h
          exact ⟨rfl, rfl⟩

lemma parsedAndLoaded_eq (f : SourceFile) (interfaceName : String) :
    parsedAndLoaded f interfaceName
      = (fun first => ([first], ofParsed f.name interfaceName first [])) <$> f.parse := by
  rw [parsedAndLoaded, load_alone, List.mapM_cons]
  cases f.parse <;> rfl

set_option maxRecDepth 4000 in
/-- What the file is loaded to. -/
lemma load_flockFile :
    ∃ a, parsedAndLoaded flockFile "Copy" = .ok a
      ∧ ((∀ f ∈ a.1, f.package = "") ∧ (Loading.headTypes a.1).any isPetList = true
        ∧ ∃ v ∈ a.2.conversions, v.plan.hasLoop = true
          ∧ v.endpoints.target.written = petList.displayName
          ∧ (Loading.typeIn a.1 "" petList a.2.catalog).1 = v.endpoints.target.type
          ∧ linesAll (v.code a.2.catalog (callShapes a.2.entries)).body
            = ["dst.clear();", "for item in src.iter() \x7b",
              "    let mut element = Pet::default();", "    fill(&mut element, item);",
              "    dst.push(element);", "\x7d"])
      ∧ ∃ v ∈ a.2.conversions, v.plan.hasLoop = true
        ∧ Ty.elementName? v.endpoints.target.written = some "Vec<Pet>"
        ∧ (Ty.parse? "Vec<Pet>").all (fun e =>
            ((Loading.typeIn a.1 "" e a.2.catalog).2.structOf
              (Loading.typeIn a.1 "" e a.2.catalog).1).toOption = some none) = true
        ∧ linesAll (v.code a.2.catalog (callShapes a.2.entries)).body
          = ["dst.clear();", "for item in src.iter() \x7b",
            "    let mut element = <Vec<Pet>>::default();", "    fill(&mut element, item);",
            "    dst.push(element);", "\x7d"] := by
  have hitems : Source.parseItems? flockFile.text = _ := Source.parseItems?_ofList _
  rw [parsedAndLoaded_eq, SourceFile.parse, hitems]
  exact exists_ok_of_any (by decide +kernel)

/-- The items of a vector have the type that is written for them. -/
theorem flock_elements_agree :
    ∃ files unit, [flockFile].mapM SourceFile.parse = .ok files
      ∧ load (some flockFile) [] "Copy" = .ok unit
      ∧ petList ∈ Loading.headTypes files ∧ petList.Plain ∧ petList.ShowsElements
      ∧ ∃ v ∈ unit.conversions, v.plan.hasLoop = true
        ∧ v.endpoints.target.IsOf files unit.catalog petList
        ∧ v.ElementsAgree files unit.catalog := by
  obtain ⟨⟨files, unit⟩, ha, ⟨hroot, hlist, v, hv, hloop, hwritten, hnumber, -⟩, -⟩ :=
    load_flockFile
  obtain ⟨hparsed, hunit⟩ := of_parsedAndLoaded ha
  obtain ⟨unit', hunit', hagree⟩ := elements_agree_iff hparsed
    (fun f hf c hc => absurd hc (by simp [hroot f hf])) "Copy"
  obtain rfl : unit' = unit := Except.ok.inj (hunit'.symm.trans hunit)
  obtain ⟨t, ht, hlist⟩ := List.any_eq_true.1 hlist
  obtain rfl := eq_of_isPetList hlist
  have hplain : petList.Plain := by
    refine .reference (.path (List.forall_mem_singleton.2 (.angled ?_)))
    refine List.forall_mem_singleton.2 (.type (.path ?_))
    exact List.forall_mem_singleton.2 .none
  have hshows : petList.ShowsElements := ⟨_, rfl, by decide, rfl⟩
  have hof : v.endpoints.target.IsOf files unit'.catalog petList := ⟨hwritten, hnumber⟩
  exact ⟨files, unit', hparsed, hunit, ht, hplain, hshows, v, hv, hloop, hof,
    ((hagree v hv hloop).2 petList ht hof hplain).2 hshows⟩

/-- **Elements of a list in a box are taken for lists.** -/
theorem exists_disagreement :
    ∃ files unit, [flockFile].mapM SourceFile.parse = .ok files
      ∧ load (some flockFile) [] "Copy" = .ok unit
      ∧ ∃ v ∈ unit.conversions, v.plan.hasLoop = true ∧ ¬ v.ElementsAgree files unit.catalog
        ∧ linesAll (v.code unit.catalog (callShapes unit.entries)).body
          = ["dst.clear();", "for item in src.iter() \x7b",
            "    let mut element = <Vec<Pet>>::default();", "    fill(&mut element, item);",
            "    dst.push(element);", "\x7d"] := by
  obtain ⟨⟨files, unit⟩, ha, -, v, hv, hloop, hread, hnone, hlines⟩ := load_flockFile
  obtain ⟨hparsed, hunit⟩ := of_parsedAndLoaded ha
  refine ⟨files, unit, hparsed, hunit, v, hv, hloop, ?_, hlines⟩
  rintro ⟨text, e, s, htext, he, -, hs⟩
  obtain rfl := Option.some.inj (hread.symm.trans htext)
  rw [he, Option.all_some, hs] at hnone
  exact absurd hnone (by simp [Except.toOption])

end SourceUnit

end FieldCopy
