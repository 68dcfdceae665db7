import Mathlib
import FieldCopy.Files.Disk
import FieldCopy.Proofs.Files.Paths
import FieldCopy.Proofs.Tables

/-!
# Writing to a disk

**Where a path leads.**  The pieces of a path are entered one by one, and what is entered is a
directory (`Reached`).  What is written to a path goes to the file with one key, its target
(`Target`), whatever the text is (`write_eq_ok_iff`).

**A new file makes no directory.**  It lies in a directory that exists already, and so do the
directories that its key leads through (`isDirectory_of_prefix`).  So every path leads where it led
before the write (`locate_put`), with the same targets (`target_put`), and the text can be
read again (`read_put`).

**Steps.**  Where a path leads is in its steps (`exists_of_locate`).  So an output path next to an
input path leads to another file than that, unless the suffix has slashes
(`target_outputPath_ne`).
-/

namespace FieldCopy.Disk

open FilePath (Plain plain_append plain_cons plain_singleton pieces steps leads)

variable {d : Disk} {path : String} {names inner : List String}

/-! ## Directories -/

lemma key_append {front back : List String} (hfront : front ≠ []) (hback : back ≠ []) :
    key (front ++ back) = key front ++ "/" ++ key back :=
  String.intercalate_append_of_ne_nil hfront hback

/-- Names lead to a directory if they only lead up, or if a file lies below. -/
lemma isDirectory_iff (d : Disk) (names : List String) :
    d.isDirectory names = true ↔
      (∀ n ∈ names, n = "" ∨ n = "..")
        ∨ ∃ k, (d.files.find? k).isSome = true ∧ (key names ++ "/").toList <+: k.toList := by
  rw [isDirectory, Bool.or_eq_true, List.all_eq_true, List.any_eq_true]
  refine or_congr (by simp) ⟨?_, ?_⟩
  · rintro ⟨e, he, hprefix⟩
    exact ⟨e.1, Keyed.look_isSome_iff.2 ⟨e, he, rfl⟩, List.isPrefixOf_iff_prefix.1 hprefix⟩
  · rintro ⟨k, hk, hprefix⟩
    obtain ⟨e, he, rfl⟩ := Keyed.look_isSome_iff.1 hk
    exact ⟨e, he, List.isPrefixOf_iff_prefix.2 hprefix⟩

lemma isDirectory_nil (d : Disk) : d.isDirectory [] = true := rfl

/-- What a directory lies in is a directory. -/
lemma isDirectory_of_append {front back : List String}
    (h : d.isDirectory (front ++ back) = true) : d.isDirectory front = true := by
  cases front with
  | nil => exact isDirectory_nil d
  | cons first rest =>
      cases back with
      | nil => rwa [List.append_nil] at h
      | cons next more =>
          rw [isDirectory_iff] at h ⊢
          refine h.imp (fun hup n hn => hup n (List.mem_append_left _ hn)) ?_
          rintro ⟨k, hk, hprefix⟩
          refine ⟨k, hk, List.IsPrefix.trans ?_ hprefix⟩
          rw [key_append (List.cons_ne_nil _ _) (List.cons_ne_nil _ _), String.append_assoc]
          exact ⟨_, String.toList_append.symm⟩

/-- The names of a directory that pieces of a path can lead to. -/
structure Reached (d : Disk) (names : List String) : Prop where
  plain : Plain names
  directory : d.isDirectory names = true
  /-- In front of what leads up everything leads up. -/
  upward : names.Pairwise fun a b => b = ".." → a = ".."

/-- A path starts in a directory. -/
lemma reached_origin (d : Disk) (path : String) : d.Reached (origin path) := by
  rw [origin]
  split
  · exact ⟨plain_singleton.2 (by decide), rfl, List.pairwise_singleton _ _⟩
  · exact ⟨fun _ h => absurd h List.not_mem_nil, rfl, .nil⟩

/-- What a directory lies in. -/
lemma Reached.up (h : d.Reached names) : d.Reached (up names) := by
  rw [Disk.up]
  rcases List.eq_nil_or_concat' names with rfl | ⟨front, last, rfl⟩
  · exact ⟨plain_singleton.2 (by decide), rfl, List.pairwise_singleton _ _⟩
  · obtain ⟨hfront, -, hup⟩ := List.pairwise_append.1 h.upward
    simp only [List.getLast?_concat]
    split_ifs with hempty hdots
    · exact h
    · -- all names lead up
      obtain rfl : last = ".." := beq_iff_eq.1 hdots
      have hall : ∀ n ∈ front ++ [".."], n = ".." := by
        intro n hn
        rcases List.mem_append.1 hn with hn | hn
        · exact hup n hn ".." (by simp) rfl
        · exact List.mem_singleton.1 hn
      refine ⟨plain_append.2 ⟨h.plain, plain_singleton.2 (by decide)⟩, ?_, ?_⟩
      · rw [isDirectory_iff]
        refine .inl fun n hn => .inr ?_
        rcases List.mem_append.1 hn with hn | hn
        · exact hall n hn
        · exact List.mem_singleton.1 hn
      · exact List.pairwise_append.2 ⟨h.upward, List.pairwise_singleton _ _,
          fun a ha _ _ _ => hall a ha⟩
    · rw [List.dropLast_concat]
      exact ⟨(plain_append.1 h.plain).1, isDirectory_of_append h.directory, hfront⟩

/-! ## Entering -/

section

variable {piece : String}

/-- A piece that leads nowhere. -/
lemma enter_void (d : Disk) (names : List String) (h : leads piece = false) :
    d.enter names piece = .ok names := by
  rcases FilePath.leads_eq_false.1 h with rfl | rfl <;> rfl

lemma enter_up (d : Disk) (names : List String) : d.enter names ".." = .ok (up names) := rfl

/-- Another piece is the name of a directory. -/
lemma enter_eq_ok_iff (hleads : leads piece = true) (hup : piece ≠ "..") :
    d.enter names piece = .ok inner
      ↔ inner = names ++ [piece] ∧ d.isDirectory (names ++ [piece]) = true := by
  have hvoid : (piece.isEmpty || piece == ".") = false := by
    simpa [leads, ← Bool.not_eq_true] using hleads
  rw [enter, hvoid, if_neg Bool.false_ne_true, if_neg (by simpa using hup)]
  by_cases hdirectory : d.isDirectory (names ++ [piece]) = true
  · simp [hdirectory, eq_comm]
  · rw [if_neg hdirectory]
    simp only [hdirectory, Bool.false_eq_true, and_false, iff_false]
    split <;> exact fun h => by cases h

/-- The ways in which a piece can lead to a directory. -/
lemma enter_cases (h : d.enter names piece = .ok inner) :
    (leads piece = false ∧ inner = names) ∨ (piece = ".." ∧ inner = up names)
      ∨ leads piece = true ∧ piece ≠ ".." ∧ inner = names ++ [piece]
        ∧ d.isDirectory (names ++ [piece]) = true := by
  cases hleads : leads piece with
  | false =>
      rw [enter_void d names hleads] at h
      exact .inl ⟨rfl, (Except.ok.inj h).symm⟩
  | true =>
      by_cases hup : piece = ".."
      · rw [hup, enter_up] at h
        exact .inr (.inl ⟨hup, (Except.ok.inj h).symm⟩)
      · exact .inr (.inr ⟨rfl, hup, (enter_eq_ok_iff hleads hup).1 h⟩)

/-- A piece of a path leads from a directory to a directory. -/
lemma Reached.enter (h : d.Reached names) (hpiece : '/' ∉ piece.toList)
    (he : d.enter names piece = .ok inner) : d.Reached inner := by
  rcases enter_cases he with ⟨-, rfl⟩ | ⟨-, rfl⟩ | ⟨-, hup, rfl, hdirectory⟩
  · exact h
  · exact h.up
  · refine ⟨plain_append.2 ⟨h.plain, plain_singleton.2 hpiece⟩, hdirectory,
      List.pairwise_append.2 ⟨h.upward, List.pairwise_singleton _ _, ?_⟩⟩
    intro a _ b hb hdots
    exact absurd ((List.mem_singleton.1 hb).symm.trans hdots) hup

end

/-- **Pieces of a path lead from a directory to a directory.** -/
lemma Reached.foldlM {ps : List String} (h : d.Reached names) (hplain : Plain ps)
    (he : ps.foldlM d.enter names = .ok inner) : d.Reached inner := by
  induction ps generalizing names with
  | nil =>
      cases he
      exact h
  | cons piece ps ih =>
      obtain ⟨hpiece, hps⟩ := plain_cons.1 hplain
      rw [List.foldlM_cons] at he
      cases hfirst : d.enter names piece with
      | error e => rw [hfirst] at he; cases he
      | ok next =>
          rw [hfirst] at he
          exact ih (h.enter hpiece hfirst) hps he

/-! ## Locating -/

/-- Whether a piece at the end of a path leads to a directory only. -/
def endsInDirectory (last : String) : Bool := !leads last || last == ".."

lemma endsInDirectory_eq (last : String) :
    (last.isEmpty || last == "." || last == "..") = endsInDirectory last := by
  rw [endsInDirectory, Bool.eq_iff_iff]
  simp only [Bool.or_eq_true, String.isEmpty_iff, beq_iff_eq, Bool.not_eq_true',
    FilePath.leads_eq_false]

/-- **Where a path leads:** the last piece is the name of a file, unless it leads to a directory
only. -/
theorem locate_eq {front : List String} {last : String} (d : Disk) (hne : path ≠ "")
    (h : pieces path = front ++ [last]) :
    d.locate path = (front.foldlM d.enter (origin path)).bind fun outer =>
      if endsInDirectory last then (d.enter outer last).map (·, true)
      else .ok (outer ++ [last], false) := by
  have hempty : ¬ path.isEmpty = true := fun he => hne (String.isEmpty_iff.1 he)
  rw [locate, if_neg hempty]
  simp only [h, List.dropLast_concat, List.getLast?_concat, endsInDirectory_eq]
  cases front.foldlM d.enter (origin path) with
  | error e => rfl
  | ok outer =>
      change (if endsInDirectory last = true then _ else _) = Except.bind _ _
      rw [Except.bind]
      split
      · cases d.enter outer last <;> rfl
      · rfl

theorem locate_eq_ok_iff {front : List String} {last : String} {only : Bool}
    (h : pieces path = front ++ [last]) :
    d.locate path = .ok (names, only) ↔ path ≠ "" ∧
      ∃ outer, front.foldlM d.enter (origin path) = .ok outer
        ∧ if endsInDirectory last then d.enter outer last = .ok names ∧ only = true
          else names = outer ++ [last] ∧ only = false := by
  by_cases hne : path = ""
  · exact iff_of_false (fun hlocate => by rw [hne] at hlocate; cases hlocate) fun h => h.1 hne
  · rw [locate_eq d hne h, and_iff_right hne]
    cases hfront : front.foldlM d.enter (origin path) with
    | error e => exact iff_of_false (fun h => by cases h) fun ⟨_, h, _⟩ => by cases h
    | ok outer =>
        simp only [Except.bind, Except.ok.injEq, exists_eq_left']
        split_ifs
        · cases d.enter outer last <;> simp [Except.map, eq_comm]
        · simp [eq_comm]

/-- All but the last piece of a path lead to a directory. -/
lemma reached_of_foldlM {front : List String} {last : String} {outer : List String}
    (h : pieces path = front ++ [last]) (houter : front.foldlM d.enter (origin path) = .ok outer) :
    d.Reached outer := by
  have hplain := FilePath.plain_pieces path
  rw [h] at hplain
  exact (reached_origin d path).foldlM (plain_append.1 hplain).1 houter

/-! ## Writing -/

/-- The disk on which a file has a text. -/
def put (d : Disk) (k text : String) : Disk := ⟨d.files.insert k (.text text)⟩

lemma find?_put (d : Disk) (k text other : String) :
    (d.put k text).files.find? other
      = if other = k then some (.text text) else d.files.find? other :=
  Keyed.find?_insert _ _ _ _

/-- What is written to the path goes to the file with this key. -/
def Target (d : Disk) (path k : String) : Prop :=
  path.toList.getLast? ≠ some '/'
    ∧ ∃ names, d.locate path = .ok (names, false) ∧ d.isDirectory names = false ∧ key names = k

lemma withoutSlashes_eq (h : path.toList.getLast? ≠ some '/') : withoutSlashes path = path := by
  have hprefix : ¬ ['/'] <+: path.toList.reverse := by
    rintro ⟨rest, hrest⟩
    refine h ?_
    rw [← List.head?_reverse, ← hrest]
    rfl
  rw [withoutSlashes, Text.dropRepeatedEnd, List.reverse_singleton,
    Text.dropRepeated_of_not_prefix hprefix, List.reverse_reverse, String.ofList_toList]

/-- What ends with a slash is no file. -/
lemma write_ne_ok_of_slash (hslash : path.toList.getLast? = some '/') (text : String) (d' : Disk) :
    d.write path text ≠ .ok d' := by
  intro h
  rw [write] at h
  cases hlocate : d.locate (if path.isEmpty then "" else
      if (withoutSlashes path).isEmpty then path else withoutSlashes path) with
  | error e => rw [hlocate] at h; cases h
  | ok found =>
      rw [hlocate] at h
      change (if _ then _ else _) = Except.ok d' at h
      rw [if_pos (by simp [hslash])] at h
      cases h

lemma write_eq (hslash : path.toList.getLast? ≠ some '/') (text : String) :
    d.write path text = (d.locate path).bind fun found =>
      if found.2 || d.isDirectory found.1 then .error .isDirectory
      else .ok (d.put (key found.1) text) := by
  have hpath : (if path.isEmpty then "" else
      if (withoutSlashes path).isEmpty then path else withoutSlashes path) = path := by
    rw [withoutSlashes_eq hslash]
    split
    · rename_i h
      exact (String.isEmpty_iff.1 h).symm
    · rfl
  rw [write, hpath]
  simp only [beq_eq_false_iff_ne.2 hslash, Bool.or_false]
  cases d.locate path with
  | error e => rfl
  | ok found =>
      change (if _ then _ else _) = Except.bind _ _
      rw [Except.bind]
      split <;> rfl

/-- **A write gives the target of its path the text**, whatever the text is. -/
theorem write_eq_ok_iff {text : String} {d' : Disk} :
    d.write path text = .ok d' ↔ ∃ k, d.Target path k ∧ d' = d.put k text := by
  by_cases hslash : path.toList.getLast? = some '/'
  · exact iff_of_false (write_ne_ok_of_slash hslash text d') fun ⟨k, h, _⟩ => h.1 hslash
  · rw [write_eq hslash]
    constructor
    · intro h
      cases hlocate : d.locate path with
      | error e => rw [hlocate] at h; cases h
      | ok found =>
          obtain ⟨names, only⟩ := found
          rw [hlocate, Except.bind] at h
          split_ifs at h with hblocked
          obtain ⟨rfl, hdirectory⟩ : only = false ∧ d.isDirectory names = false := by
            simpa using hblocked
          cases h
          exact ⟨key names, ⟨hslash, names, hlocate, hdirectory, rfl⟩, rfl⟩
    · rintro ⟨k, ⟨-, names, hnames, hdirectory, rfl⟩, rfl⟩
      rw [hnames, Except.bind, hdirectory]
      rfl

/-! ## New files -/

/-- **The directories that a key leads through exist** if the file lies in a directory. -/
lemma isDirectory_of_prefix {front : List String} {last : String} (hfront : d.Reached front)
    (hlast : '/' ∉ last.toList) (hplain : Plain names)
    (h : (key names ++ "/").toList <+: (key (front ++ [last])).toList) :
    d.isDirectory names = true := by
  cases names with
  | nil => exact isDirectory_nil d
  | cons first rest =>
      -- cut into pieces again, the key shows that the names stand in front of the file's
      obtain ⟨s, hs⟩ := h
      have hkey : key (front ++ [last]) = key (first :: rest) ++ "/" ++ String.ofList s := by
        rw [← String.toList_inj, ← hs]
        simp
      have hpieces := congrArg pieces hkey
      rw [FilePath.pieces_slash, key, key,
        FilePath.pieces_join (List.append_ne_nil_of_right_ne_nil _ (List.cons_ne_nil _ _))
          (plain_append.2 ⟨hfront.plain, plain_singleton.2 hlast⟩),
        FilePath.pieces_join (List.cons_ne_nil _ _) hplain] at hpieces
      have hdrop := congrArg List.dropLast hpieces
      rw [List.dropLast_concat, List.dropLast_append_of_ne_nil (FilePath.pieces_ne_nil _)] at hdrop
      have hdirectory := hfront.directory
      rw [hdrop] at hdirectory
      exact isDirectory_of_append hdirectory

/-- What is written to a path lies in a directory. -/
lemma Target.exists_reached {k : String} (h : d.Target path k) :
    ∃ front last, d.Reached front ∧ '/' ∉ last.toList ∧ key (front ++ [last]) = k := by
  obtain ⟨-, names, hnames, -, rfl⟩ := h
  obtain ⟨front, last, hpieces⟩ := FilePath.exists_pieces path
  obtain ⟨-, outer, houter, hcases⟩ := (locate_eq_ok_iff hpieces).1 hnames
  have hplain := FilePath.plain_pieces path
  rw [hpieces] at hplain
  split_ifs at hcases with hends
  · exact absurd hcases.2 (by decide)
  · exact ⟨outer, last, reached_of_foldlM hpieces houter,
      plain_singleton.1 (plain_append.1 hplain).2, by rw [hcases.1]⟩

section

variable {k text : String}

/-- **A write makes no directory.** -/
theorem isDirectory_put (h : d.Target path k) (hplain : Plain names) :
    (d.put k text).isDirectory names = d.isDirectory names := by
  obtain ⟨front, last, hfront, hlast, rfl⟩ := h.exists_reached
  rw [Bool.eq_iff_iff]
  constructor
  · intro hnew
    rcases (isDirectory_iff _ _).1 hnew with hup | ⟨other, hother, hprefix⟩
    · exact (isDirectory_iff _ _).2 (.inl hup)
    · rw [find?_put] at hother
      split_ifs at hother with hkey
      · exact isDirectory_of_prefix hfront hlast hplain (hkey ▸ hprefix)
      · exact (isDirectory_iff _ _).2 (.inr ⟨other, hother, hprefix⟩)
  · intro hold
    rw [isDirectory_iff] at hold ⊢
    refine hold.imp_right ?_
    rintro ⟨other, hother, hprefix⟩
    refine ⟨other, ?_, hprefix⟩
    rw [find?_put]
    split_ifs
    · rfl
    · exact hother

lemma enter_put (h : d.Target path k) (hnames : Plain names) {piece : String}
    (hpiece : '/' ∉ piece.toList) :
    (d.put k text).enter names piece = .ok inner ↔ d.enter names piece = .ok inner := by
  cases hleads : leads piece with
  | false => rw [enter_void _ _ hleads, enter_void _ _ hleads]
  | true =>
      by_cases hup : piece = ".."
      · rw [hup, enter_up, enter_up]
      · rw [enter_eq_ok_iff hleads hup, enter_eq_ok_iff hleads hup,
          isDirectory_put h (plain_append.2 ⟨hnames, plain_singleton.2 hpiece⟩)]

lemma foldlM_enter_put (h : d.Target path k) {ps : List String} (hplain : Plain ps)
    (hnames : d.Reached names) :
    ps.foldlM (d.put k text).enter names = .ok inner ↔ ps.foldlM d.enter names = .ok inner := by
  induction ps generalizing names with
  | nil => rfl
  | cons piece ps ih =>
      obtain ⟨hpiece, hps⟩ := plain_cons.1 hplain
      rw [List.foldlM_cons, List.foldlM_cons]
      have hiff : ∀ next, (d.put k text).enter names piece = .ok next
          ↔ d.enter names piece = .ok next := fun _ => enter_put h hnames.plain hpiece
      cases hold : d.enter names piece with
      | error e =>
          cases hnew : (d.put k text).enter names piece with
          | error e => exact iff_of_false (fun h => by cases h) fun h => by cases h
          | ok next => rw [(hiff next).1 hnew] at hold; cases hold
      | ok next =>
          rw [(hiff next).2 hold]
          exact ih hps (hnames.enter hpiece hold)

/-- **After a write every path leads where it led before.** -/
theorem locate_put (h : d.Target path k) (other : String) {only : Bool} :
    (d.put k text).locate other = .ok (names, only) ↔ d.locate other = .ok (names, only) := by
  obtain ⟨front, last, hpieces⟩ := FilePath.exists_pieces other
  have hplain := FilePath.plain_pieces other
  rw [hpieces] at hplain
  obtain ⟨hfront, hlast⟩ := plain_append.1 hplain
  rw [locate_eq_ok_iff hpieces, locate_eq_ok_iff hpieces]
  refine and_congr_right fun _ => exists_congr fun outer => ?_
  rw [foldlM_enter_put h hfront (reached_origin d other)]
  refine and_congr_right fun houter => ?_
  rw [enter_put h (reached_of_foldlM hpieces houter).plain (plain_singleton.1 hlast)]

lemma plain_of_locate {only : Bool} (h : d.locate path = .ok (names, only)) : Plain names := by
  obtain ⟨front, last, hpieces⟩ := FilePath.exists_pieces path
  have hplain := FilePath.plain_pieces path
  rw [hpieces] at hplain
  obtain ⟨-, outer, houter, hcases⟩ := (locate_eq_ok_iff hpieces).1 h
  have hreached := reached_of_foldlM hpieces houter
  split_ifs at hcases
  · exact (hreached.enter (plain_singleton.1 (plain_append.1 hplain).2) hcases.1).plain
  · exact hcases.1 ▸ plain_append.2 ⟨hreached.plain, (plain_append.1 hplain).2⟩

/-- **Paths keep their targets.** -/
theorem target_put (h : d.Target path k) (other l : String) :
    (d.put k text).Target other l ↔ d.Target other l := by
  refine and_congr_right fun _ => exists_congr fun names => ?_
  rw [locate_put h]
  refine and_congr_right fun hnames => ?_
  rw [isDirectory_put h (plain_of_locate hnames)]

/-- **The text that was written is read again.** -/
theorem read_put (h : d.Target path k) : (d.put k text).read path = .ok text := by
  have hpath := h
  obtain ⟨-, names, hnames, -, rfl⟩ := hpath
  have hfile : (d.put (key names) text).file? names = some (.text text) := by
    rw [file?, find?_put, if_pos rfl]
  rw [read, (locate_put h path).2 hnames]
  simp only [Bind.bind, Except.bind, hfile]
  rfl

end

/-! ## Steps -/

lemma foldlM_singleton (d : Disk) (names : List String) (piece : String) :
    [piece].foldlM d.enter names = d.enter names piece := by
  rw [List.foldlM_cons]
  exact bind_pure _

lemma foldlM_steps (d : Disk) (ps names : List String) :
    (ps.filter leads).foldlM d.enter names = ps.foldlM d.enter names := by
  induction ps generalizing names with
  | nil => rfl
  | cons piece ps ih =>
      rw [List.foldlM_cons]
      cases hleads : leads piece with
      | false =>
          rw [List.filter_cons_of_neg (by simp [hleads]), enter_void d names hleads, ih]
          rfl
      | true =>
          rw [List.filter_cons_of_pos hleads, List.foldlM_cons]
          congr 1
          exact funext ih

/-- A path whose last piece leads to a directory only is entered to its end; another has a last
step of its own. -/
lemma locate_cases {only : Bool} (h : d.locate path = .ok (names, only)) :
    (steps path).foldlM d.enter (origin path) = .ok names ∨
      ∃ front last outer, steps path = front ++ [last] ∧ last ≠ ".."
        ∧ front.foldlM d.enter (origin path) = .ok outer ∧ names = outer ++ [last] := by
  obtain ⟨front, last, hpieces⟩ := FilePath.exists_pieces path
  obtain ⟨-, outer, houter, hcases⟩ := (locate_eq_ok_iff hpieces).1 h
  split_ifs at hcases with hends
  · left
    rw [steps, foldlM_steps, hpieces, List.foldlM_append, houter]
    exact (foldlM_singleton d outer last).trans hcases.1
  · right
    rw [endsInDirectory, Bool.or_eq_true, not_or, Bool.not_eq_true', Bool.not_eq_false,
      beq_iff_eq] at hends
    refine ⟨front.filter leads, last, outer, ?_, hends.2, ?_, hcases.1⟩
    · rw [steps, hpieces, List.filter_append, List.filter_cons_of_pos hends.1, List.filter_nil]
    · rw [foldlM_steps, houter]

/-- **A last step is the last of the names**, behind those that the steps in front of it lead to. -/
theorem exists_of_locate {only : Bool} {front : List String} {last : String}
    (h : d.locate path = .ok (names, only)) (hsteps : steps path = front ++ [last])
    (hup : last ≠ "..") :
    ∃ outer, front.foldlM d.enter (origin path) = .ok outer ∧ names = outer ++ [last] := by
  rcases locate_cases h with hwalk | ⟨front', last', outer, hsteps', -, houter, hnames⟩
  · rw [hsteps, List.foldlM_append] at hwalk
    cases houter : front.foldlM d.enter (origin path) with
    | error e => rw [houter] at hwalk; cases hwalk
    | ok outer =>
        rw [houter] at hwalk
        have hmem : last ∈ steps path := by simp [hsteps]
        have hlast := (foldlM_singleton d outer last).symm.trans hwalk
        exact ⟨outer, rfl, ((enter_eq_ok_iff (List.mem_filter.1 hmem).2 hup).1 hlast).1⟩
  · obtain ⟨rfl, hlast⟩ := List.append_inj' (hsteps.symm.trans hsteps') rfl
    obtain rfl := List.singleton_inj.1 hlast
    exact ⟨outer, houter, hnames⟩

lemma key_ne_concat {last : String} (hne : last ≠ "") (names : List String) :
    key names ≠ key (names ++ [last]) := by
  intro h
  cases names with
  | nil => exact hne (by simpa [key, String.intercalate_singleton] using h.symm)
  | cons first rest =>
      rw [key_append (List.cons_ne_nil _ _) (List.cons_ne_nil _ _)] at h
      simpa using congrArg (fun s => s.toList.length) h

lemma key_concat_inj {n m : String} (h : key (names ++ [n]) = key (names ++ [m])) : n = m := by
  cases names with
  | nil => simpa [key, String.intercalate_singleton] using h
  | cons first rest =>
      rw [key_append (List.cons_ne_nil _ _) (List.cons_ne_nil _ _),
        key_append (List.cons_ne_nil _ _) (List.cons_ne_nil _ _)] at h
      simpa [key, String.intercalate_singleton] using (String.append_right_inj _).1 h

/-- **The output file is not the input file** on any disk, if no path is given for it and the suffix
is without slashes. -/
theorem target_outputPath_ne {input suffix k : String} {only : Bool} (hsuffix : '/' ∉ suffix.toList)
    (hinput : d.locate input = .ok (names, only))
    (houtput : d.Target (outputPath input none suffix) k) : key names ≠ k := by
  obtain ⟨-, others, hothers, -, rfl⟩ := houtput
  have hsteps := FilePath.steps_outputPath input hsuffix
  obtain ⟨hempty, hup⟩ := FilePath.outputName_ne input suffix
  obtain ⟨outer, houter, rfl⟩ := exists_of_locate hothers hsteps hup
  have horigin : origin (outputPath input none suffix) = origin input := by
    rw [origin, FilePath.isRooted_outputPath, origin]
  rw [horigin] at houter
  cases hname : FilePath.name? input with
  | some n =>
      obtain ⟨hin, hn⟩ := FilePath.steps_of_name? hname
      obtain ⟨outer', houter', rfl⟩ := exists_of_locate hinput hin hn
      rw [houter] at houter'
      cases houter'
      intro hkey
      refine FilePath.steps_outputPath_ne input suffix ?_
      rw [hsteps, hin, key_concat_inj hkey]
  | none =>
      obtain ⟨hfront, hlast⟩ := FilePath.steps_of_name?_eq_none hname
      rw [hfront] at houter
      rcases locate_cases hinput with hwalk | ⟨front, last, -, hin, hn, -⟩
      · rw [houter] at hwalk
        cases hwalk
        exact key_ne_concat hempty names
      · exact absurd (hlast last (by rw [hin, List.getLast?_concat]; rfl)) hn

-- a suffix with slashes can lead back to the input file, by another path
example : (Disk.mk (.ofList [("x./y", .bytes), ("x.rs", .bytes)])).write
    (outputPath "x.rs" none "/../x") "text"
      = .ok ⟨.ofList [("x./y", .bytes), ("x.rs", .text "text")]⟩ := by decide

end FieldCopy.Disk
