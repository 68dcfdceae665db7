import Mathlib
import FieldCopy.Command.Run
import FieldCopy.Proofs.Pieces

/-!
# Paths of files

A path is put together from pieces without slashes (`pieces_join`, `join_pieces`).  Where it leads
is in its `steps`: the pieces that are neither empty nor a single dot.  Two paths with different
steps are different paths, however many void pieces they have.

**Steps.**  The name of a path is its last step (`name?_eq`), what the path lies in has the other
ones (`steps_parent`), and what lies within a path has steps of its own behind those of the path
(`steps_within`).

**Output files.**  The name of an output file has more in it than the stem of the input file, and
ends on an extension behind a dot of its own (`ne_outputName`).  With slashes in the suffix it makes
up several steps, since what stands in front of the first of them and behind the last is never void
(`steps_outputName_ne`).  So the output path is never the input path (`steps_outputPath_ne`).
It starts at the root if the input path does (`isRooted_outputPath`).
-/

namespace FieldCopy.FilePath

variable {path name : String} {names : List String}

/-! ## Pieces -/

/-- Names without slashes. -/
def Plain (names : List String) : Prop := ∀ n ∈ names, '/' ∉ n.toList

lemma plain_append {l r : List String} : Plain (l ++ r) ↔ Plain l ∧ Plain r :=
  List.forall_mem_append

lemma plain_cons {n : String} : Plain (n :: names) ↔ '/' ∉ n.toList ∧ Plain names :=
  List.forall_mem_cons

lemma plain_singleton {n : String} : Plain [n] ↔ '/' ∉ n.toList := by
  rw [plain_cons, and_iff_left]
  exact fun _ h => absurd h List.not_mem_nil

lemma join_append (front : List String) (last b : String) :
    "/".intercalate (front ++ [last]) ++ b = "/".intercalate (front ++ [last ++ b]) := by
  cases front with
  | nil => rw [List.nil_append, List.nil_append, String.intercalate_singleton,
      String.intercalate_singleton]
  | cons first rest =>
      rw [String.intercalate_append_of_ne_nil (List.cons_ne_nil _ _) (List.cons_ne_nil _ _),
        String.intercalate_append_of_ne_nil (List.cons_ne_nil _ _) (List.cons_ne_nil _ _),
        String.intercalate_singleton, String.intercalate_singleton, String.append_assoc]

/-- Every path is put together from plain names. -/
lemma exists_join (path : String) :
    ∃ names, names ≠ [] ∧ Plain names ∧ "/".intercalate names = path := by
  suffices h : ∀ s : List Char,
      ∃ names, names ≠ [] ∧ Plain names ∧ "/".intercalate names = String.ofList s by
    simpa using h path.toList
  intro s
  induction s with
  | nil => exact ⟨[""], by simp, plain_singleton.2 (by simp), by simp⟩
  | cons c s ih =>
      obtain ⟨names, hne, hplain, hjoin⟩ := ih
      obtain ⟨first, rest, rfl⟩ := List.exists_cons_of_ne_nil hne
      by_cases hc : c = '/'
      · refine ⟨"" :: first :: rest, by simp, plain_cons.2 ⟨by simp, hplain⟩, ?_⟩
        rw [String.intercalate_cons_cons, hjoin, hc, ← String.toList_inj]
        simp
      · obtain ⟨hfirst, hrest⟩ := plain_cons.1 hplain
        refine ⟨(String.singleton c ++ first) :: rest, by simp,
          plain_cons.2 ⟨?_, hrest⟩, ?_⟩
        · simpa using ⟨Ne.symm hc, hfirst⟩
        · rw [String.intercalate_cons_append, hjoin, ← String.toList_inj]
          simp

/-- **The pieces of a path are the plain names that it is put together from.** -/
theorem pieces_join (hne : names ≠ []) (hplain : Plain names) :
    pieces ("/".intercalate names) = names := by
  have hpieces : ∀ p ∈ names.map String.toList, '/' ∉ p := by
    intro p hp
    obtain ⟨n, hn, rfl⟩ := List.mem_map.1 hp
    exact hplain n hn
  have hchars : ("/".intercalate names).toList = ['/'].intercalate (names.map String.toList) :=
    String.toList_intercalate
  have hid : String.ofList ∘ String.toList = id := funext fun s => String.ofList_toList
  rw [pieces, hchars, Text.split_intercalate (by simpa using hne) hpieces, List.map_map, hid,
    List.map_id]

/-- A path is what its pieces are put together to; they are plain and there is one at least. -/
lemma join_pieces (path : String) :
    "/".intercalate (pieces path) = path ∧ Plain (pieces path) ∧ pieces path ≠ [] := by
  obtain ⟨names, hne, hplain, rfl⟩ := exists_join path
  rw [pieces_join hne hplain]
  exact ⟨rfl, hplain, hne⟩

lemma plain_pieces (path : String) : Plain (pieces path) := (join_pieces path).2.1

lemma pieces_ne_nil (path : String) : pieces path ≠ [] := (join_pieces path).2.2

/-- A path has a last piece. -/
lemma exists_pieces (path : String) : ∃ front last, pieces path = front ++ [last] :=
  (List.eq_nil_or_concat' (pieces path)).resolve_left (pieces_ne_nil path)

/-- A slash ends a piece. -/
lemma pieces_slash (a b : String) : pieces (a ++ "/" ++ b) = pieces a ++ pieces b := by
  obtain ⟨hajoin, haplain, hane⟩ := join_pieces a
  obtain ⟨hbjoin, hbplain, hbne⟩ := join_pieces b
  have hjoin : "/".intercalate (pieces a ++ pieces b) = a ++ "/" ++ b := by
    rw [String.intercalate_append_of_ne_nil hane hbne, hajoin, hbjoin]
  rw [← hjoin, pieces_join (List.append_ne_nil_of_left_ne_nil hane _)
    (plain_append.2 ⟨haplain, hbplain⟩)]

/-- A plain text in front of a path belongs to its first piece. -/
lemma pieces_append_left {a head : String} {tail : List String} (ha : '/' ∉ a.toList)
    (h : pieces path = head :: tail) : pieces (a ++ path) = (a ++ head) :: tail := by
  obtain ⟨hjoin, hplain, -⟩ := join_pieces path
  rw [h] at hjoin hplain
  obtain ⟨hhead, htail⟩ := plain_cons.1 hplain
  rw [← hjoin, ← String.intercalate_cons_append, pieces_join (List.cons_ne_nil _ _)]
  refine plain_cons.2 ⟨?_, htail⟩
  rw [String.toList_append, List.mem_append, not_or]
  exact ⟨ha, hhead⟩

/-- A plain text behind a path belongs to its last piece. -/
lemma pieces_append_right {b last : String} {front : List String} (hb : '/' ∉ b.toList)
    (h : pieces path = front ++ [last]) : pieces (path ++ b) = front ++ [last ++ b] := by
  obtain ⟨hjoin, hplain, -⟩ := join_pieces path
  rw [h] at hjoin hplain
  obtain ⟨hfront, hlast⟩ := plain_append.1 hplain
  rw [← hjoin, join_append, pieces_join (List.append_ne_nil_of_right_ne_nil _ (by simp))]
  refine plain_append.2 ⟨hfront, plain_singleton.2 ?_⟩
  rw [String.toList_append, List.mem_append, not_or]
  exact ⟨plain_singleton.1 hlast, hb⟩

/-! ## Steps -/

/-- Whether a piece leads anywhere. -/
def leads (piece : String) : Bool := piece != "" && piece != "."

/-- The pieces of a path that lead anywhere. -/
def steps (path : String) : List String := (pieces path).filter leads

lemma plain_steps (path : String) : Plain (steps path) := fun n hn =>
  plain_pieces path n (List.mem_of_mem_filter hn)

@[simp] lemma steps_empty : steps "" = [] := by decide

lemma steps_slash (a b : String) : steps (a ++ "/" ++ b) = steps a ++ steps b := by
  rw [steps, pieces_slash, List.filter_append]
  rfl

/-- A path with a slash at its end. -/
lemma exists_slash (h : path.toList.getLast? = some '/') : ∃ front, path = front ++ "/" := by
  obtain ⟨s, hs⟩ := List.getLast?_eq_some_iff.1 h
  refine ⟨String.ofList s, ?_⟩
  rw [← String.toList_inj, hs]
  simp

/-- **What lies within a path has steps of its own** behind those of the path. -/
theorem steps_within (path name : String) :
    steps (within path name) = steps path ++ steps name := by
  rw [within]
  split
  · rename_i h
    rcases (Bool.or_eq_true _ _).mp h with h | h
    · rw [String.isEmpty_iff.1 h, String.empty_append, steps_empty, List.nil_append]
    · obtain ⟨front, rfl⟩ := exists_slash (by simpa using h)
      have hfront : steps (front ++ "/") = steps front := by
        rw [← String.append_empty (s := front ++ "/"), steps_slash, steps_empty, List.append_nil]
      rw [steps_slash, hfront]
  · exact steps_slash path name

/-! ## Void pieces -/

lemma leads_eq_false {piece : String} : leads piece = false ↔ piece = "" ∨ piece = "." := by
  simp [leads, or_iff_not_imp_left]

/-- Void pieces are taken away from the end, one by one. -/
lemma trim_concat (front : List String) (last : String) :
    trim (front ++ [last])
      = if isVoid (last, front.length) then trim front else front ++ [last] := by
  rw [trim, List.zipIdx_append, List.reverse_append, List.zipIdx_singleton, List.reverse_singleton,
    List.singleton_append, List.dropWhile_cons, Nat.zero_add]
  split
  · rfl
  · rw [List.map_cons, List.reverse_cons, List.map_reverse, List.reverse_reverse,
      List.zipIdx_map_fst]

lemma leads_of_isVoid {piece : String} {index : Nat} (h : isVoid (piece, index) = true) :
    leads piece = false := by
  simp only [isVoid, Bool.or_eq_true, String.isEmpty_iff, Bool.and_eq_true, beq_iff_eq] at h
  exact leads_eq_false.2 (h.imp id And.left)

lemma filter_trim (ps : List String) : (trim ps).filter leads = ps.filter leads := by
  induction ps using List.reverseRecOn with
  | nil => rfl
  | append_singleton front last ih =>
      rw [trim_concat]
      split
      · rename_i hvoid
        rw [ih, List.filter_append, List.filter_cons_of_neg (by simp [leads_of_isVoid hvoid]),
          List.filter_nil, List.append_nil]
      · rfl

lemma trim_isPrefix (ps : List String) : trim ps <+: ps := by
  induction ps using List.reverseRecOn with
  | nil => exact List.prefix_refl _
  | append_singleton front last ih =>
      rw [trim_concat]
      split
      · exact ih.trans (List.prefix_append _ _)
      · exact List.prefix_refl _

/-- What is left ends with a piece that leads somewhere, or is a single dot. -/
lemma trim_eq_concat {ps front : List String} {last : String} (h : trim ps = front ++ [last]) :
    leads last = true ∨ last = "." ∧ front = [] := by
  induction ps using List.reverseRecOn with
  | nil => simp [trim] at h
  | append_singleton before piece ih =>
      rw [trim_concat] at h
      split at h
      · exact ih h
      · rename_i hvoid
        obtain ⟨rfl, hpiece⟩ := List.append_inj' h rfl
        obtain rfl := List.singleton_inj.1 hpiece
        rw [← Bool.not_eq_false, leads_eq_false]
        simp only [isVoid, Bool.or_eq_true, String.isEmpty_iff, Bool.and_eq_true, beq_iff_eq,
          bne_iff_ne, not_or, not_and, not_not] at hvoid
        by_cases hdot : piece = "."
        · exact .inr ⟨hdot, List.length_eq_zero_iff.1 (hvoid.2 hdot)⟩
        · exact .inl (not_or.2 ⟨hvoid.1, hdot⟩)

/-- The steps of a path, by what is left of its pieces. -/
lemma steps_eq (path : String) :
    (∃ front last, trim (pieces path) = front ++ [last] ∧ leads last = true
        ∧ steps path = front.filter leads ++ [last])
      ∨ (trim (pieces path) = [] ∨ trim (pieces path) = ["."]) ∧ steps path = [] := by
  rw [steps, ← filter_trim]
  rcases List.eq_nil_or_concat' (trim (pieces path)) with hnil | ⟨front, last, hconcat⟩
  · exact .inr ⟨.inl hnil, by rw [hnil, List.filter_nil]⟩
  · rcases trim_eq_concat hconcat with hleads | ⟨rfl, rfl⟩
    · refine .inl ⟨front, last, hconcat, hleads, ?_⟩
      rw [hconcat, List.filter_append, List.filter_cons_of_pos hleads, List.filter_nil]
    · exact .inr ⟨.inr hconcat, by rw [hconcat]; decide⟩

/-- **The name of a path is its last step**, unless that leads up. -/
theorem name?_eq (path : String) : name? path = (steps path).getLast?.filter (· != "..") := by
  rw [name?]
  rcases steps_eq path with ⟨front, last, htrim, hleads, hsteps⟩ | ⟨htrim, hsteps⟩
  · have hdot : last ≠ "." := fun h => by rw [h] at hleads; exact absurd hleads (by decide)
    rw [htrim, hsteps, List.getLast?_concat, List.getLast?_concat]
    simp [Option.filter, hdot]
  · rw [hsteps]
    rcases htrim with htrim | htrim <;> rw [htrim] <;> rfl

/-- **What a path lies in has its steps but the last.** -/
theorem steps_parent (path : String) : steps (parent path) = (steps path).dropLast := by
  -- what is put together again are pieces of the path
  have hjoin : ∀ ps : List String, ps <+: pieces path →
      steps (if ps.isEmpty then (if isRooted path then "/" else "") else "/".intercalate ps)
        = ps.filter leads := by
    intro ps hfront
    cases ps with
    | nil => rw [List.isEmpty_nil, if_pos rfl]; split <;> decide
    | cons first rest =>
        rw [List.isEmpty_cons, if_neg Bool.false_ne_true, steps, pieces_join (List.cons_ne_nil _ _)]
        exact fun n hn => plain_pieces path n (hfront.subset hn)
  have hfront : trim (trim (pieces path)).dropLast <+: pieces path :=
    (trim_isPrefix _).trans ((List.dropLast_prefix _).trans (trim_isPrefix _))
  rw [parent, hjoin _ hfront, filter_trim]
  rcases steps_eq path with ⟨front, last, htrim, -, hsteps⟩ | ⟨htrim, hsteps⟩
  · rw [htrim, hsteps, List.dropLast_concat, List.dropLast_concat]
  · rw [hsteps]
    rcases htrim with htrim | htrim <;> rw [htrim] <;> rfl

/-- The steps that stay when a path gets another name. -/
def frontSteps (path : String) : List String :=
  if (name? path).isSome then (steps path).dropLast else steps path

lemma steps_withName (path name : String) :
    steps (withName path name) = frontSteps path ++ steps name := by
  rw [withName, steps_within, frontSteps]
  split
  · rw [steps_parent]
  · rfl

/-- The front of a path with a name, and the name, are its steps. -/
lemma steps_of_name? {n : String} (h : name? path = some n) :
    steps path = frontSteps path ++ [n] ∧ n ≠ ".." := by
  rw [frontSteps, h, Option.isSome_some, if_pos rfl]
  rw [name?_eq, Option.filter_eq_some_iff, List.getLast?_eq_some_iff] at h
  obtain ⟨⟨front, hsteps⟩, hup⟩ := h
  rw [hsteps, List.dropLast_concat]
  exact ⟨rfl, by simpa using hup⟩

/-- A path without a name has no steps or leads up in the end. -/
lemma steps_of_name?_eq_none (h : name? path = none) :
    frontSteps path = steps path ∧ ∀ last ∈ (steps path).getLast?, last = ".." := by
  rw [frontSteps, h, Option.isSome_none, if_neg Bool.false_ne_true]
  rw [name?_eq, Option.filter_eq_none_iff] at h
  exact ⟨rfl, fun last hlast => by simpa using h last hlast⟩

/-! ## Names of output files -/

/-- A name is its own stem, or has an extension behind its last dot. -/
lemma splitName_cases (n : String) :
    (splitName n).1 = n ∨ ∃ extension : String, '.' ∉ extension.toList
      ∧ (splitName n).1 ≠ "" ∧ n = (splitName n).1 ++ "." ++ extension := by
  have hsplit := List.takeWhile_append_dropWhile (p := (· != '.')) (l := n.toList.reverse)
  have hhead := List.head?_dropWhile_not (· != '.') n.toList.reverse
  rw [splitName]
  cases hdrop : n.toList.reverse.dropWhile (· != '.') with
  | nil => exact .inl rfl
  | cons dot stem =>
      cases stem with
      | nil => exact .inl rfl
      | cons c stem =>
          rw [hdrop] at hsplit hhead
          obtain rfl : dot = '.' := by simpa using hhead
          refine .inr ⟨String.ofList (n.toList.reverse.takeWhile (· != '.')).reverse, ?_, ?_, ?_⟩
          · intro hmem
            rw [String.toList_ofList, List.mem_reverse] at hmem
            simpa using List.mem_takeWhile_imp hmem
          · simp
          · rw [← String.toList_inj, ← List.reverse_inj]
            simpa using hsplit.symm

/-- The stem of a name and the name are empty together. -/
lemma stem_ne_empty {n : String} (h : n ≠ "") : (splitName n).1 ≠ "" := by
  rcases splitName_cases n with hstem | ⟨-, -, hstem, -⟩
  · rwa [hstem]
  · exact hstem

/-- The name of the output file for an input file. -/
def outputName (input suffix : String) : String := stem input ++ "." ++ suffix ++ ".rs"

lemma outputPath_none (input suffix : String) :
    outputPath input none suffix = withName input (outputName input suffix) := by
  rw [outputPath, Option.getD_none, outputName]
  rfl

/-- **A name is never what its stem, a suffix and the extension make up.**  If it has an extension,
that has no dot in it. -/
lemma ne_outputName (n suffix : String) : n ≠ (splitName n).1 ++ "." ++ suffix ++ ".rs" := by
  intro h
  rcases splitName_cases n with hstem | ⟨extension, hdot, -, hname⟩
  · have hlength := congrArg (fun s => s.toList.length) h
    simp [hstem] at hlength
  · have hextension : extension = suffix ++ ".rs" := by
      refine (String.append_right_inj ((splitName n).1 ++ ".")).1 (hname.symm.trans ?_)
      rw [← String.append_assoc]
      exact h
    exact hdot (by simp [hextension])

/-- A piece with a character that is no dot leads somewhere. -/
lemma leads_of_mem {piece : String} {c : Char} (hmem : c ∈ piece.toList) (hdot : c ≠ '.') :
    leads piece = true := by
  rw [← Bool.not_eq_false, leads_eq_false]
  rintro (rfl | rfl)
  · simp at hmem
  · exact hdot (by simpa using hmem)

/-- The name of an output file ends with the extension. -/
lemma outputName_ne (input suffix : String) :
    outputName input suffix ≠ "" ∧ outputName input suffix ≠ ".." := by
  have hmem : 'r' ∈ (outputName input suffix).toList := by simp [outputName]
  constructor <;> intro h <;> rw [h] at hmem <;> exact absurd hmem (by decide)

/-- A suffix without slashes leaves the name of the output file one step. -/
lemma steps_outputName {input suffix : String} (hstem : '/' ∉ (stem input).toList)
    (hsuffix : '/' ∉ suffix.toList) :
    steps (outputName input suffix) = [outputName input suffix] := by
  have hplain : Plain [outputName input suffix] := plain_singleton.2 (by
    simp [outputName, hstem, hsuffix])
  have hpieces : pieces (outputName input suffix) = [outputName input suffix] := by
    simpa using pieces_join (List.cons_ne_nil _ _) hplain
  rw [steps, hpieces, List.filter_cons_of_pos, List.filter_nil]
  exact leads_of_mem (c := 'r') (by simp [outputName]) (by decide)

/-- What ends with the extension leads somewhere. -/
lemma steps_extension_ne_nil (path : String) : steps (path ++ ".rs") ≠ [] := by
  obtain ⟨front, last, hpieces⟩ := exists_pieces path
  rw [steps, pieces_append_right (by decide) hpieces, List.filter_append,
    List.filter_cons_of_pos (leads_of_mem (c := 'r') (by simp) (by decide))]
  exact List.append_ne_nil_of_right_ne_nil _ (List.cons_ne_nil _ _)

/-- What starts with a stem and a dot leads somewhere. -/
lemma steps_stem_ne_nil {stem : String} (hne : stem ≠ "") (hplain : '/' ∉ stem.toList)
    (path : String) : steps (stem ++ "." ++ path) ≠ [] := by
  obtain ⟨head, tail, hpieces⟩ := List.exists_cons_of_ne_nil (pieces_ne_nil path)
  have hleads : leads (stem ++ "." ++ head) = true := by
    rw [← Bool.not_eq_false, leads_eq_false, ← String.toList_inj, ← String.toList_inj]
    rintro (h | h)
    · simpa using congrArg List.length h
    · have hlength : (stem ++ "." ++ head).toList.length = 1 := by rw [h]; rfl
      have hstem : stem.toList.length ≠ 0 := by simpa using hne
      simp only [String.toList_append, List.length_append] at hlength
      have hdot : (".".toList : List Char).length = 1 := rfl
      omega
  rw [steps, pieces_append_left (by simp [hplain]) hpieces, List.filter_cons_of_pos hleads]
  exact List.cons_ne_nil _ _

/-- The stem of a path is plain. -/
lemma slash_notMem_stem (path : String) : '/' ∉ (stem path).toList := by
  rw [stem]
  cases hname : name? path with
  | none => simp
  | some n =>
      have hplain : '/' ∉ n.toList := plain_steps path n (by simp [(steps_of_name? hname).1])
      rw [Option.map_some, Option.getD_some]
      intro hslash
      rcases splitName_cases n with heq | ⟨extension, -, -, heq⟩
      · exact hplain (heq ▸ hslash)
      · rw [heq] at hplain
        exact hplain (by simp [hslash])

/-- The stem of a path with a name is that of the name, and not empty. -/
lemma stem_of_name? {n : String} (h : name? path = some n) :
    stem path = (splitName n).1 ∧ stem path ≠ "" := by
  have hne : n ≠ "" := by
    rintro rfl
    have hmem : "" ∈ steps path := by simp [(steps_of_name? h).1]
    exact absurd (List.mem_filter.1 hmem).2 (by decide)
  have hstem : stem path = (splitName n).1 := by rw [stem, h]; rfl
  exact ⟨hstem, hstem ▸ stem_ne_empty hne⟩

/-- **The name of an output file never makes up the one step that the input file's name is.** -/
lemma steps_outputName_ne {input n : String} (h : name? input = some n) (suffix : String) :
    steps (outputName input suffix) ≠ [n] := by
  obtain ⟨hstem, hne⟩ := stem_of_name? h
  have hplain := slash_notMem_stem input
  by_cases hsuffix : '/' ∈ suffix.toList
  · -- on both sides of the slash there is a step
    obtain ⟨a, b, hslash⟩ := List.append_of_mem hsuffix
    have hname : outputName input suffix
        = (stem input ++ "." ++ String.ofList a) ++ "/" ++ (String.ofList b ++ ".rs") := by
      rw [outputName, ← String.toList_inj]
      simp [hslash]
    intro hsteps
    rw [hname, steps_slash] at hsteps
    have hlength := congrArg List.length hsteps
    have hfront := List.length_pos_iff.2 (steps_stem_ne_nil hne hplain (String.ofList a))
    have hback := List.length_pos_iff.2 (steps_extension_ne_nil (String.ofList b))
    rw [List.length_append, List.length_singleton] at hlength
    omega
  · rw [steps_outputName hplain hsuffix, Ne, List.singleton_inj]
    intro hname
    rw [outputName, hstem] at hname
    exact ne_outputName n suffix hname.symm

/-- **The output path is not the input path**, whatever the input file is called and whatever the
suffix is. -/
theorem steps_outputPath_ne (input suffix : String) :
    steps (outputPath input none suffix) ≠ steps input := by
  rw [outputPath_none, steps_withName]
  cases hname : name? input with
  | none =>
      rw [(steps_of_name?_eq_none hname).1, Ne, List.append_right_eq_self]
      exact steps_extension_ne_nil _
  | some n =>
      rw [(steps_of_name? hname).1, Ne, List.append_right_inj]
      exact steps_outputName_ne hname suffix

/-! ## Roots -/

lemma isRooted_append {b : String} (hne : path ≠ "") : isRooted (path ++ b) = isRooted path := by
  have hlist : path.toList ≠ [] := by simpa using hne
  obtain ⟨c, rest, hpath⟩ := List.exists_cons_of_ne_nil hlist
  rw [isRooted, isRooted, String.toList_append, hpath]
  rfl

lemma isRooted_within (hname : isRooted name = false) :
    isRooted (within path name) = isRooted path := by
  by_cases hne : path = ""
  · subst hne
    change isRooted ("" ++ name) = false
    rw [String.empty_append, hname]
  · rw [within]
    split
    · exact isRooted_append hne
    · rw [String.append_assoc, isRooted_append hne]

lemma isRooted_eq_false (h : '/' ∉ path.toList) : isRooted path = false := by
  rw [← Bool.not_eq_true, isRooted, beq_iff_eq]
  exact fun hhead => h (List.mem_of_head? hhead)

/-- A path starts at the root if its first piece is empty and not its only one. -/
lemma isRooted_join {first : String} (rest : List String) (h : '/' ∉ first.toList) :
    isRooted ("/".intercalate (first :: rest)) = true ↔ first = "" ∧ rest ≠ [] := by
  cases rest with
  | nil => simp [String.intercalate_singleton, isRooted_eq_false h]
  | cons next rest =>
      rw [String.intercalate_cons_cons]
      by_cases hfirst : first = ""
      · subst hfirst
        refine iff_of_true ?_ ⟨rfl, List.cons_ne_nil _ _⟩
        rw [String.empty_append, isRooted_append (by decide)]
        rfl
      · rw [String.append_assoc, isRooted_append hfirst, isRooted_eq_false h]
        simp [hfirst]

/-- What a path lies in starts where the path starts. -/
lemma isRooted_parent (path : String) : isRooted (parent path) = isRooted path := by
  rw [parent]
  cases htrim : trim (trim (pieces path)).dropLast with
  | nil =>
      rw [List.isEmpty_nil, if_pos rfl]
      split
      · rename_i h
        rw [h]
        rfl
      · rename_i h
        rw [Bool.not_eq_true] at h
        rw [h]
        rfl
  | cons first rest =>
      -- the first piece of the path stays, and an empty one is not the last that does
      obtain ⟨more, hmore⟩ : first :: rest <+: pieces path := htrim ▸
        (trim_isPrefix _).trans ((List.dropLast_prefix _).trans (trim_isPrefix _))
      obtain ⟨hjoin, hplain, -⟩ := join_pieces path
      rw [← hmore, List.cons_append] at hjoin hplain
      have hfirst := (plain_cons.1 hplain).1
      rw [List.isEmpty_cons, if_neg Bool.false_ne_true, ← hjoin, Bool.eq_iff_iff,
        isRooted_join rest hfirst, isRooted_join (rest ++ more) hfirst]
      have hrest : first = "" → rest ≠ [] := by
        rintro rfl rfl
        have hlast : trim (trim (pieces path)).dropLast = [] ++ [""] := htrim
        rcases trim_eq_concat hlast with h | ⟨h, -⟩ <;> exact absurd h (by decide)
      exact and_congr_right fun hempty => iff_of_true (hrest hempty)
        (List.append_ne_nil_of_left_ne_nil (hrest hempty) _)

/-- The output file starts where the input file starts. -/
lemma isRooted_outputPath (input suffix : String) :
    isRooted (outputPath input none suffix) = isRooted input := by
  have hname : isRooted (outputName input suffix) = false := by
    have hne : stem input ++ "." ≠ "" := by simp
    have hne' : stem input ++ "." ++ suffix ≠ "" := by simp
    rw [outputName, isRooted_append hne', isRooted_append hne]
    exact isRooted_eq_false (by simp [slash_notMem_stem])
  rw [outputPath_none, withName, isRooted_within hname]
  split
  · exact isRooted_parent input
  · rfl

/-- A suffix without slashes changes the last step only. -/
lemma steps_outputPath {suffix : String} (input : String) (h : '/' ∉ suffix.toList) :
    steps (outputPath input none suffix) = frontSteps input ++ [outputName input suffix] := by
  rw [outputPath_none, steps_withName, steps_outputName (slash_notMem_stem input) h]

end FieldCopy.FilePath
