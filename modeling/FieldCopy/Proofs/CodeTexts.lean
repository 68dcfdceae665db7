import Mathlib
import FieldCopy.Generation
import FieldCopy.Proofs.LineEnds

/-!
# Generated code as it stands in a file

What a generated function does is told by its statements, but what a file holds is text.  This
module says what text that is, by rules that do not mention the functions that write it.

**Lines.**  A text fills the lines between its line feeds, `Lines.Fill`.  What stands inside braces
is one level further in, `Lines.IsBlock`.

**Rules.**  `Expression.Reads`, `Statement.Fills` and `ResultType.Reads` have one rule for each form
of code.  A `FunctionText` is a function by the parts of its text, and `FunctionText.Shows` ties
these parts to the code that they stand for.

**Main statement.**  `codeText_eq`: a file holds the texts in front of its functions and the texts
of the functions, each once and in order, with an empty line between two of them.
-/

namespace FieldCopy

/-! ## Lines -/

namespace Lines

/-- `ls` are the lines of a text: what stands between its line feeds. -/
def Fill (s : String) (ls : List String) : Prop :=
  ls.map String.toList = (Text.withLineFeeds s.toList).splitOn '\n'

lemma fill_ofText (s : String) : Fill s (ofText s) := by
  have h := Text.splitOn_withLineFeeds [] s.toList List.not_mem_nil
  rw [List.reverse_nil, List.nil_append] at h
  rw [Fill, h, ofText, Text.lines, List.map_append, List.map_map]
  congr 1
  · exact List.map_id'' (fun _ => String.toList_ofList) _
  · split <;> rfl

lemma Fill.ne_nil {s : String} {ls : List String} (h : Fill s ls) : ls ≠ [] := by
  rintro rfl
  exact List.splitOn_ne_nil '\n' _ h.symm

/-- A text as it stands in a file. -/
def givenText (s : String) : String := String.ofList (Text.withLineFeeds s.toList)

lemma Fill.intercalate {s : String} {ls : List String} (h : Fill s ls) :
    "\n".intercalate ls = givenText s := by
  rw [← String.toList_inj, String.toList_intercalate, h, givenText, String.toList_ofList,
    String.toList_ofList]
  exact List.intercalate_splitOn '\n'

/-- `ls` are the lines of a text that end: the last line of the text does not if it is empty. -/
def FillClosed (s : String) (ls : List String) : Prop :=
  Fill s (ls ++ [""]) ∨ Fill s ls ∧ ls.getLast? ≠ some ""

/-- `inner` is a line inside braces.  An empty line stays empty. -/
def OneIn (l inner : String) : Prop := inner = if l = "" then "" else "    " ++ l

/-- `ls` are a head with a brace behind it, the content one level in, and the other brace. -/
def IsBlock (head : String) (content ls : List String) : Prop :=
  ∃ front inner, Fill (head ++ " \x7b") front ∧ List.Forall₂ OneIn content inner
    ∧ ls = front ++ inner ++ ["\x7d"]

lemma fillClosed_lines (s : String) :
    FillClosed s ((Text.lines s.toList).map String.ofList) := by
  have h := fill_ofText s
  rw [ofText] at h
  split at h
  · exact .inl h
  · rename_i hopen
    rw [List.append_nil] at h
    refine .inr ⟨h, fun hlast => ?_⟩
    rcases List.eq_nil_or_concat s.toList with hnil | ⟨init, c, hs⟩
    · simp [hnil] at hopen
    · have hc : '\n' ∉ [c] := fun hc => hopen (by simp [hs, ← List.mem_singleton.1 hc])
      obtain ⟨line, hline⟩ := Text.getLast?_splitOn_withLineFeeds hc init
      rw [← List.concat_eq_append, ← hs, ← h, List.getLast?_map, hlast] at hline
      simp at hline

lemma forall₂_indent (ls : List String) : List.Forall₂ OneIn ls (indent ls) := by
  rw [indent, List.forall₂_map_right_iff, List.forall₂_same]
  intro l _
  by_cases h : l = ""
  · simp [OneIn, indentLine, h]
  · simp [OneIn, indentLine, h]

lemma isBlock_block (head : String) (content : List String) :
    IsBlock head content (block head content) :=
  ⟨_, _, fill_ofText _, forall₂_indent _, rfl⟩

lemma IsBlock.ne_nil {head : String} {content ls : List String} (h : IsBlock head content ls) :
    ls ≠ [] := by
  obtain ⟨front, inner, -, -, rfl⟩ := h
  simp

end Lines

/-! ## Expressions -/

namespace Expression

/-- How an expression reads. -/
inductive Reads : Expression → String → Prop where
  | verbatim (t : String) : Reads (.verbatim t) t
  | member (owner path : String) : Reads (.member owner path) (owner ++ "." ++ path)
  | borrow {e : Expression} {t : String} : Reads e t → Reads (.reference false e) ("&" ++ t)
  | borrowMutable {e : Expression} {t : String} :
      Reads e t → Reads (.reference true e) ("&mut " ++ t)
  | dereference {e : Expression} {t : String} : Reads e t → Reads (.dereference e) ("*" ++ t)
  | call {function : String} {arguments : List Expression} {ts : List String} :
      List.Forall₂ Reads arguments ts →
      Reads (.call function arguments) (function ++ "(" ++ ", ".intercalate ts ++ ")")
  | methodCall {e : Expression} {t method : String} {arguments : List Expression}
      {ts : List String} : Reads e t → List.Forall₂ Reads arguments ts →
      Reads (.methodCall e method arguments)
        (t ++ "." ++ method ++ "(" ++ ", ".intercalate ts ++ ")")
  | cast {e : Expression} {t : String} (type : String) :
      Reads e t → Reads (.cast e type) (t ++ " as " ++ type)
  /-- A failure leaves the function where a question mark stands. -/
  | propagate {e : Expression} {t : String} : Reads e t → Reads (.propagate e) (t ++ "?")

lemma argumentsText_eq : ∀ arguments : List Expression,
    argumentsText arguments = ", ".intercalate (arguments.map text)
  | [] => rfl
  | [e] => by rw [argumentsText, List.map_singleton, String.intercalate_singleton]
  | e :: d :: rest => by
      rw [argumentsText, argumentsText_eq (d :: rest), List.map_cons, List.map_cons, List.map_cons,
        String.intercalate_cons_cons]
      exact List.cons_ne_nil d rest

mutual

/-- The text of an expression is how it reads. -/
lemma reads_text : ∀ e : Expression, Reads e e.text
  | .verbatim t => .verbatim t
  | .member owner path => .member owner path
  | .reference false e => .borrow (reads_text e)
  | .reference true e => .borrowMutable (reads_text e)
  | .dereference e => .dereference (reads_text e)
  | .call function arguments => by
      rw [text, argumentsText_eq]
      exact .call (reads_texts arguments)
  | .methodCall e method arguments => by
      rw [text, argumentsText_eq]
      exact .methodCall (reads_text e) (reads_texts arguments)
  | .cast e type => .cast type (reads_text e)
  | .propagate e => .propagate (reads_text e)

lemma reads_texts : ∀ es : List Expression, List.Forall₂ Reads es (es.map text)
  | [] => .nil
  | e :: es => .cons (reads_text e) (reads_texts es)

end

mutual

lemma Reads.eq_text : ∀ {e : Expression} {t : String}, Reads e t → t = e.text
  | .verbatim _, _, h => by cases h; rfl
  | .member _ _, _, h => by cases h; rfl
  | .reference _ _, _, h => by
      cases h with
      | borrow he | borrowMutable he => rw [Reads.eq_text he]; rfl
  | .dereference _, _, h => by
      cases h with
      | dereference he => rw [Reads.eq_text he]; rfl
  | .call _ _, _, h => by
      cases h with
      | call hes => rw [text, argumentsText_eq, Reads.eq_texts hes]
  | .methodCall _ _ _, _, h => by
      cases h with
      | methodCall he hes => rw [text, argumentsText_eq, Reads.eq_text he, Reads.eq_texts hes]
  | .cast _ _, _, h => by
      cases h with
      | cast _ he => rw [Reads.eq_text he]; rfl
  | .propagate _, _, h => by
      cases h with
      | propagate he => rw [Reads.eq_text he]; rfl

lemma Reads.eq_texts : ∀ {es : List Expression} {ts : List String},
    List.Forall₂ Reads es ts → ts = es.map text
  | [], _, .nil => rfl
  | _ :: _, _ :: _, .cons h hs => by rw [Reads.eq_text h, Reads.eq_texts hs, List.map_cons]

end

/-- An expression reads in one way. -/
lemma reads_iff {e : Expression} {t : String} : e.Reads t ↔ t = e.text :=
  ⟨Reads.eq_text, fun h => h ▸ reads_text e⟩

end Expression

/-! ## Statements -/

namespace Statement

/-- Which lines a statement fills. -/
inductive Fills : Statement → List String → Prop where
  | declare {name t : String} {e : Expression} {ls : List String} :
      e.Reads t → Lines.Fill ("let " ++ name ++ " = " ++ t ++ ";") ls →
      Fills (.declare false name e) ls
  | declareMutable {name t : String} {e : Expression} {ls : List String} :
      e.Reads t → Lines.Fill ("let mut " ++ name ++ " = " ++ t ++ ";") ls →
      Fills (.declare true name e) ls
  | assign {target e : Expression} {s t : String} {ls : List String} :
      target.Reads s → e.Reads t → Lines.Fill (s ++ " = " ++ t ++ ";") ls →
      Fills (.assign target e) ls
  | run {e : Expression} {t : String} {ls : List String} :
      e.Reads t → Lines.Fill (t ++ ";") ls → Fills (.run e) ls
  | comment {t : String} {ls : List String} :
      Lines.Fill ("// " ++ t) ls → Fills (.comment t) ls
  | loop {item t : String} {items : Expression} {body : List Statement}
      {parts : List (List String)} {ls : List String} :
      items.Reads t → List.Forall₂ Fills body parts →
      Lines.IsBlock ("for " ++ item ++ " in " ++ t) parts.flatten ls →
      Fills (.loop item items body) ls
  | give {e : Expression} {t : String} {ls : List String} :
      e.Reads t → Lines.Fill t ls → Fills (.give e) ls

lemma linesAll_eq : ∀ ss : List Statement, linesAll ss = (ss.map lines).flatten
  | [] => rfl
  | s :: ss => by rw [linesAll, linesAll_eq ss, List.map_cons, List.flatten_cons]

mutual

/-- A statement fills its lines. -/
lemma fills_lines : ∀ s : Statement, Fills s s.lines
  | .declare false _ e => .declare e.reads_text (Lines.fill_ofText _)
  | .declare true _ e => .declareMutable e.reads_text (Lines.fill_ofText _)
  | .assign target e => .assign target.reads_text e.reads_text (Lines.fill_ofText _)
  | .run e => .run e.reads_text (Lines.fill_ofText _)
  | .comment _ => .comment (Lines.fill_ofText _)
  | .loop _ items body => by
      rw [lines, linesAll_eq]
      exact .loop items.reads_text (fills_linesAll body) (Lines.isBlock_block _ _)
  | .give e => .give e.reads_text (Lines.fill_ofText _)

lemma fills_linesAll : ∀ ss : List Statement, List.Forall₂ Fills ss (ss.map lines)
  | [] => .nil
  | s :: ss => .cons (fills_lines s) (fills_linesAll ss)

end

end Statement

/-! ## Functions -/

/-- How the type of what a function gives reads, with the arrow in front. -/
inductive ResultType.Reads : ResultType → String → Prop where
  | nothing : Reads ⟨none, none⟩ ""
  | value (v : String) : Reads ⟨some v, none⟩ (" -> " ++ v)
  | failure (e : String) : Reads ⟨none, some e⟩ (" -> Result<(), " ++ e ++ ">")
  | either (v e : String) : Reads ⟨some v, some e⟩ (" -> Result<" ++ v ++ ", " ++ e ++ ">")

/-- How a receiver reads among the parameters. -/
inductive SelfForm.Reads : SelfForm → String → Prop where
  | value : Reads value "self"
  | reference : Reads reference "&self"
  | mutableReference : Reads mutableReference "&mut self"

lemma ResultType.reads_text (r : ResultType) : r.Reads r.text := by
  obtain ⟨value, failure⟩ := r
  cases value <;> cases failure <;> constructor

lemma SelfForm.reads_text (form : SelfForm) : form.Reads form.text := by
  cases form <;> constructor

/-- A function as it stands in a file, by its parts. -/
structure FunctionText where
  /-- The lines of the documentation. -/
  docs : List String
  /-- The texts of the parameters, the receiver among them. -/
  parameters : List String
  /-- The text behind the parameters. -/
  returns : String
  /-- The lines between the braces of the function. -/
  body : List String
  /-- The lines of all of it. -/
  lines : List String

namespace FunctionText

/-- The text of a function in a file. -/
def text (t : FunctionText) : String := "\n".intercalate t.lines

/-- A line of documentation as a comment. -/
def commented (l : String) : String := if l = "" then "///" else "/// " ++ l

/-- The parts of a text are those of this function, and the text is made of them. -/
structure Shows (t : FunctionText) (f : FunctionCode) : Prop where
  docs : ∃ ls, Lines.FillClosed ("\n".intercalate f.docs) ls ∧ t.docs = ls.map commented
  parameters : ∃ receiver, List.Forall₂ SelfForm.Reads (f.head.toList.map MethodHead.form) receiver
    ∧ t.parameters = receiver ++ f.parameters.map fun p => p.1 ++ ": " ++ p.2
  returns : f.result.Reads t.returns
  body : ∃ parts, List.Forall₂ Statement.Fills f.body parts ∧ t.body = parts.flatten
  lines : ∃ function,
    Lines.IsBlock ("pub fn " ++ f.name ++ "(" ++ ", ".intercalate t.parameters ++ ")" ++ t.returns)
        t.body function
      ∧ match f.head with
        | none => t.lines = t.docs ++ function
        | some h => Lines.IsBlock ("impl " ++ h.owner) (t.docs ++ function) t.lines

/-- The text of a function of a file. -/
def ofCode (f : FunctionCode) : FunctionText where
  docs := FunctionCode.docLines f.docs
  parameters :=
    f.head.toList.map (fun h => h.form.text) ++ f.parameters.map fun p => p.1 ++ ": " ++ p.2
  returns := f.result.text
  body := Statement.linesAll f.body
  lines := f.lines

lemma docLines_eq (docs : List String) :
    FunctionCode.docLines docs
      = ((Text.lines ("\n".intercalate docs).toList).map String.ofList).map commented := by
  rw [FunctionCode.docLines, List.map_map]
  refine List.map_congr_left fun l _ => ?_
  cases l <;> simp [commented]

lemma shows_ofCode (f : FunctionCode) : (ofCode f).Shows f where
  docs := ⟨_, Lines.fillClosed_lines _, docLines_eq f.docs⟩
  parameters := ⟨f.head.toList.map fun h => h.form.text, by
    rw [List.forall₂_map_left_iff, List.forall₂_map_right_iff, List.forall₂_same]
    exact fun h _ => h.form.reads_text, rfl⟩
  returns := f.result.reads_text
  body := ⟨_, Statement.fills_linesAll f.body, Statement.linesAll_eq f.body⟩
  lines := by
    refine ⟨Lines.block f.headText (Statement.linesAll f.body), Lines.isBlock_block _ _, ?_⟩
    cases hhead : f.head with
    | none => simp only [ofCode, FunctionCode.lines, hhead]
    | some h =>
        simp only [ofCode, FunctionCode.lines, hhead]
        exact Lines.isBlock_block _ _

lemma Shows.lines_ne_nil {t : FunctionText} {f : FunctionCode} (h : t.Shows f) : t.lines ≠ [] := by
  obtain ⟨function, hfunction, hlines⟩ := h.lines
  cases hhead : f.head with
  | none =>
      rw [hhead] at hlines
      rw [hlines]
      exact List.append_ne_nil_of_right_ne_nil _ hfunction.ne_nil
  | some _ =>
      rw [hhead] at hlines
      exact hlines.ne_nil

end FunctionText

/-! ## Files -/

/-- Parts with an empty line between two of them. -/
lemma intercalate_blank : ∀ {parts : List (List String)}, (∀ p ∈ parts, p ≠ []) →
    "\n".intercalate (parts.intersperse [""]).flatten
      = "\n\n".intercalate (parts.map ("\n".intercalate ·))
  | [], _ => rfl
  | [p], _ => by simp [String.intercalate_singleton]
  | p :: q :: parts, h => by
      have hp : p ≠ [] := h p List.mem_cons_self
      have hq : q ≠ [] := h q (List.mem_cons_of_mem _ List.mem_cons_self)
      have ih := intercalate_blank fun r hr => h r (List.mem_cons_of_mem p hr)
      have hrest : ((q :: parts).intersperse [""]).flatten ≠ [] := by
        cases parts <;> simp [hq]
      have hbreaks : "\n\n" = "\n" ++ "\n" := rfl
      rw [List.map_cons] at ih
      rw [List.map_cons, List.map_cons, String.intercalate_cons_cons, ← ih,
        List.intersperse_cons_cons, List.flatten_cons, List.flatten_cons,
        String.intercalate_append_of_ne_nil hp (by simp),
        String.intercalate_append_of_ne_nil (by simp) hrest, String.intercalate_singleton, hbreaks]
      simp only [String.append_assoc, String.empty_append]

/-- **A file holds the texts in front and the texts of its functions**, with an empty line between
two of them. -/
theorem codeText_eq (front : List String) (fs : List FunctionCode) :
    codeText (front.map .text ++ fs.map .function)
      = "\n\n".intercalate
        (front.map Lines.givenText ++ (fs.map FunctionText.ofCode).map FunctionText.text) := by
  have hfront : (front.map CodeItem.text).map CodeItem.lines = front.map Lines.ofText := by
    rw [List.map_map]
    rfl
  have hfunctions : (fs.map CodeItem.function).map CodeItem.lines = fs.map FunctionCode.lines := by
    rw [List.map_map]
    rfl
  rw [codeText, List.map_append, hfront, hfunctions, intercalate_blank]
  · rw [List.map_append, List.map_map, List.map_map, List.map_map]
    congr 2
    exact List.map_congr_left fun s _ => (Lines.fill_ofText s).intercalate
  · intro p hp
    rcases List.mem_append.1 hp with hp | hp
    · obtain ⟨s, -, rfl⟩ := List.mem_map.1 hp
      exact (Lines.fill_ofText s).ne_nil
    · obtain ⟨f, -, rfl⟩ := List.mem_map.1 hp
      exact (FunctionText.shows_ofCode f).lines_ne_nil

namespace SourceUnit

/-- The texts in front of the functions: the header, if it is wanted, and the imports, if there are
any. -/
def frontTexts (unit : SourceUnit) (options : GenerationOptions) : List String :=
  (if options.header then [Generation.headerText] else [])
    ++ if unit.uses = [] then [] else ["\n".intercalate unit.uses]

/-- The text of a file that has these functions, each with its text. -/
def fileText (unit : SourceUnit) (options : GenerationOptions) (ts : List FunctionText) : String :=
  "\n\n".intercalate
    ((unit.frontTexts options).map Lines.givenText ++ ts.map FunctionText.text)

lemma front_eq (unit : SourceUnit) (options : GenerationOptions) :
    Generation.front unit options = (unit.frontTexts options).map .text := by
  rw [Generation.front, frontTexts]
  cases options.header <;> cases unit.uses <;> rfl

/-- A generated file holds what stands in front and the functions of the unit. -/
lemma generate_code (unit : SourceUnit) (options : GenerationOptions) :
    (unit.generate options).value.code
      = unit.fileText options (unit.functions.map FunctionText.ofCode) := by
  rw [fileText, ← codeText_eq, ← front_eq]
  rfl

end SourceUnit

end FieldCopy
