import FieldCopy.Instructions
import FieldCopy.Text.Labelled

/-!
# Directives

A directive is one thing that a line says about a conversion.  `Directive.apply` is its meaning:
what it changes in the instructions of the method.
-/

namespace FieldCopy

/-- What a line says. -/
inductive Directive where
  /-- The trait is one whose methods are conversions. -/
  | marksInterface
  | matching (rule : MatchRule)
  | style (style : Style)
  | receiver (parameter : String)
  | reversed
  | caseSensitive (on : Bool)
  | getters (on : Bool)
  | stringers (on : Bool)
  | casts (on : Bool)
  | skip (pattern : SkipPattern)
  /-- A source path for a field, the path being named first. -/
  | map (source field : String)
  /-- A source path for a field, the field being named first. -/
  | field (field source : String)
  | method (field method : String)
  | converter (field : String) (converter : Converter)
  | delegate (function : String)
  | literal (field text : String)
  | before (function : String)
  | after (function : String)

namespace Directive

/-- The label of a match rule in the log. -/
def ruleLabel : MatchRule → String
  | .name => "Name"
  | .tag => "Tag"
  | .none => "None"

/-- The label of a style in the log. -/
def styleLabel : Style → String
  | .result => "ReturnValue"
  | .argument => "ArgumentOut"

/-- The form of a pattern in the log. -/
def patternLabel : SkipPattern → String
  | .literal t => Labelled.call "Literal" [Labelled.text t]
  | .regex source _ _ =>
      let expression := Labelled.call "Regex" [Labelled.text source]
      Labelled.record "Regex"
        [("source", Labelled.text source), ("exact_case", expression), ("any_case", expression)]

/-- The form of a directive in the log. -/
def label : Directive → String
  | marksInterface => "StructCopyGen"
  | matching r => Labelled.call "Match" [ruleLabel r]
  | style s => Labelled.call "Style" [styleLabel s]
  | receiver p => Labelled.call "Recv" [Labelled.text p]
  | reversed => "Reverse"
  | caseSensitive on => Labelled.call "Case" [Labelled.bool on]
  | getters on => Labelled.call "Getter" [Labelled.bool on]
  | stringers on => Labelled.call "Stringer" [Labelled.bool on]
  | casts on => Labelled.call "Typecast" [Labelled.bool on]
  | skip p => Labelled.call "Skip" [patternLabel p]
  | map s f => Labelled.record "Map" [("src", Labelled.text s), ("dst", Labelled.text f)]
  | field f s => Labelled.record "MatchField" [("dst", Labelled.text f), ("src", Labelled.text s)]
  | method f m =>
      Labelled.record "MatchMethod" [("dst", Labelled.text f), ("method", Labelled.text m)]
  | converter f c =>
      Labelled.record "Conv" [("dst", Labelled.text f), ("converter", Labelled.text c.function),
        ("src", Labelled.option (c.source.map Labelled.text))]
  | delegate f => Labelled.call "StructConv" [Labelled.text f]
  | literal f t =>
      Labelled.record "Literal" [("dst", Labelled.text f), ("literal", Labelled.text t)]
  | before f => Labelled.call "PreProcess" [Labelled.text f]
  | after f => Labelled.call "PostProcess" [Labelled.text f]

/-- Instructions with one more override in one of their tables, and the field if it had one. -/
structure Overriding where
  instructions : Instructions
  replaced : Option String

/-- An override that is put into a table by `update`. -/
def overriding {α : Type} (table : Keyed α) (field : String) (value : α)
    (update : Keyed α → Instructions) : Overriding :=
  ⟨update (table.insert field value), if table.contains field then some field else none⟩

/-- The instructions after a directive that stands at a position. -/
def apply (position : Position) (i : Instructions) : Directive → Overriding
  | marksInterface => ⟨i, none⟩
  | matching r => ⟨{ i with matching := r }, none⟩
  | style s => ⟨{ i with style := s }, none⟩
  | receiver p => ⟨{ i with receiver := some p }, none⟩
  | reversed => ⟨{ i with reversed := true }, none⟩
  | caseSensitive on => ⟨{ i with caseSensitive := on }, none⟩
  | getters on => ⟨{ i with getters := on }, none⟩
  | stringers on => ⟨{ i with stringers := on }, none⟩
  | casts on => ⟨{ i with casts := on }, none⟩
  | skip p => ⟨{ i with skips := i.skips ++ [p] }, none⟩
  | map s f | field f s =>
      overriding i.fieldOverrides f s fun t => { i with fieldOverrides := t }
  | method f m => overriding i.methodOverrides f m fun t => { i with methodOverrides := t }
  | converter f c => overriding i.converters f c fun t => { i with converters := t }
  | literal f l => overriding i.literals f l fun t => { i with literals := t }
  | delegate f => ⟨{ i with delegate := some ⟨f, position⟩ }, none⟩
  | before f => ⟨{ i with before := some ⟨f, position⟩ }, none⟩
  | after f => ⟨{ i with after := some ⟨f, position⟩ }, none⟩

/-- Whether the directive makes the source the first argument. -/
def isReversed : Directive → Bool
  | reversed => true
  | _ => false

end Directive

end FieldCopy
