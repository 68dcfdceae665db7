import FieldCopy.Source.Item
import FieldCopy.Source.TypeName
import FieldCopy.Source.Literal
import FieldCopy.Text.Blank
import FieldCopy.Text.Layout

/-!
# Imports as text

`Use.text` writes an import the way a formatter would: attributes on lines of their own, a group
on one line if it fits and broken into indented lines otherwise.

**Small groups.**  Braces around a single tree are dropped, except around `self`; empty braces are
a word.  The layout still looks at the trees as written: what ends in braces ends its line.
-/

namespace FieldCopy.Source

open Layout (word)

/-! ## Attributes -/

namespace Attribute

/-- The expression that an attribute gives a name, if it is a string literal. -/
def stringOf? (a : Attribute) (name : String) : Option String :=
  match a.content with
  | .value [.token (.literal t _)] => if a.path.isName name then Literal.stringValue? t else none
  | _ => none

/-- Whether the last token is a comma. -/
def endsWithComma {α : Type} : List (Token α) → Bool
  | [] => false
  | [.mark c _ _] => c == ','
  | _ :: rest => endsWithComma rest

/-- The layout of the tokens in a group.  `behindWord` tells whether a word or a literal is in
front of them, and `shift` is the indentation of the line behind a comma at the end. -/
def layoutTokens {α : Type} (shift : Int) (behindWord : Bool) : List (Token α) → List Layout
  | [] => []
  | .word t _ :: rest | .literal t _ :: rest =>
      (if behindWord then [.space] else []) ++ word t :: layoutTokens shift true rest
  | .mark c _ _ :: rest =>
      if c = ',' && rest.isEmpty then [.gap 0 shift [',']]
      else
        (if c = '=' && behindWord then [word " "] else [])
          ++ .text [c]
          :: (if c = '=' then [word " "] else if c = ',' then [.space] else [])
          ++ layoutTokens shift false rest
  | .group .parenthesis inner _ :: rest =>
      let closing := if endsWithComma inner then [] else [.gap 0 (-4) []]
      word "("
        :: .group 4 false (.cut :: layoutTokens (-4) false inner ++ closing)
        :: word ")" :: layoutTokens shift false rest
  | .group .bracket inner _ :: rest =>
      word "[" :: layoutTokens 0 false inner ++ word "]" :: layoutTokens shift false rest
  | .group .brace inner _ :: rest =>
      word "\x7b" :: layoutTokens 0 false inner ++ word "\x7d" :: layoutTokens shift false rest

/-- The text of a path without arguments. -/
def pathText (p : Path) : String :=
  (if p.rooted then "::" else "") ++ "::".intercalate (p.segments.map Segment.name)

/-- The layout of what follows the path of an attribute. -/
def layoutContent : AttributeContent → List Layout
  | .nothing => []
  | .tokens d inner => layoutTokens 0 false [.group d inner .start]
  | .value e => [word " = ", word (TypeName.ofLexemes (pieceLexemes e))]

/-- The layout of an attribute as it is written between brackets. -/
def layoutBracketed (a : Attribute) : List Layout :=
  word "#" :: word "[" :: word (pathText a.path) :: layoutContent a.content
    ++ [word "]", .space]

/-- Whether every block comment that is closed in a text is opened in it and the other way round,
given the number of comments open. -/
def closesComments (depth : Nat) : List Char → Bool
  | '/' :: '*' :: rest => closesComments (depth + 1) rest
  | '*' :: '/' :: rest => depth != 0 && closesComments (depth - 1) rest
  | _ :: rest => closesComments depth rest
  | [] => depth == 0

/-- Whether a text can stand in a block comment. -/
def fitsBlock (s : List Char) : Bool := closesComments 0 s && s.getLast? != some '/'

/-- A text without spaces at its end. -/
def withoutSpacesAtEnd (s : List Char) : List Char := Text.dropRepeatedEnd [' '] s

/-- A text without spaces at the ends of all lines but the last. -/
def withoutSpacesAtLineEnds (s : List Char) : List Char :=
  match (Text.split ['\n'] s).reverse with
  | [] => []
  | last :: lines => ['\n'].intercalate ((last :: lines.map withoutSpacesAtEnd).reverse)

/-- The layout of the comment that a documentation text can be written as. -/
def layoutDocumentation? (doc : List Char) : Option (List Layout) :=
  if !doc.contains '\n' && doc.head? != some '/' then
    some [word "///", .text (withoutSpacesAtEnd doc), .lineBreak]
  else if fitsBlock doc && doc.head? != some '*' && doc.head? != some '/' then
    some [word "/**", .text (withoutSpacesAtLineEnds doc), word "*/", .lineBreak]
  else none

/-- The layout of the plain comment that a comment attribute can be written as. -/
def layoutComment? (comment : List Char) : Option (List Layout) :=
  if !comment.contains '\n' then
    some [word "//", .text (withoutSpacesAtEnd comment), .lineBreak]
  else if fitsBlock comment && comment.head? != some '*' && comment.head? != some '!' then
    some [word "/*", .text (withoutSpacesAtLineEnds comment), word "*/", .lineBreak]
  else none

/-- The layout of an attribute. -/
def layout (a : Attribute) : List Layout :=
  let asComment :=
    match a.stringOf? "doc" with
    | some d => layoutDocumentation? d.toList
    | none => (a.stringOf? "comment").bind fun c => layoutComment? c.toList
  asComment.getD a.layoutBracketed

end Attribute

/-! ## Imports -/

/-- The text of a visibility in front of an item. -/
def Visibility.text : Visibility → String
  | inherited => ""
  | everywhere => "pub "
  | within p =>
      let isScope := p.isName "crate" || p.isName "self" || p.isName "super"
      "pub(" ++ (if isScope then "" else "in ") ++ Attribute.pathText p ++ ") "

namespace UseTree

/-- Whether the tree is `self`, under any name. -/
def isSelf : UseTree → Bool
  | name n | rename n _ => n == "self"
  | _ => false

/-- Whether the tree is written with braces at its end. -/
def endsInBraces : UseTree → Bool
  | path _ t => t.endsInBraces
  | group _ => true
  | _ => false

/-- The layout of a group in braces, given the layout of what stands in it. -/
def layoutGroup (inner : List Layout) : List Layout :=
  [.group 4 false
    [word "\x7b", .cut, .group 0 true inner, .gap 0 (-4) [','], word "\x7d"]]

mutual

/-- The layout of what an import leads to. -/
def layout : UseTree → List Layout
  | path n t => word n :: word "::" :: t.layout
  | name n => [word n]
  | rename n m => [word n, word " as ", word m]
  | glob => [word "*"]
  | group [] => [word "\x7b\x7d"]
  | group [t] => if t.isSelf then layoutGroup t.layout else t.layout
  | group ts => layoutGroup (layoutAll ts)

/-- The layout of the trees of a group, with commas between them. -/
def layoutAll : List UseTree → List Layout
  | [] => []
  | [t] => t.layout
  | t :: rest =>
      t.layout ++ word "," :: (if t.endsInBraces then .lineBreak else .space) :: layoutAll rest

end

end UseTree

/-- The layout of an import. -/
def Use.layout (u : Use) : List Layout :=
  u.attributes.flatMap Attribute.layout
    ++ [word u.visibility.text, word "use "] ++ (if u.rooted then [word "::"] else [])
    ++ u.tree.layout ++ [word ";", .lineBreak]

/-- The text of an import. -/
def Use.text (u : Use) : String :=
  String.ofList (Text.trimEnd (Text.trimStart (Layout.write u.layout)))

end FieldCopy.Source
