import FieldCopy.Source.Ty

/-!
# Items of a source file

What the program keeps of a source file: its structures with their fields, the names of its
enumerations, its functions and implementations, its traits, its modules and its imports.  All
other items are only told apart from text that is no item.
-/

namespace FieldCopy.Source

/-- What follows the path of an attribute. -/
inductive AttributeContent where
  | nothing
  /-- Tokens between delimiters. -/
  | tokens (delimiter : Delimiter) (inner : List (Token Place))
  /-- An expression behind an equals sign. -/
  | value (expression : List Piece)

/-- An attribute, at the place of its number sign. -/
structure Attribute where
  isInner : Bool
  path : Path
  content : AttributeContent
  place : Place

/-- A field of a structure. -/
structure Field where
  attributes : List Attribute
  name : String
  type : Ty

/-- A parameter of a function, with its name unless its pattern takes it apart. -/
structure Parameter where
  name : Option String
  type : Ty

/-- The head of a function. -/
structure Signature where
  name : String
  place : Place
  hasReceiver : Bool
  /-- The parameters except the receiver. -/
  parameters : List Parameter
  result : Option Ty

/-- A function of a trait. -/
structure TraitFunction where
  attributes : List Attribute
  signature : Signature

/-- A trait with its functions. -/
structure Trait where
  attributes : List Attribute
  name : String
  place : Place
  functions : List TraitFunction

/-- An implementation of a trait for a type, or of functions of the type's own. -/
structure Implementation where
  traitPath : Option Path
  subject : Ty
  functions : List Signature

/-- Where an item can be seen. -/
inductive Visibility where
  | inherited
  | everywhere
  /-- In the module with this path and all inside it. -/
  | within (path : Path)

namespace Visibility

def isInherited : Visibility → Bool
  | inherited => true
  | _ => false

end Visibility

/-- What a path of an import leads to. -/
inductive UseTree where
  | path (name : String) (tree : UseTree)
  | name (name : String)
  | rename (name newName : String)
  | glob
  | group (trees : List UseTree)

/-- An import. -/
structure Use where
  attributes : List Attribute
  visibility : Visibility
  rooted : Bool
  tree : UseTree

/-- An item of a source file. -/
inductive Item where
  /-- A structure with its named fields; other kinds of structures have none. -/
  | record (name : String) (fields : List Field)
  | enumeration (name : String)
  | function (signature : Signature)
  | implementation (body : Implementation)
  | trait (declaration : Trait)
  /-- A module whose items stand in the file. -/
  | module (name : String) (items : List Item)
  | use (declaration : Use)
  | other

instance : Inhabited Item := ⟨.other⟩

end FieldCopy.Source
