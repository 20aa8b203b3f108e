import ForeignDecl.Unit.Handle
import ForeignDecl.Unit.Builtin

/-!
# Resolved types

A type as the front end resolved it, one layer deep: the parts are handles into the unit's type
table. Qualifiers are not modelled. Layers that only record how a type was spelled, `elaborated`
and `paren`, are called sugar.
-/

set_option autoImplicit false

namespace ForeignDecl

/-- An argument of a template specialization. -/
inductive TemplateArgument where
  | type (type : TypeId)
  /-- A non-type argument and its value. -/
  | integral (type : TypeId) (value : Int)
  /-- Anything else, as it was spelled. -/
  | other (spelling : String)
deriving DecidableEq, Repr, Inhabited

/-- One layer of a type. -/
inductive CType where
  | builtin (kind : Builtin)
  | pointer (target : TypeId)
  | lvalueReference (target : TypeId)
  | rvalueReference (target : TypeId)
  | array (element : TypeId) (count : Nat)
  /-- An array without a bound. -/
  | incompleteArray (element : TypeId)
  /-- An array whose bound is not a constant. -/
  | variableArray (element : TypeId)
  | record (decl : DeclId)
  | enum (decl : DeclId)
  /-- A use of the name of a typedef or a type alias. -/
  | typedef (decl : DeclId)
  /-- Spelled with a keyword or a qualifier, as in `struct S` or `N::S`. -/
  | elaborated (inner : TypeId)
  | paren (inner : TypeId)
  | function (result : TypeId) (params : List TypeId) (variadic : Bool)
  /-- A class template specialization, with its record when the front end made one. -/
  | specialization (template : String) (args : List TemplateArgument) (record? : Option DeclId)
  /-- A type parameter of a template. -/
  | templateParameter (name : String)
  | objcPointer (interface? : Option DeclId)
  /-- Anything else, as the front end spells it. -/
  | unsupported (spelling : String)
deriving DecidableEq, Repr, Inhabited

end ForeignDecl
