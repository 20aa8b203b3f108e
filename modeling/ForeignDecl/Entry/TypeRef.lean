/-!
# Types in entries

What a binding generator is told about the type of a field, a parameter or a variable. A `TypeRef`
is a tree: a pointer holds what it points to. Records and enumerations are not copied into it but
referred to by name and registry number, so the trees of a document stay finite however the
declarations refer to each other.
-/

set_option autoImplicit false

namespace ForeignDecl

/-- The description of a type. -/
inductive TypeRef where
  /-- A type known by its name alone: `:void`, a typedef, a template parameter. -/
  | simple (name : String)
  /-- A builtin type with its size and alignment in bits. -/
  | basic (name : String) (size align : Nat)
  | bitfield (base : TypeRef) (width : Nat)
  | pointer (target : TypeRef)
  | reference (target : TypeRef)
  /-- An array; a count of zero also stands for an array without a constant bound. -/
  | array (element : TypeRef) (count : Nat)
  | record (name : String) (id : Nat) (isUnion isClass : Bool)
  | enum (name : String) (id : Nat)
  /-- A specialization of a template; each argument is a type, some with a value of that type. -/
  | template (name : String) (id : Nat) (args : List (TypeRef × Option String))
deriving Inhabited

/-- Template arguments: types, and for some a value of that type. -/
abbrev TemplateArgs := List (TypeRef × Option String)

/-- The name a type is known by, if it has one. -/
def TypeRef.name? : TypeRef → Option String
  | simple name | basic name _ _ | record name _ _ _ | enum name _ | template name _ _ => some name
  | bitfield _ _ | pointer _ | reference _ | array _ _ => none

end ForeignDecl
