/-!
# Handles

Declarations and types of a translation unit refer to each other by number. A handle is an index
into the unit's table and nothing else: two unnamed records with the same body have two handles,
and that is all that tells them apart.
-/

set_option autoImplicit false

namespace ForeignDecl

/-- Identity of a declaration inside its translation unit. -/
structure DeclId where
  index : Nat
deriving DecidableEq, Repr, Inhabited

/-- Identity of a type inside its translation unit. -/
structure TypeId where
  index : Nat
deriving DecidableEq, Repr, Inhabited

end ForeignDecl
