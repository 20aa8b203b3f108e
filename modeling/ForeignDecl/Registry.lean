import ForeignDecl.OrderedSet
import ForeignDecl.Unit.Basic

/-!
# The registry

Numbers for scopes and records. An entity gets its number when it is first asked for, counting from
one; zero stands for the global scope, and for an entity that never got a number. All declarations
of an entity share its number, because the registry is kept by canonical declarations.

Numbers are positions in an ordered set by design, so that a registry with a gap, or with one number for two
entities, cannot be written down. A map from entities to numbers with a counter for the next one gives the
same numbers (`NumberTable.answers_keeps` in `Proofs.Registrations`).

Declarations in C++ are remembered a second time, in the order in which they were first registered
as such: that list is what template instantiations are made from.
-/

set_option autoImplicit false

namespace ForeignDecl

/-- The number of the global scope. -/
def globalScope : Nat := 0

/-- The entities that have a number. -/
structure Registry where
  /-- Canonical declarations; the one at position `i` has number `i + 1`. -/
  entities : OrderedSet DeclId := ∅
  /-- Canonical declarations that were registered as C++ declarations. -/
  classes : OrderedSet DeclId := ∅
deriving Inhabited

namespace Registry

/-- The number of a declaration, zero when it has none. -/
def number (r : Registry) (u : TranslationUnit) (d : DeclId) : Nat :=
  match r.entities.indexOf? (u.canonical d) with
  | some i => i + 1
  | none => globalScope

/-- The number of a declaration, which gets the next one when it has none. No declaration is the
global scope. -/
def register (r : Registry) (u : TranslationUnit) : Option DeclId → Nat × Registry
  | none => (globalScope, r)
  | some d =>
    let r := { r with entities := r.entities.insert (u.canonical d) }
    (r.number u d, r)

/-- Register a declaration and remember it as one of C++. -/
def registerClass (r : Registry) (u : TranslationUnit) : Option DeclId → Nat × Registry
  | none => (globalScope, r)
  | some d => { r with classes := r.classes.insert (u.canonical d) }.register u (some d)

/-- How many numbers were given out. -/
def size (r : Registry) : Nat := r.entities.size

/-- No number was given out. -/
def isEmpty (r : Registry) : Bool := r.entities.isEmpty

end Registry

end ForeignDecl
