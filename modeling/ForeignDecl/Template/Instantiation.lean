import ForeignDecl.Document.Sink
import ForeignDecl.Registry
import ForeignDecl.Template.Spelling

/-!
# Template instantiations

A specialization that is only named, say behind a pointer, is never instantiated, and so nothing is
known about its layout. The remedy is a piece of C++ that includes the input and instantiates every
such specialization an extraction came across; extracting that piece gives their full records.
-/

set_option autoImplicit false

namespace ForeignDecl

/-- The specialization of a record that is to be instantiated: one never instantiated so far, and
not a partial one. -/
def TranslationUnit.openSpecialization? (u : TranslationUnit) (d : DeclId) : Option Specialization :=
  match (u.node d).record? with
  | some r =>
    (r.class?.bind (·.specialization?)).filter fun s => s.kind = .undeclared && !s.isPartial
  | none => none

namespace Registry

/-- The specializations to be instantiated, in the order in which they were registered. -/
def openSpecializations (r : Registry) (u : TranslationUnit) : List Specialization :=
  r.classes.toList.filterMap u.openSpecialization?

/-- The line that instantiates a specialization. -/
def instantiationText (u : TranslationUnit) (s : Specialization) : String :=
  "template class " ++ s.template ++ "<" ++ u.argsSpelling s.args ++ ">;\n"

/-- The line that includes the input, and one for every specialization. -/
def instantiations (r : Registry) (u : TranslationUnit) : String :=
  "#include \"" ++ u.file ++ "\"\n" ++
    String.join ((r.openSpecializations u).map (instantiationText u))

/-- Write the template instantiations, and tell how many there are. -/
def writeInstantiations (r : Registry) (u : TranslationUnit) : Emit Sink Nat := do
  Sink.put (r.instantiations u)
  return (r.openSpecializations u).length

end Registry

end ForeignDecl
