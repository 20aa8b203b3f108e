import ForeignDecl.Document.JsonForm
import ForeignDecl.Document.Outline

/-!
# Document formats

The formats a run can be asked for by name. The first of the registered ones is what a run uses
when it is asked for none. The outline form is not registered: it is there for programs that call
the library and want to see the stream of entries at a glance.
-/

set_option autoImplicit false

namespace ForeignDecl

/-- A form that documents can have. -/
inductive DocumentFormat where
  | json
  | outline
deriving DecidableEq, Repr, Inhabited

/-- A name that no registered format has. -/
structure UnknownFormat where
  name : String
deriving DecidableEq, Repr, Inhabited

namespace DocumentFormat

/-- The name of a format. -/
def name : DocumentFormat → String
  | json => "json"
  | outline => "outline"

/-- The formats that can be chosen by name. -/
def registered : List DocumentFormat := [json]

/-- The names that can be chosen, the default first. -/
def registeredNames : List String := registered.map name

/-- What is chosen when nothing is. -/
def preferred : DocumentFormat := json

/-- The registered format of a name. -/
def ofName? (n : String) : Except UnknownFormat DocumentFormat :=
  match registered.find? (·.name = n) with
  | some f => .ok f
  | none => .error ⟨n⟩

/-- The writer of a format. -/
def writer : DocumentFormat → DocumentWriter Page
  | json => JsonForm.writer
  | outline => Outline.writer

end DocumentFormat

/-- The text of the error about a name that is not registered. -/
def UnknownFormat.message (e : UnknownFormat) : String :=
  "Unknown driver: " ++ e.name ++ " (available: " ++
    ", ".intercalate DocumentFormat.registeredNames ++ ")"

end ForeignDecl
