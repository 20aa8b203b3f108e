import ForeignDecl.Proofs.Document.Pieces
import ForeignDecl.Run

/-!
# Runs in pieces

A run gives its sinks few and large texts: all macro constants at once, an entry of the document at once,
all template instantiations at once. A program writes as it goes, line by line and member by member, and
stops at the first write that fails.

It is the same run (`run_eq_inPieces`): the bytes, the answer and the fault are the same, also for a sink that
runs full in the middle of a line, since a sink keeps what fits of the text that it cuts off.
-/

set_option autoImplicit false

namespace ForeignDecl

/-! ## Line by line -/

/-- Write the macro constants line by line, all definitions before the variables. A line is one write.
-/
def MacroTable.writeConstantsByLine (t : MacroTable) (withDefinitions : Bool) : Emit Sink Nat := do
  if withDefinitions then (t.constants.map (·.1.definitionText)).forM Sink.put
  (t.constants.map fun c => c.1.constantText c.2).forM Sink.put
  return t.constants.length

/-- To write the fragment is to write its lines, also onto a sink that runs full in one of them. -/
theorem MacroTable.writeConstants_eq (t : MacroTable) (withDefinitions : Bool) :
    t.writeConstants withDefinitions = t.writeConstantsByLine withDefinitions := by
  unfold writeConstants fragment writeConstantsByLine
  rw [String.join_append, Sink.put_append, Sink.put_join, Sink.put_join, bind_assoc]
  cases withDefinitions <;> rfl

/-- Write the template instantiations line by line. -/
def Registry.writeInstantiationsByLine (r : Registry) (u : TranslationUnit) : Emit Sink Nat := do
  Sink.put ("#include \"" ++ u.file ++ "\"\n")
  ((r.openSpecializations u).map (instantiationText u)).forM Sink.put
  return (r.openSpecializations u).length

/-- To write the instantiations is to write their lines. -/
theorem Registry.writeInstantiations_eq (r : Registry) (u : TranslationUnit) :
    r.writeInstantiations u = r.writeInstantiationsByLine u := by
  unfold writeInstantiations instantiations writeInstantiationsByLine
  rw [Sink.put_append, Sink.put_join, bind_assoc]

/-- The writer of a format, as far as objects can be written in pieces. An outline has no objects. -/
def DocumentFormat.piecesWriter : DocumentFormat → DocumentWriter Page
  | json => JsonForm.piecesWriter
  | outline => Outline.writer

theorem DocumentFormat.piecesWriter_eq (f : DocumentFormat) : f.piecesWriter = f.writer := by
  cases f with
  | json => exact JsonForm.piecesWriter_eq
  | outline => rfl

/-! ## The run -/

namespace Run

/-- Write the macro constants line by line, if there is a sink for them. -/
def macrosByLine (c : Config) (u : TranslationUnit) : Run Unit := fun o =>
  match o.macros? with
  | none => .ok () o
  | some sink =>
    match u.macros.writeConstantsByLine c.withMacroDefs sink with
    | .ok _ sink => .ok () { o with macros? := some sink }
    | .error e sink => .error (.extract (.write e)) { o with macros? := some sink }

/-- Write the document in pieces. -/
def documentInPieces (c : Config) (u : TranslationUnit) (t : Target) (f : DocumentFormat) :
    Run Extraction := fun o =>
  let ctx : Context Page :=
    { unit := u, oracle := Layout.words .checked u t, writer := f.piecesWriter }
  match Extract.document ctx c.namespaceName? { page := { sink := o.document } } with
  | .ok () s => .ok ⟨s.summary, s.registry⟩ { o with document := s.page.sink }
  | .error e s => .error (.extract e) { o with document := s.page.sink }

/-- Write the template instantiations line by line, if they are asked for. -/
def templatesByLine (c : Config) (u : TranslationUnit) (r : Registry) : Run Unit := fun o =>
  match o.templates? with
  | none => .ok () o
  | some sink =>
    if c.templateInstantiations then
      match r.writeInstantiationsByLine u sink with
      | .ok _ sink => .ok () { o with templates? := some sink }
      | .error e sink => .error (.extract (.write e)) { o with templates? := some sink }
    else .ok () o

variable {c : Config} {u : TranslationUnit}

theorem macros_eq : macros c u = macrosByLine c u := by
  unfold macros
  rw [MacroTable.writeConstants_eq]
  rfl

theorem document_eq (t : Target) (f : DocumentFormat) :
    document c u t f = documentInPieces c u t f := by
  unfold document
  rw [← DocumentFormat.piecesWriter_eq]
  rfl

theorem templates_eq (r : Registry) : templates c u r = templatesByLine c u r := by
  unfold templates
  rw [Registry.writeInstantiations_eq]
  rfl

end Run

/-- **A run is the same if all its texts are written in pieces.** -/
theorem run_eq_inPieces (c : Config) (host : String) (u : TranslationUnit) :
    run c host u = do
      Run.require c.check
      Run.require (Run.checkOutputs c (← get))
      let t ← Run.require (c.target host)
      let f ← Run.require c.format
      Run.macrosByLine c u
      let extraction ← Run.documentInPieces c u t f
      Run.templatesByLine c u extraction.registry
      return extraction := by
  unfold run
  simp only [Run.macros_eq, Run.document_eq, Run.templates_eq]

end ForeignDecl
