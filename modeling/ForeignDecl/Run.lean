import ForeignDecl.Config.Basic
import ForeignDecl.Extract.Visit
import ForeignDecl.Layout.Words
import ForeignDecl.Macro.Fragment
import ForeignDecl.Template.Instantiation

/-!
# Runs

A run writes up to three texts about one translation unit, as a configuration asks for them: the
macro constants, then the document, then the template instantiations. The latter two side outputs
are there only if the caller brings a sink for them. Whatever is wrong with the configuration comes
out before anything is written, and a run ends at the first text that cannot be written completely.
-/

set_option autoImplicit false

namespace ForeignDecl

/-- The sinks of a run. -/
structure Outputs where
  document : Sink := {}
  macros? : Option Sink := none
  templates? : Option Sink := none
deriving Inhabited

/-- Why a run stopped. -/
inductive RunError where
  | config (error : ConfigError)
  | extract (error : ExtractError)
deriving DecidableEq, Repr, Inhabited

/-- The text of a run error. -/
def RunError.message : RunError → String
  | config e => e.message
  | extract e => e.message

/-- What a complete extraction leaves behind. -/
structure Extraction where
  summary : Summary
  registry : Registry
deriving Inhabited

/-- A step of a run. The outputs keep what was written when a step fails. -/
abbrev Run := EStateM RunError Outputs

namespace Run

/-- A question about the configuration. -/
def require {α : Type} (answer : Except ConfigError α) : Run α :=
  match answer with
  | .ok a => pure a
  | .error e => throw (.config e)

/-- What is asked for must have somewhere to go. -/
def checkOutputs (c : Config) (o : Outputs) : Except ConfigError Unit :=
  if c.withMacroDefs && o.macros?.isNone then .error (.conflict .noMacroOutput)
  else if c.templateInstantiations && o.templates?.isNone then
    .error (.conflict .noTemplateOutput)
  else .ok ()

/-- Write the macro constants, if there is a sink for them. -/
def macros (c : Config) (u : TranslationUnit) : Run Unit := fun o =>
  match o.macros? with
  | none => .ok () o
  | some sink =>
    match u.macros.writeConstants c.withMacroDefs sink with
    | .ok _ sink => .ok () { o with macros? := some sink }
    | .error e sink => .error (.extract (.write e)) { o with macros? := some sink }

/-- Write the document. -/
def document (c : Config) (u : TranslationUnit) (t : Target) (f : DocumentFormat) :
    Run Extraction := fun o =>
  let ctx : Context Page := { unit := u, oracle := Layout.words .checked u t, writer := f.writer }
  match Extract.document ctx c.namespaceName? { page := { sink := o.document } } with
  | .ok () s => .ok ⟨s.summary, s.registry⟩ { o with document := s.page.sink }
  | .error e s => .error (.extract e) { o with document := s.page.sink }

/-- Write the template instantiations, if they are asked for. -/
def templates (c : Config) (u : TranslationUnit) (r : Registry) : Run Unit := fun o =>
  match o.templates? with
  | none => .ok () o
  | some sink =>
    if c.templateInstantiations then
      match r.writeInstantiations u sink with
      | .ok _ sink => .ok () { o with templates? := some sink }
      | .error e sink => .error (.extract (.write e)) { o with templates? := some sink }
    else .ok () o

end Run

/-- Do what a configuration asks for with a translation unit. `host` is the triple of the machine of
the run, which counts when the configuration names no target. -/
def run (c : Config) (host : String) (u : TranslationUnit) : Run Extraction := do
  Run.require c.check
  Run.require (Run.checkOutputs c (← get))
  let t ← Run.require (c.target host)
  let f ← Run.require c.format
  Run.macros c u
  let extraction ← Run.document c u t f
  Run.templates c u extraction.registry
  return extraction

end ForeignDecl
