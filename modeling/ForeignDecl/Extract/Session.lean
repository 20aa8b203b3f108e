import ForeignDecl.Document.Writer
import ForeignDecl.Layout.Basic
import ForeignDecl.Registry

/-!
# Extraction sessions

What an extraction works with and what it remembers. It reads one translation unit, asks one layout
oracle, and sends entries to one document writer; these make up its `Context` and never change.
Everything else is its `Session`, which outlives a failure, so a session can go on after a step that
failed.
-/

set_option autoImplicit false

namespace ForeignDecl

/-- Why an extraction stopped. -/
inductive ExtractError where
  | layout (error : LayoutError)
  | write (error : WriteError)
deriving DecidableEq, Repr, Inhabited

/-- The text of an extraction error. -/
def ExtractError.message : ExtractError → String
  | layout e => "Layout error: " ++ e.message
  | write e => "IO error: " ++ e.message

/-- What happened to the declarations that were handled. -/
structure Summary where
  /-- Entries written. -/
  emitted : Nat := 0
  /-- Invalid declarations, typedefs of invalid records, records that cannot be sized. -/
  skippedInvalid : Nat := 0
  /-- Unnamed records met where they are declared, before anything referred to them. -/
  droppedUnnamed : Nat := 0
  /-- Named declarations of kinds without an entry of their own. -/
  unhandled : Nat := 0
deriving DecidableEq, Repr, Inhabited

/-- What an extraction works with. -/
structure Context (σ : Type) where
  unit : TranslationUnit
  oracle : LayoutOracle
  writer : DocumentWriter σ

/-- What an extraction remembers; `page` is the state of its writer. -/
structure Session (σ : Type) where
  page : σ
  registry : Registry := {}
  /-- The namespace or record around the declaration being handled. -/
  scope? : Option DeclId := none
  /-- An entry was sent to the writer, so the next one needs a separator. -/
  hasEntries : Bool := false
  /-- Canonical declarations that were made into entries. -/
  seen : OrderedSet DeclId := ∅
  /-- Unnamed records that were referred to and are still to be written, by canonical declaration. -/
  pending : OrderedSet DeclId := ∅
  summary : Summary := {}

/-- A step of an extraction. -/
abbrev Extract (σ : Type) := EStateM ExtractError (Session σ)

namespace Extract

variable {σ α : Type}

/-- Ask the layout oracle. -/
def ask (answer : Except LayoutError α) : Extract σ α :=
  match answer with
  | .ok a => pure a
  | .error e => throw (.layout e)

/-- Let the writer write. -/
def send (emit : Emit σ α) : Extract σ α := fun s =>
  match emit s.page with
  | .ok a page => .ok a { s with page }
  | .error e page => .error (.write e) { s with page }

/-- The number of a declaration in the registry. -/
def register (ctx : Context σ) (d? : Option DeclId) : Extract σ Nat :=
  modifyGet fun s =>
    let (id, registry) := s.registry.register ctx.unit d?
    (id, { s with registry })

/-- The number of a declaration of C++ in the registry. -/
def registerClass (ctx : Context σ) (d? : Option DeclId) : Extract σ Nat :=
  modifyGet fun s =>
    let (id, registry) := s.registry.registerClass ctx.unit d?
    (id, { s with registry })

/-- Remember that a declaration was made into an entry. -/
def markSeen (ctx : Context σ) (d : DeclId) : Extract σ Unit :=
  modify fun s => { s with seen := s.seen.insert (ctx.unit.canonical d) }

/-- Queue an unnamed record to be written, unless that happened already. -/
def enqueue (ctx : Context σ) (d : DeclId) : Extract σ Unit :=
  modify fun s =>
    let canonical := ctx.unit.canonical d
    if canonical ∈ s.seen then s else { s with pending := s.pending.insert canonical }

/-- Change the counters. -/
def count (f : Summary → Summary) : Extract σ Unit :=
  modify fun s => { s with summary := f s.summary }

/-- Run a step inside another scope. The scope is put back however the step ends. -/
def inScope (scope? : Option DeclId) (step : Extract σ α) : Extract σ α := fun s =>
  match step { s with scope? } with
  | .ok a s' => .ok a { s' with scope? := s.scope? }
  | .error e s' => .error e { s' with scope? := s.scope? }

end Extract

end ForeignDecl
