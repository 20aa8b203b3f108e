import ForeignDecl.Extract.Build

/-!
# Visiting declarations

The walk over a translation unit. Declarations are visited in order; namespaces, linkage blocks and
records are entered. Each declaration is made into an entry and written at once: there is no second
pass, and an entry refers to ones that come later by number only.

An unnamed record is not written where it is declared. When a type refers to it, it is queued, and
the queue is written out just before the entry that holds the reference. Writing a queued record may
queue more of them; each is marked as seen before its own references are looked at, so no record is
written twice and the queue runs dry.
-/

set_option autoImplicit false

namespace ForeignDecl

namespace Extract

variable {σ : Type}

/-! ## Writing entries -/

/-- Put in the scope, and the place unless the entry has one. -/
def stamp (scope : Nat) (location : String) (e : Entry) : Entry :=
  e.mapInfo fun i =>
    { i with scope, location := if i.location.isEmpty then location else i.location }

/-- Write an entry for a declaration, with a separator before every entry but the first. -/
def writeEntry (ctx : Context σ) (source : DeclId) (e : Entry) : Extract σ Unit := do
  let scope ← register ctx (← get).scope?
  let e := stamp scope (ctx.unit.node source).locationText e
  if (← get).hasEntries then send ctx.writer.separator
  else modify ({ · with hasEntries := true })
  send (ctx.writer.entry e)
  count fun c => { c with emitted := c.emitted + 1 }

/-- Take the whole queue of unnamed records. -/
def takePending : Extract σ (List DeclId) :=
  modifyGet fun s => (s.pending.toList, { s with pending := ∅ })

/-- The entry of a queued record, unless it was written in the meantime. -/
def buildPending? (ctx : Context σ) (d : DeclId) : Extract σ (Option Entry) :=
  match (ctx.unit.node d).record? with
  | some r => buildAnyRecord? ctx .referred d r
  | none => pure none

/-- Write queued records, given how to write the entry of one. -/
def flushWith (ctx : Context σ) (write : DeclId → Option Entry → Extract σ Unit) :
    List DeclId → Extract σ Unit
  | [] => pure ()
  | d :: ds => do
    if ctx.unit.canonical d ∉ (← get).seen then
      write d (← buildPending? ctx d)
    flushWith ctx write ds

/-- Write the queued records and then the entry, if there is one. Every level of the recursion has
seen one record more than the level around it, so there are at most as many levels as records. -/
def emitWithin (ctx : Context σ) : Nat → DeclId → Option Entry → Extract σ Unit
  | 0, _, _ => pure ()
  | fuel + 1, source, e? => do
    flushWith ctx (emitWithin ctx fuel) (← takePending)
    match e? with
    | some e => writeEntry ctx source e
    | none => pure ()

/-- Write the queued records and then the entry of a declaration, if it has one. -/
def emit (ctx : Context σ) (source : DeclId) (e? : Option Entry) : Extract σ Unit :=
  emitWithin ctx (ctx.unit.nodes.size + 2) source e?

/-! ## The walk -/

/-- Handle a valid declaration. `visitAll scope members` visits its members inside a scope. -/
def handle (ctx : Context σ) (visitAll : Option DeclId → List DeclId → Extract σ Unit)
    (d : DeclId) : Extract σ Unit := do
  let node := ctx.unit.node d
  match node.kind with
  | .namespaceBlock members =>
    emit ctx d (some (← buildNamespace ctx d))
    visitAll (some d) members
  | .linkageBlock members => visitAll (← get).scope? members
  | .var v => emit ctx d (some (← buildVar ctx d v))
  | .function f => emit ctx d (some (.function (← buildFunction ctx d f)))
  | .record r =>
    emit ctx d (← buildAnyRecord? ctx .declared d r)
    visitAll (some d) r.members
  | .enum enumerators => emit ctx d (some (← buildEnum ctx d enumerators))
  | .typedef underlying => emit ctx d (← buildTypedef? ctx d underlying)
  | .typeAlias underlying => emit ctx d (some (← buildTypeAlias ctx d underlying))
  | .aliasTemplate t => emit ctx d (some (← buildAliasTemplate ctx d t))
  | .varTemplate t => emit ctx d (some (← buildVarTemplate ctx d t))
  | .usingDecl => emit ctx d (some (.usingDecl { name := node.name }))
  | .usingShadow => emit ctx d (some (.usingShadow { name := node.name }))
  | .usingDirective => emit ctx d (some (.usingDirective { name := node.name }))
  | .objcInterface n => emit ctx d (some (← buildInterface ctx d n))
  | .objcCategory n => emit ctx d (some (← buildCategory ctx d n))
  | .objcProtocol methods => emit ctx d (some (← buildProtocol ctx d methods))
  | .other label true =>
    count fun c => { c with unhandled := c.unhandled + 1 }
    emit ctx d (some (.unhandled { name := node.name } label))
  -- Members are handled with the declaration around them, templates with their specializations.
  | .field _ | .indirectField | .method _ | .functionTemplate | .classTemplate
  | .objcImplementation | .objcMethod _ | .other _ false => pure ()

/-- Visit a declaration with at most `fuel` declarations around each other in it. An invalid one is
counted and left alone. -/
def visitWithin (ctx : Context σ) : Nat → Option DeclId → DeclId → Extract σ Unit
  | 0, _, _ => pure ()
  | fuel + 1, scope?, d =>
    if (ctx.unit.node d).isInvalid then
      count fun c => { c with skippedInvalid := c.skippedInvalid + 1 }
    else
      inScope scope? (handle ctx (fun scope? ds => ds.forM (visitWithin ctx fuel scope?)) d)

/-- Visit a declaration inside a scope. Declarations nest at most as deep as there are
declarations. -/
def visit (ctx : Context σ) (scope? : Option DeclId) (d : DeclId) : Extract σ Unit :=
  visitWithin ctx (ctx.unit.nodes.size + 1) scope? d

/-! ## Documents -/

/-- Open a document. -/
def start (ctx : Context σ) (namespaceName? : Option String) : Extract σ Unit := do
  send ctx.writer.header
  match namespaceName? with
  | some name => send (ctx.writer.announce name)
  | none => pure ()

/-- Visit some declarations at top level, in order. -/
def visitTopLevel (ctx : Context σ) (ds : List DeclId) : Extract σ Unit :=
  ds.forM (visit ctx none)

/-- Close a document. -/
def finish (ctx : Context σ) : Extract σ Unit := send ctx.writer.footer

/-- Write the document of a whole unit. -/
def document (ctx : Context σ) (namespaceName? : Option String) : Extract σ Unit := do
  start ctx namespaceName?
  visitTopLevel ctx ctx.unit.topLevel.toList
  finish ctx

end Extract

end ForeignDecl
