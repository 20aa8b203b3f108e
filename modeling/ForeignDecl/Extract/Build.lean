import ForeignDecl.Decimal.Shortest
import ForeignDecl.Extract.Describe
import ForeignDecl.Macro.ConstantName

/-!
# Building entries

One builder for each kind of declaration. A builder makes the entry and does not write it: the scope
and, unless the builder knows better, the place are put in when the entry is written. A builder that
answers `none` leaves the declaration out.

The order in which a builder asks, describes and registers can be seen from outside, since numbers
are given out in that order and the first refusal of the layout oracle ends the step.
-/

set_option autoImplicit false

namespace ForeignDecl

/-- The text of a constant, and whether it is the text of a string literal. A string literal that is
not narrow has no text. -/
def Constant.text : Constant → Option String × Bool
  | .signed value => (some (toString value), false)
  | .unsigned value => (some (toString value), false)
  | .double bits => (some (doubleText bits), false)
  | .string literal => (literal.text?, true)
  | .address => (none, false)

namespace Extract

variable {σ : Type}

/-! ## Variables and functions -/

/-- The entry of a variable. One that stands for a macro has the macro's name and place. -/
def buildVar (ctx : Context σ) (d : DeclId) (v : VarNode) : Extract σ Entry := do
  let name := (ctx.unit.node d).name
  let info : EntryInfo :=
    match macroOfConstant? name with
    | some macroName =>
      { name := macroName
        location := ((ctx.unit.macros.location? macroName).map Location.text).getD "" }
    | none => { name }
  let (value?, isString) :=
    match ctx.unit.constantOf? d with
    | some constant => constant.text
    | none => (none, false)
  return .var info (← describe ctx v.type) value? v.isExternal isString

/-- The entries of parameters. -/
def buildParams (ctx : Context σ) (params : List NodeParam) : Extract σ (List ParamEntry) :=
  params.mapM fun p => do return { name := p.name, type := ← describe ctx p.type }

/-- Describe template arguments that may not be there. -/
def buildArgs? (ctx : Context σ) : Option (List TemplateArgument) → Extract σ (Option TemplateArgs)
  | some args => do return some (← describeArgs ctx args)
  | none => pure none

/-- The entry of a function. -/
def buildFunction (ctx : Context σ) (d : DeclId) (f : FunctionNode) : Extract σ FunctionEntry := do
  markSeen ctx d
  let result ← describe ctx f.result
  let params ← buildParams ctx f.params
  let templateArgs? ← buildArgs? ctx f.templateArgs?
  return {
    info := { name := (ctx.unit.node d).name }
    result, params, templateArgs?
    variadic := f.variadic
    inlined := f.inlined
    storage := f.storage }

/-- The entry of a member function of the record with number `recordId`. Its scope and place are
known here. -/
def buildMethod (ctx : Context σ) (recordId : Nat) (d : DeclId) (m : MethodNode) :
    Extract σ MethodEntry := do
  let f ← buildFunction ctx d m.function
  let info :=
    { f.info with scope := recordId, location := (ctx.unit.node d).locationText }
  return {
    function := { f with info }
    isStatic := m.isStatic
    isVirtual := m.isVirtual
    isPure := m.isPure
    isConst := m.isConst }

/-! ## Records -/

/-- What is known about the size of a record that is to be written. -/
inductive Sizing where
  | sized (layout : RecordLayout)
  /-- Nothing is expected to be known: a forward declaration or a dependent record. -/
  | unsized
  /-- There is no such size, so the record is left out. -/
  | unsizable

/-- Ask for the size of a record. One that cannot be sized counts as invalid and as seen. -/
def sizingOf (ctx : Context σ) (d : DeclId) (r : RecordNode) : Extract σ Sizing :=
  if !r.isComplete || r.isDependent then pure .unsized
  else match ctx.oracle.record d with
    | .ok layout => pure (.sized layout)
    | .error (.noLayout _) | .error (.tooLarge _) => do
      markSeen ctx d
      count fun c => { c with skippedInvalid := c.skippedInvalid + 1 }
      return .unsizable
    | .error e => throw (.layout e)

/-- Size and alignment of a field. A type that cannot be sized gets zeros. -/
def fieldLayout (ctx : Context σ) (t : TypeId) : Extract σ TypeLayout :=
  match ctx.oracle.type t with
  | .ok layout => pure layout
  | .error (.noLayout _) | .error (.tooLarge _) => pure ⟨0, 0⟩
  | .error e => throw (.layout e)

/-- The entry of a field at an offset. -/
def buildField (ctx : Context σ) (d : DeclId) (f : FieldNode) (offset : Nat) :
    Extract σ FieldEntry := do
  let layout ← fieldLayout ctx f.type
  let type ← describeField ctx f
  return {
    name := (ctx.unit.node d).name
    type, offset
    size := layout.size
    align := layout.align }

/-- The entries of the fields of `record` from number `index` on, each with the next of the
offsets. -/
def buildFields (ctx : Context σ) (record : DeclId) :
    Nat → List Nat → List (DeclId × FieldNode) → Extract σ (List FieldEntry)
  | _, _, [] => pure []
  | index, [], _ :: _ => throw (.layout (.missingField (ctx.unit.displayName record) index))
  | index, offset :: offsets, (d, f) :: fields => do
    let entry ← buildField ctx d f offset
    let entries ← buildFields ctx record (index + 1) offsets fields
    return entry :: entries

/-- Size, alignment and fields of a record as far as they are known. -/
def buildBody (ctx : Context σ) (d : DeclId) (r : RecordNode) (id : Nat) (sizing : Sizing) :
    Extract σ RecordEntry := do
  let bare : RecordEntry :=
    { info := { name := (ctx.unit.node d).name }, id, isUnion := r.isUnion }
  match sizing with
  | .sized layout =>
    let fields ← buildFields ctx d 0 layout.fieldOffsets (ctx.unit.fieldsAmong r.members)
    return { bare with size := layout.size, align := layout.align, fields }
  | .unsized | .unsizable => return bare

/-- An unnamed record where it is declared is left out. It is counted unless a reference to it had it
written already. -/
def dropUnnamed (ctx : Context σ) (d : DeclId) : Extract σ Unit := do
  if ctx.unit.canonical d ∉ (← get).seen then
    count fun c => { c with droppedUnnamed := c.droppedUnnamed + 1 }

/-- Whether a record is met where it is declared or through a reference to it. -/
inductive Occasion where
  | declared
  | referred
deriving DecidableEq, Repr

/-- The entry of a C record. -/
def buildRecord? (ctx : Context σ) (occasion : Occasion) (d : DeclId) (r : RecordNode) :
    Extract σ (Option Entry) := do
  if occasion = .declared ∧ (ctx.unit.node d).name.isEmpty then
    dropUnnamed ctx d
    return none
  match ← sizingOf ctx d r with
  | .unsizable => return none
  | sizing =>
    markSeen ctx d
    let id ← register ctx (some d)
    return some (.record (← buildBody ctx d r id sizing))

/-- The entries of the member functions among the members of a record. -/
def buildMethods (ctx : Context σ) (recordId : Nat) : List DeclId → Extract σ (List MethodEntry)
  | [] => pure []
  | d :: ds =>
    match (ctx.unit.node d).kind with
    | .method m => do
      let entry ← buildMethod ctx recordId d m
      let entries ← buildMethods ctx recordId ds
      return entry :: entries
    | _ => buildMethods ctx recordId ds

/-- The entry of a base class of `record`. -/
def buildParent (ctx : Context σ) (record : DeclId) (b : BaseSpecifier) :
    Extract σ ParentEntry := do
  let offset ← ask <|
    if b.isVirtual then ctx.oracle.virtualBaseOffset record b.record
    else ctx.oracle.baseOffset record b.record
  return {
    name := (ctx.unit.node b.record).name
    offset
    isVirtual := b.isVirtual
    access := b.access }

/-- The entries of the base classes of a record, which are known only with its layout. -/
def buildParents (ctx : Context σ) (d : DeclId) (r : RecordNode) :
    Sizing → Extract σ (List ParentEntry)
  | .sized _ => r.bases.mapM (buildParent ctx d)
  | .unsized | .unsizable => pure []

/-- The entry of a C++ record, which needs a valid definition. -/
def buildClass? (ctx : Context σ) (occasion : Occasion) (d : DeclId) (r : RecordNode) :
    Extract σ (Option Entry) := do
  let node := ctx.unit.node d
  if !r.isComplete || node.isInvalid then return none
  if occasion = .declared ∧ node.name.isEmpty then
    dropUnnamed ctx d
    return none
  match ← sizingOf ctx d r with
  | .unsizable => return none
  | sizing =>
    let specialization? := r.class?.bind (·.specialization?)
    let templateArgs? ← buildArgs? ctx (specialization?.map (·.args))
    markSeen ctx d
    let id ← registerClass ctx (some d)
    let methods ← buildMethods ctx id r.members
    let record ← buildBody ctx d r id sizing
    let parents ← buildParents ctx d r sizing
    return some (.classRecord { record, isClass := r.isClass, templateArgs?, parents, methods })

/-- The entry of a record in C or C++. -/
def buildAnyRecord? (ctx : Context σ) (occasion : Occasion) (d : DeclId) (r : RecordNode) :
    Extract σ (Option Entry) :=
  if r.isCxx then buildClass? ctx occasion d r else buildRecord? ctx occasion d r

/-! ## Enumerations, typedefs and namespaces -/

/-- The entry of an enumeration. -/
def buildEnum (ctx : Context σ) (d : DeclId) (enumerators : List Enumerator) : Extract σ Entry := do
  let name := (ctx.unit.node d).name
  markSeen ctx d
  let id ← if name.isEmpty then register ctx (some d) else pure 0
  return .enum { name } id enumerators

/-- Whether a type, looked at through sugar and typedefs, is anything but an invalid record. -/
def underlyingIsValid (u : TranslationUnit) (t : TypeId) : Bool :=
  match u.resolve t with
  | .record d => !(u.node d).isInvalid
  | _ => true

/-- The entry of a typedef. One of an invalid record is left out. -/
def buildTypedef? (ctx : Context σ) (d : DeclId) (underlying : TypeId) :
    Extract σ (Option Entry) := do
  if underlyingIsValid ctx.unit underlying then
    return some (.typedef { name := (ctx.unit.node d).name } (← describe ctx underlying))
  else
    count fun c => { c with skippedInvalid := c.skippedInvalid + 1 }
    return none

/-- The entry of a namespace. The enclosing scope is registered first, so that outer namespaces have
lower numbers. -/
def buildNamespace (ctx : Context σ) (d : DeclId) : Extract σ Entry := do
  let _ ← registerClass ctx (← get).scope?
  let id ← registerClass ctx (some d)
  return .namespaceBlock { name := (ctx.unit.node d).name } id

/-- The entry of a type alias. -/
def buildTypeAlias (ctx : Context σ) (d : DeclId) (underlying : TypeId) : Extract σ Entry := do
  return .typeAlias { name := (ctx.unit.node d).name } (← describe ctx underlying)

/-- Type and parameters of a template that is not a class or function template. -/
def buildTemplated (ctx : Context σ) (t : TemplatedNode) : Extract σ (TypeRef × TemplateArgs) := do
  let type ← describe ctx t.type
  let args ← describeArgs ctx t.params
  return (type, args)

/-- The entry of an alias template. -/
def buildAliasTemplate (ctx : Context σ) (d : DeclId) (t : TemplatedNode) : Extract σ Entry := do
  let (type, args) ← buildTemplated ctx t
  return .aliasTemplate { name := (ctx.unit.node d).name } type args

/-- The entry of a variable template. -/
def buildVarTemplate (ctx : Context σ) (d : DeclId) (t : TemplatedNode) : Extract σ Entry := do
  let (type, args) ← buildTemplated ctx t
  return .varTemplate { name := (ctx.unit.node d).name } type args

/-! ## Objective-C -/

/-- The entries of the methods among some declarations. -/
def buildObjcMethods (ctx : Context σ) : List DeclId → Extract σ (List FunctionEntry)
  | [] => pure []
  | d :: ds =>
    let node := ctx.unit.node d
    match node.kind with
    | .objcMethod m => do
      let result ← describe ctx m.result
      let params ← buildParams ctx m.params
      let entries ← buildObjcMethods ctx ds
      return {
        info := { name := node.name, location := node.locationText }
        result, params
        variadic := m.variadic
        objcScope? := some (if m.isInstance then .onInstance else .onClass) } :: entries
    | _ => buildObjcMethods ctx ds

/-- The entries of instance variables. Their offsets are up to the run time of the language. -/
def buildIvars (ctx : Context σ) (ds : List DeclId) : Extract σ (List FieldEntry) :=
  (ctx.unit.fieldsAmong ds).mapM fun (d, f) => buildField ctx d f 0

/-- The entry of an Objective-C class. -/
def buildInterface (ctx : Context σ) (d : DeclId) (n : InterfaceNode) : Extract σ Entry := do
  markSeen ctx d
  let ivars ← buildIvars ctx n.ivars
  let methods ← buildObjcMethods ctx n.methods
  return .objcInterface {
    info := { name := (ctx.unit.node d).name }
    superclass := (n.superclass?.map fun s => (ctx.unit.node s).name).getD ""
    isForward := !n.isDefined
    protocols := .ofList (n.protocols.map fun p => (ctx.unit.node p).name)
    ivars, methods }

/-- The entry of a category, under the name of the class it extends. -/
def buildCategory (ctx : Context σ) (d : DeclId) (n : CategoryNode) : Extract σ Entry := do
  markSeen ctx d
  let methods ← buildObjcMethods ctx n.methods
  return .objcCategory { name := (ctx.unit.node n.interface).name } (ctx.unit.node d).name methods

/-- The entry of a protocol. -/
def buildProtocol (ctx : Context σ) (d : DeclId) (methods : List DeclId) : Extract σ Entry := do
  markSeen ctx d
  return .objcProtocol { name := (ctx.unit.node d).name } (← buildObjcMethods ctx methods)

end Extract

end ForeignDecl
