import ForeignDecl.Extract.Session

/-!
# Describing types

From the types of a translation unit to the `TypeRef`s of entries. Describing a type registers the
records and unnamed enumerations in it, and queues the unnamed records: whoever refers to one needs
its entry.

A pointer to a function is told apart from other pointers, also when the function type hides behind
sugar or a typedef. References of both kinds are described alike, and arrays without a constant
bound get the bound zero.
-/

set_option autoImplicit false

namespace ForeignDecl

/-- Whether a type is a function type once sugar and typedefs are looked through. -/
def TranslationUnit.isFunctionType (u : TranslationUnit) (t : TypeId) : Bool :=
  match u.resolve t with
  | .function _ _ _ => true
  | _ => false

namespace Extract

variable {σ : Type}

/-- Refer to a record, by name and number. -/
def describeRecord (ctx : Context σ) (d : DeclId) : Extract σ TypeRef := do
  let node := ctx.unit.node d
  let record? := node.record?
  let id ←
    if record?.any RecordNode.isCxx then registerClass ctx (some d) else register ctx (some d)
  if node.name.isEmpty then enqueue ctx d
  return .record node.name id (record?.any RecordNode.isUnion) (record?.any RecordNode.isClass)

/-- Refer to an enumeration; only an unnamed one needs its number to be found. -/
def describeEnum (ctx : Context σ) (d : DeclId) : Extract σ TypeRef := do
  let name := (ctx.unit.node d).name
  let id ← if name.isEmpty then register ctx (some d) else pure 0
  return .enum name id

/-- Describe a template argument, given how to describe a type. -/
def describeArgWith (describe : TypeId → Extract σ TypeRef) :
    TemplateArgument → Extract σ (TypeRef × Option String)
  | .type t => do return (← describe t, none)
  | .integral t value => do return (← describe t, some (toString value))
  | .other spelling => pure (.simple spelling, none)

/-- Describe a type of at most `fuel` layers. -/
def describeWithin (ctx : Context σ) : Nat → TypeId → Extract σ TypeRef
  | 0, _ => pure (.simple "")
  | fuel + 1, t =>
    match ctx.unit.type t with
    | .builtin .void => pure (.simple ":void")
    | .builtin kind => do
      let l ← ask (ctx.oracle.type t)
      return .basic kind.foreignName l.size l.align
    | .pointer target =>
      if ctx.unit.isFunctionType target then pure (.simple ":function-pointer")
      else do return .pointer (← describeWithin ctx fuel target)
    | .lvalueReference target | .rvalueReference target => do
      return .reference (← describeWithin ctx fuel target)
    | .array element count => do return .array (← describeWithin ctx fuel element) count
    | .incompleteArray element | .variableArray element => do
      return .array (← describeWithin ctx fuel element) 0
    | .record d => describeRecord ctx d
    | .enum d => describeEnum ctx d
    | .typedef d => pure (.simple (ctx.unit.node d).name)
    | .elaborated inner | .paren inner => describeWithin ctx fuel inner
    | .function _ _ _ => pure (.simple ":function")
    | .specialization template args record? => do
      let id ← registerClass ctx record?
      return .template template id (← args.mapM (describeArgWith (describeWithin ctx fuel)))
    | .templateParameter name => pure (.simple name)
    | .objcPointer (some d) => pure (.pointer (.simple (ctx.unit.node d).name))
    | .objcPointer none => pure (.simple ":id")
    | .unsupported spelling => pure (.simple spelling)

/-- Describe a type. Types nest at most as deep as there are types. -/
def describe (ctx : Context σ) (t : TypeId) : Extract σ TypeRef :=
  describeWithin ctx ctx.unit.typeBudget t

/-- Describe template arguments. -/
def describeArgs (ctx : Context σ) (args : List TemplateArgument) : Extract σ TemplateArgs :=
  args.mapM (describeArgWith (describe ctx))

/-- Describe the type of a field. -/
def describeField (ctx : Context σ) (f : FieldNode) : Extract σ TypeRef := do
  let base ← describe ctx f.type
  match f.width? with
  | some width => return .bitfield base width
  | none => return base

end Extract

end ForeignDecl
