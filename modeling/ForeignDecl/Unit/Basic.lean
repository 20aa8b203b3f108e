import ForeignDecl.Unit.Node
import ForeignDecl.Macro.Table

/-!
# Translation units

A translation unit holds the declarations, types and macros of one input file. Types are interned:
asking twice for one type gives one handle, and the handle leads back to the type. For that a unit
knows the way back too, from a type to its handle. Declarations are not interned: every addition
makes a new entity.

Tables only grow at their end, so a handle keeps its meaning. A type never changes behind its
handle; a declaration changes only through `pushMember` and `modify`.

Looking up a handle that was never issued gives a nameless node of no kind, or an unsupported type
without a spelling, so every look-up has an answer.
-/

set_option autoImplicit false

namespace ForeignDecl

/-- The handles of the types of a table, the last type first. -/
def handlesOf (types : Array CType) : List (CType × TypeId) :=
  (types.toList.zipIdx.map fun (t, i) => (t, ⟨i⟩)).reverse

theorem handlesOf_push (types : Array CType) (t : CType) :
    handlesOf (types.push t) = (t, ⟨types.size⟩) :: handlesOf types := by
  simp [handlesOf, List.zipIdx_append]

/-- The declarations, types and macros of one input file. -/
structure TranslationUnit where
  file : String
  nodes : Array Node := #[]
  types : Array CType := #[]
  /-- The way back from a type to its handle. -/
  handles : List (CType × TypeId) := handlesOf types
  topLevel : Array DeclId := #[]
  macros : MacroTable := {}
deriving Inhabited

namespace TranslationUnit

/-! ## Look-up -/

/-- The declaration behind a handle. -/
def node (u : TranslationUnit) (d : DeclId) : Node := u.nodes.getD d.index default

/-- The type behind a handle. -/
def type (u : TranslationUnit) (t : TypeId) : CType := u.types.getD t.index (.unsupported "")

/-- The first declaration of the entity that `d` declares. -/
def canonical (u : TranslationUnit) (d : DeclId) : DeclId := ((u.node d).canonical?).getD d

/-- A location in the input file. -/
def location (u : TranslationUnit) (line column : Nat) : Location := ⟨u.file, line, column⟩

/-- What to call a declaration in a message: its name, or its number when it has none. -/
def displayName (u : TranslationUnit) (d : DeclId) : String :=
  let name := (u.node d).name
  if name.isEmpty then "(anonymous #" ++ toString d.index ++ ")" else name

/-- The members of `ds` that are fields, in order, each with its handle. -/
def fieldsAmong (u : TranslationUnit) (ds : List DeclId) : List (DeclId × FieldNode) :=
  ds.filterMap fun d => (u.node d).field?.map (d, ·)

/-- The constant a variable is initialized with; none when there is no initializer, it is no
constant, or it depends on a template parameter. -/
def constantOf? (u : TranslationUnit) (d : DeclId) : Option Constant :=
  match (u.node d).kind with
  | .var v =>
    if v.isTypeDependent then none
    else match v.init? with
      | some (.constant c) => some c
      | _ => none
  | _ => none

/-! ## Looking through sugar

A chain of sugar or of typedefs that is not circular passes each type once, so as many steps as
there are types reach its end. -/

/-- Bound on the length of a chain of distinct types. -/
def typeBudget (u : TranslationUnit) : Nat := u.types.size + 1

/-- Strip at most `fuel` layers of sugar. -/
def desugarWithin (u : TranslationUnit) : Nat → TypeId → TypeId
  | 0, t => t
  | fuel + 1, t =>
    match u.type t with
    | .elaborated inner | .paren inner => desugarWithin u fuel inner
    | _ => t

/-- The type without elaboration and parentheses around it. -/
def desugar (u : TranslationUnit) (t : TypeId) : TypeId := u.desugarWithin u.typeBudget t

/-- Follow sugar and typedefs for at most `fuel` typedefs, to the first type that is neither. -/
def resolveWithin (u : TranslationUnit) : Nat → TypeId → CType
  | 0, t => u.type t
  | fuel + 1, t =>
    match u.type (u.desugar t) with
    | .typedef d =>
      match (u.node d).aliased? with
      | some underlying => resolveWithin u fuel underlying
      | none => .typedef d
    | other => other

/-- What a type is once sugar and the names of typedefs and aliases are looked through. -/
def resolve (u : TranslationUnit) (t : TypeId) : CType := u.resolveWithin u.typeBudget t

/-! ## Building -/

/-- Add a declaration; its handle is the number of declarations before it. -/
def add (u : TranslationUnit) (n : Node) : DeclId × TranslationUnit :=
  (⟨u.nodes.size⟩, { u with nodes := u.nodes.push n })

theorem node_add (u : TranslationUnit) (n : Node) : (u.add n).2.node (u.add n).1 = n := by
  simp [add, node]

/-- Append to the top-level sequence. -/
def pushTopLevel (u : TranslationUnit) (d : DeclId) : TranslationUnit :=
  { u with topLevel := u.topLevel.push d }

/-- Add a declaration at top level. -/
def addTopLevel (u : TranslationUnit) (n : Node) : DeclId × TranslationUnit :=
  let (d, u) := u.add n
  (d, u.pushTopLevel d)

/-- Change one declaration. -/
def modify (u : TranslationUnit) (d : DeclId) (f : Node → Node) : TranslationUnit :=
  { u with nodes := u.nodes.modify d.index f }

/-- Append a member to a namespace, linkage block or record; `none` when `container` is none of
these. -/
def pushMember? (u : TranslationUnit) (container member : DeclId) : Option TranslationUnit :=
  match (u.node container).kind with
  | .namespaceBlock ms =>
    some (u.modify container fun n => { n with kind := .namespaceBlock (ms ++ [member]) })
  | .linkageBlock ms =>
    some (u.modify container fun n => { n with kind := .linkageBlock (ms ++ [member]) })
  | .record r =>
    some (u.modify container fun n =>
      { n with kind := .record { r with members := r.members ++ [member] } })
  | _ => none

/-- The handle of a type, which is added when it is new. -/
def intern (u : TranslationUnit) (t : CType) : TypeId × TranslationUnit :=
  match u.handles.lookup t with
  | some a => (a, u)
  | none =>
    let a : TypeId := ⟨u.types.size⟩
    (a, { u with types := u.types.push t, handles := (t, a) :: u.handles })

/-- The handle of a builtin type. -/
def internBuiltin (u : TranslationUnit) (kind : Builtin) : TypeId × TranslationUnit :=
  u.intern (.builtin kind)

/-- The handle of the type of pointers to `target`. -/
def internPointer (u : TranslationUnit) (target : TypeId) : TypeId × TranslationUnit :=
  u.intern (.pointer target)

/-- The handle of the type of arrays of `count` elements. -/
def internArray (u : TranslationUnit) (element : TypeId) (count : Nat) :
    TypeId × TranslationUnit :=
  u.intern (.array element count)

/-- The handle of the type that a record declares. -/
def internRecord (u : TranslationUnit) (d : DeclId) : TypeId × TranslationUnit :=
  u.intern (.record d)

/-- The handle of the type that an enumeration declares. -/
def internEnum (u : TranslationUnit) (d : DeclId) : TypeId × TranslationUnit :=
  u.intern (.enum d)

/-- The handle of a use of the name of a typedef or a type alias. -/
def internTypedef (u : TranslationUnit) (d : DeclId) : TypeId × TranslationUnit :=
  u.intern (.typedef d)

/-- The handle of `inner` as it is spelled with a keyword or a qualifier. -/
def internElaborated (u : TranslationUnit) (inner : TypeId) : TypeId × TranslationUnit :=
  u.intern (.elaborated inner)

/-- Define a macro. -/
def defineMacro (u : TranslationUnit) (m : MacroDefinition) : TranslationUnit :=
  { u with macros := u.macros.define m }

end TranslationUnit

end ForeignDecl
