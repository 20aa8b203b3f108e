import ForeignDecl.Location
import ForeignDecl.Unit.CType

/-!
# Declaration nodes

A declaration as the front end resolved it: a name, a place, and a kind with the data of that
kind. Scoped kinds list their members by handle, in source order; that order is the only order the
rest of the library ever visits them in.
-/

set_option autoImplicit false

namespace ForeignDecl

/-! ## Initializers -/

/-- How the characters of a string literal are stored. -/
inductive StringEncoding where
  | ordinary
  | utf8
  | utf16
  | utf32
  | wide
deriving DecidableEq, Repr, Inhabited

/-- A string literal, by its stored bytes. -/
structure StringLiteral where
  bytes : ByteArray
  encoding : StringEncoding

namespace StringLiteral

/-- The characters of a narrow literal; `none` when the bytes are not UTF-8 or the literal is
stored in wider units. -/
def text? (l : StringLiteral) : Option String :=
  match l.encoding with
  | .ordinary | .utf8 => String.fromUTF8? l.bytes
  | .utf16 | .utf32 | .wide => none

end StringLiteral

/-- The value of a constant expression. -/
inductive Constant where
  | signed (value : Int)
  | unsigned (value : Nat)
  /-- A double, by the bits of its binary64 form. -/
  | double (bits : UInt64)
  /-- The address of a string literal. -/
  | string (literal : StringLiteral)
  /-- Any other address. -/
  | address

/-- What is known about the initializer of a variable. -/
inductive Initializer where
  | constant (value : Constant)
  | notConstant
  /-- Depends on a template parameter. -/
  | valueDependent

/-! ## Callables and records -/

/-- A named parameter. -/
structure NodeParam where
  name : String
  type : TypeId
deriving DecidableEq, Repr, Inhabited

/-- Storage class of a function. -/
inductive StorageClass where
  | none
  | external
  | static
  | privateExternal
  | auto
  | register
deriving DecidableEq, Repr, Inhabited

/-- The name documents use for a storage class. -/
def StorageClass.label : StorageClass → String
  | none => "none"
  | external => "extern"
  | static => "static"
  | privateExternal => "private_extern"
  | auto => "auto"
  | register => "register"

/-- A function; `templateArgs?` is present for a specialization of a function template. -/
structure FunctionNode where
  result : TypeId
  params : List NodeParam := []
  variadic : Bool := false
  inlined : Bool := false
  storage : StorageClass := .none
  templateArgs? : Option (List TemplateArgument) := none
deriving DecidableEq, Repr, Inhabited

/-- A C++ member function. -/
structure MethodNode where
  function : FunctionNode
  isStatic : Bool := false
  isVirtual : Bool := false
  isPure : Bool := false
  isConst : Bool := false
deriving DecidableEq, Repr, Inhabited

/-- The keyword a record was declared with. -/
inductive ClassKey where
  | structKey
  | unionKey
  | classKey
deriving DecidableEq, Repr, Inhabited

/-- Access of a base class. -/
inductive Access where
  | publicAccess
  | protectedAccess
  | privateAccess
  | unstated
deriving DecidableEq, Repr, Inhabited

/-- The name documents use for an access. -/
def Access.label : Access → String
  | publicAccess => "public"
  | protectedAccess => "protected"
  | privateAccess => "private"
  | unstated => "unknown"

/-- One base class of a C++ record. -/
structure BaseSpecifier where
  record : DeclId
  access : Access := .publicAccess
  isVirtual : Bool := false
deriving DecidableEq, Repr, Inhabited

/-- How a class template specialization came to be. -/
inductive SpecializationKind where
  /-- Named somewhere, never instantiated. -/
  | undeclared
  | implicitInstantiation
  | explicitSpecialization
  | instantiationDeclaration
  | instantiationDefinition
deriving DecidableEq, Repr, Inhabited

/-- The template a record specializes, and with what. -/
structure Specialization where
  template : String
  args : List TemplateArgument := []
  kind : SpecializationKind := .undeclared
  isPartial : Bool := false
deriving DecidableEq, Repr, Inhabited

/-- What a record declared in C++ has beyond a C record. -/
structure ClassData where
  bases : List BaseSpecifier := []
  /-- A template pattern, or a member of one: it has no layout of its own. -/
  isDependent : Bool := false
  specialization? : Option Specialization := none
deriving DecidableEq, Repr, Inhabited

/-- A struct, union or class. `members` is everything declared inside, in source order; its fields
are the members that are fields. -/
structure RecordNode where
  key : ClassKey := .structKey
  /-- False for a forward declaration. -/
  isComplete : Bool := true
  members : List DeclId := []
  /-- Present exactly for records declared in C++. -/
  class? : Option ClassData := none
deriving DecidableEq, Repr, Inhabited

namespace RecordNode

/-- All members share one place. -/
def isUnion (r : RecordNode) : Bool := r.key = .unionKey

/-- Declared with the keyword `class`. -/
def isClass (r : RecordNode) : Bool := r.key = .classKey

/-- Declared in C++. -/
def isCxx (r : RecordNode) : Bool := r.class?.isSome

/-- Depends on a template parameter, so its layout is unknown. -/
def isDependent (r : RecordNode) : Bool := r.class?.any (·.isDependent)

/-- The base classes, none for a C record. -/
def bases (r : RecordNode) : List BaseSpecifier := (r.class?.map (·.bases)).getD []

end RecordNode

/-! ## Other kinds -/

/-- A variable. -/
structure VarNode where
  type : TypeId
  init? : Option Initializer := none
  isExternal : Bool := false
  /-- The declared type depends on a template parameter. -/
  isTypeDependent : Bool := false

/-- A field; `width?` is present for a bitfield. -/
structure FieldNode where
  type : TypeId
  width? : Option Nat := none
deriving DecidableEq, Repr, Inhabited

/-- A named constant of an enumeration. -/
structure Enumerator where
  name : String
  value : Int
deriving DecidableEq, Repr, Inhabited

/-- A type alias template or a variable template. -/
structure TemplatedNode where
  type : TypeId
  params : List TemplateArgument := []
deriving DecidableEq, Repr, Inhabited

/-- An Objective-C class, or a forward declaration of one. -/
structure InterfaceNode where
  superclass? : Option DeclId := none
  isDefined : Bool := false
  protocols : List DeclId := []
  ivars : List DeclId := []
  methods : List DeclId := []
deriving DecidableEq, Repr, Inhabited

/-- An Objective-C category. -/
structure CategoryNode where
  interface : DeclId
  methods : List DeclId := []
deriving DecidableEq, Repr, Inhabited

/-- An Objective-C method. -/
structure ObjcMethodNode where
  result : TypeId
  params : List NodeParam := []
  variadic : Bool := false
  isInstance : Bool := false
deriving DecidableEq, Repr, Inhabited

/-- The kinds of declaration the library tells apart. -/
inductive NodeKind where
  | namespaceBlock (members : List DeclId)
  /-- A block such as `extern "C" { … }`. -/
  | linkageBlock (members : List DeclId)
  | var (node : VarNode)
  | field (node : FieldNode)
  | indirectField
  | function (node : FunctionNode)
  | method (node : MethodNode)
  | functionTemplate
  | record (node : RecordNode)
  | enum (enumerators : List Enumerator)
  | typedef (underlying : TypeId)
  | typeAlias (underlying : TypeId)
  | aliasTemplate (node : TemplatedNode)
  | varTemplate (node : TemplatedNode)
  | classTemplate
  | usingDecl
  | usingShadow
  | usingDirective
  | objcInterface (node : InterfaceNode)
  | objcCategory (node : CategoryNode)
  | objcProtocol (methods : List DeclId)
  | objcImplementation
  | objcMethod (node : ObjcMethodNode)
  /-- Anything else. `named` says whether the front end counts it as a named declaration. -/
  | other (label : String) (named : Bool)

/-- One declaration. -/
structure Node where
  /-- Empty for an unnamed entity. -/
  name : String := ""
  /-- Absent when the compiler introduced the declaration. -/
  location? : Option Location := none
  /-- Rejected by semantic analysis. -/
  isInvalid : Bool := false
  /-- The first declaration of the same entity, on a redeclaration. -/
  canonical? : Option DeclId := none
  kind : NodeKind

namespace Node

instance : Inhabited Node := ⟨{ kind := .other "" false }⟩

/-- The record a node declares, if it declares one. -/
def record? (n : Node) : Option RecordNode :=
  match n.kind with
  | .record r => some r
  | _ => none

/-- The field a node declares, if it declares one. -/
def field? (n : Node) : Option FieldNode :=
  match n.kind with
  | .field f => some f
  | _ => none

/-- The type a typedef or type alias stands for. -/
def aliased? (n : Node) : Option TypeId :=
  match n.kind with
  | .typedef t | .typeAlias t => some t
  | _ => none

/-- A virtual member function; one of these is enough to make a record dynamic. -/
def isVirtualMethod (n : Node) : Bool :=
  match n.kind with
  | .method m => m.isVirtual
  | _ => false

/-- Where the node was written, as text; empty when nowhere. -/
def locationText (n : Node) : String := (n.location?.map Location.text).getD ""

/-- The front end's name for the kind of a node. -/
def kindLabel (n : Node) : String :=
  match n.kind with
  | .namespaceBlock _ => "Namespace"
  | .linkageBlock _ => "LinkageSpec"
  | .var _ => "Var"
  | .field _ => "Field"
  | .indirectField => "IndirectField"
  | .function _ => "Function"
  | .method _ => "CXXMethod"
  | .functionTemplate => "FunctionTemplate"
  | .record r => if r.isCxx then "CXXRecord" else "Record"
  | .enum _ => "Enum"
  | .typedef _ => "Typedef"
  | .typeAlias _ => "TypeAlias"
  | .aliasTemplate _ => "TypeAliasTemplate"
  | .varTemplate _ => "VarTemplate"
  | .classTemplate => "ClassTemplate"
  | .usingDecl => "Using"
  | .usingShadow => "UsingShadow"
  | .usingDirective => "UsingDirective"
  | .objcInterface _ => "ObjCInterface"
  | .objcCategory _ => "ObjCCategory"
  | .objcProtocol _ => "ObjCProtocol"
  | .objcImplementation => "ObjCImplementation"
  | .objcMethod _ => "ObjCMethod"
  | .other label _ => label

end Node

end ForeignDecl
