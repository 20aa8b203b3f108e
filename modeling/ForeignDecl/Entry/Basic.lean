import ForeignDecl.Entry.TypeRef
import ForeignDecl.OrderedSet
import ForeignDecl.Unit.Node

/-!
# Entries

An `Entry` is one declaration as a document tells it: independent of the translation unit, with
types as trees, other entities by registry number and places as text. Sizes, alignments and offsets
are in bits, offsets of parent classes in bytes.

Every entry carries an `EntryInfo`. The name comes from whoever makes the entry; the number of the
enclosing scope and the place are put in when it is written.
-/

set_option autoImplicit false

namespace ForeignDecl

/-! ## Parts of entries -/

/-- What every entry has. -/
structure EntryInfo where
  name : String
  /-- Number of the enclosing scope. -/
  scope : Nat := 0
  location : String := ""
deriving DecidableEq, Repr, Inhabited

/-- A field of a record. -/
structure FieldEntry where
  name : String
  type : TypeRef
  offset : Nat
  size : Nat
  align : Nat
deriving Inhabited

/-- A parameter of a function. -/
structure ParamEntry where
  name : String
  type : TypeRef
deriving Inhabited

/-- Whether a method is called on a class or on an object. -/
inductive MethodScope where
  | onClass
  | onInstance
deriving DecidableEq, Repr, Inhabited

/-- The name documents use for the scope of a method. -/
def MethodScope.label : MethodScope → String
  | onClass => "class"
  | onInstance => "instance"

/-- A function, also one that is a member. -/
structure FunctionEntry where
  info : EntryInfo
  result : TypeRef
  params : List ParamEntry := []
  variadic : Bool := false
  inlined : Bool := false
  storage : StorageClass := .none
  templateArgs? : Option TemplateArgs := none
  /-- Present for Objective-C methods. -/
  objcScope? : Option MethodScope := none
deriving Inhabited

/-- A C++ member function. -/
structure MethodEntry where
  function : FunctionEntry
  isStatic : Bool := false
  isVirtual : Bool := false
  isPure : Bool := false
  isConst : Bool := false
deriving Inhabited

/-- A base class of a record. -/
structure ParentEntry where
  name : String
  /-- In bytes. -/
  offset : Nat
  isVirtual : Bool := false
  access : Access := .publicAccess
deriving DecidableEq, Repr, Inhabited

/-- A record. One without a known layout has size zero and no fields. -/
structure RecordEntry where
  info : EntryInfo
  id : Nat
  isUnion : Bool := false
  size : Nat := 0
  align : Nat := 0
  fields : List FieldEntry := []
deriving Inhabited

/-- A C++ record. -/
structure ClassEntry where
  record : RecordEntry
  isClass : Bool := false
  templateArgs? : Option TemplateArgs := none
  parents : List ParentEntry := []
  methods : List MethodEntry := []
deriving Inhabited

/-- An Objective-C class. -/
structure InterfaceEntry where
  info : EntryInfo
  superclass : String := ""
  isForward : Bool := false
  protocols : OrderedSet String := ∅
  ivars : List FieldEntry := []
  methods : List FunctionEntry := []
deriving Inhabited

/-! ## Entries -/

/-- One declaration of a document. -/
inductive Entry where
  /-- A named declaration of a kind that has no entry of its own. -/
  | unhandled (info : EntryInfo) (kind : String)
  /-- A variable; `value?` is the text of its constant value. -/
  | var (info : EntryInfo) (type : TypeRef) (value? : Option String) (isExternal isString : Bool)
  | function (entry : FunctionEntry)
  | method (entry : MethodEntry)
  | typedef (info : EntryInfo) (type : TypeRef)
  | record (entry : RecordEntry)
  /-- An enumeration; only an unnamed one has a number other than zero. -/
  | enum (info : EntryInfo) (id : Nat) (constants : List Enumerator)
  | classRecord (entry : ClassEntry)
  | namespaceBlock (info : EntryInfo) (id : Nat)
  | typeAlias (info : EntryInfo) (type : TypeRef)
  | aliasTemplate (info : EntryInfo) (type : TypeRef) (args : TemplateArgs)
  | varTemplate (info : EntryInfo) (type : TypeRef) (args : TemplateArgs)
  | usingDecl (info : EntryInfo)
  | usingShadow (info : EntryInfo)
  | usingDirective (info : EntryInfo)
  | objcInterface (entry : InterfaceEntry)
  | objcCategory (info : EntryInfo) (category : String) (methods : List FunctionEntry)
  | objcProtocol (info : EntryInfo) (methods : List FunctionEntry)
deriving Inhabited

namespace Entry

/-- What every entry has. -/
def info : Entry → EntryInfo
  | unhandled i _ => i
  | var i _ _ _ _ => i
  | function f => f.info
  | method m => m.function.info
  | typedef i _ => i
  | record r => r.info
  | enum i _ _ => i
  | classRecord c => c.record.info
  | namespaceBlock i _ => i
  | typeAlias i _ => i
  | aliasTemplate i _ _ => i
  | varTemplate i _ _ => i
  | usingDecl i => i
  | usingShadow i => i
  | usingDirective i => i
  | objcInterface o => o.info
  | objcCategory i _ _ => i
  | objcProtocol i _ => i

/-- Change what every entry has. -/
def mapInfo (g : EntryInfo → EntryInfo) : Entry → Entry
  | unhandled i kind => unhandled (g i) kind
  | var i type value? isExternal isString => var (g i) type value? isExternal isString
  | function f => function { f with info := g f.info }
  | method m => method { m with function := { m.function with info := g m.function.info } }
  | typedef i type => typedef (g i) type
  | record r => record { r with info := g r.info }
  | enum i id constants => enum (g i) id constants
  | classRecord c => classRecord { c with record := { c.record with info := g c.record.info } }
  | namespaceBlock i id => namespaceBlock (g i) id
  | typeAlias i type => typeAlias (g i) type
  | aliasTemplate i type args => aliasTemplate (g i) type args
  | varTemplate i type args => varTemplate (g i) type args
  | usingDecl i => usingDecl (g i)
  | usingShadow i => usingShadow (g i)
  | usingDirective i => usingDirective (g i)
  | objcInterface o => objcInterface { o with info := g o.info }
  | objcCategory i category methods => objcCategory (g i) category methods
  | objcProtocol i methods => objcProtocol (g i) methods

/-- The name of the declaration. -/
def name (e : Entry) : String := e.info.name

/-- The name of the kind of an entry. -/
def kindLabel : Entry → String
  | unhandled .. => "unhandled"
  | var .. => "var"
  | function _ => "function"
  | method _ => "cxx-function"
  | typedef .. => "typedef"
  | record _ => "record"
  | enum .. => "enum"
  | classRecord _ => "cxx-record"
  | namespaceBlock .. => "namespace"
  | typeAlias .. => "type-alias"
  | aliasTemplate .. => "type-alias-template"
  | varTemplate .. => "var-template"
  | usingDecl _ => "using"
  | usingShadow _ => "using-shadow"
  | usingDirective _ => "using-directive"
  | objcInterface _ => "objc-interface"
  | objcCategory .. => "objc-category"
  | objcProtocol .. => "objc-protocol"

theorem info_mapInfo (g : EntryInfo → EntryInfo) (e : Entry) : (e.mapInfo g).info = g e.info := by
  cases e <;> rfl

end Entry

end ForeignDecl
