import ForeignDecl.Document.Writer
import ForeignDecl.Json.Value

/-!
# The JSON form of documents

One array with an object for every entry. The first member of every object is `tag`, which names its
kind; the type of something is an object of its own below `type`. The members of an object and their
order are part of the form.

Types and entries are turned into values first, by `TypeRef.toJson` and `Entry.toJson`, and a value
is written in one piece. What stands between the values is the array's own: a bracket, a comma and a
line break between items, a bracket. Written member by member, without a value in between, a document is
the same, byte by byte and into every sink (`JsonForm.piecesWriter_eq` in `Proofs.Document.Pieces`).
-/

set_option autoImplicit false

namespace ForeignDecl

/-- An object with a tag. -/
def tagged (tag : String) (members : List (String × Json)) : Json :=
  .object (("tag", .string tag) :: members)

/-! ## Types -/

/-- The tag of a reference to a record. -/
def recordTypeTag (isUnion isClass : Bool) : String :=
  if isUnion then ":union" else if isClass then ":class" else ":struct"

/-- The member with the value of a template argument, when it has one. -/
def valueMember : Option String → List (String × Json)
  | some value => [("value", .string value)]
  | none => []

mutual

/-- The value of a type. -/
def TypeRef.toJson : TypeRef → Json
  | .simple name => tagged name []
  | .basic name size align => tagged name [("bit-size", .nat size), ("bit-alignment", .nat align)]
  | .bitfield base width => tagged ":bitfield" [("width", .nat width), ("type", base.toJson)]
  | .pointer target => tagged ":pointer" [("type", target.toJson)]
  | .reference target => tagged ":reference" [("type", target.toJson)]
  | .array element count => tagged ":array" [("type", element.toJson), ("size", .nat count)]
  | .record name id isUnion isClass =>
    tagged (recordTypeTag isUnion isClass) [("name", .string name), ("id", .nat id)]
  | .enum name id => tagged ":enum" [("name", .string name), ("id", .nat id)]
  | .template name id args =>
    tagged ":template"
      [("name", .string name), ("id", .nat id), ("template", .array (templateArgsToJson args))]

/-- The values of template arguments. -/
def templateArgsToJson : List (TypeRef × Option String) → List Json
  | [] => []
  | (type, value?) :: args =>
    tagged "parameter" (("type", type.toJson) :: valueMember value?) :: templateArgsToJson args

end

/-- The member with template arguments, when there are any to tell. -/
def templateMember : Option TemplateArgs → List (String × Json)
  | some args => [("template", .array (templateArgsToJson args))]
  | none => []

/-! ## Parts of entries -/

/-- Scope, name and place, in the order most entries have them. -/
def EntryInfo.members (i : EntryInfo) : List (String × Json) :=
  [("ns", .nat i.scope), ("name", .string i.name), ("location", .string i.location)]

/-- The value of a field. -/
def FieldEntry.toJson (f : FieldEntry) : Json :=
  tagged "field"
    [("name", .string f.name), ("bit-offset", .nat f.offset), ("bit-size", .nat f.size),
      ("bit-alignment", .nat f.align), ("type", f.type.toJson)]

/-- The value of a parameter. -/
def ParamEntry.toJson (p : ParamEntry) : Json :=
  tagged "parameter" [("name", .string p.name), ("type", p.type.toJson)]

/-- The value of a named constant of an enumeration. -/
def constantToJson (c : Enumerator) : Json :=
  tagged "field" [("name", .string c.name), ("value", .int c.value)]

/-- The value of a base class. -/
def ParentEntry.toJson (p : ParentEntry) : Json :=
  tagged "class"
    [("name", .string p.name), ("offset", .nat p.offset), ("is_virtual", .bool p.isVirtual),
      ("access", .string p.access.label)]

/-- A function, with the members in `scope` between what it is and what it takes and gives. -/
def FunctionEntry.toJsonWith (f : FunctionEntry) (scope : List (String × Json)) : Json :=
  tagged "function" <|
    [("name", .string f.info.name), ("ns", .nat f.info.scope),
      ("location", .string f.info.location), ("variadic", .bool f.variadic),
      ("inline", .bool f.inlined), ("storage-class", .string f.storage.label)] ++
    templateMember f.templateArgs? ++ scope ++
    [("parameters", .array (f.params.map ParamEntry.toJson)), ("return-type", f.result.toJson)]

/-- The member with the scope of an Objective-C method. -/
def scopeMember : Option MethodScope → List (String × Json)
  | some scope => [("scope", .string scope.label)]
  | none => []

/-- The value of a function. -/
def FunctionEntry.toJson (f : FunctionEntry) : Json := f.toJsonWith (scopeMember f.objcScope?)

/-- The value of a C++ member function. Its scope tells static ones from the others. -/
def MethodEntry.toJson (m : MethodEntry) : Json :=
  m.function.toJsonWith
    [("scope", .string (if m.isStatic then MethodScope.onClass else .onInstance).label),
      ("virtual", .bool m.isVirtual), ("pure", .bool m.isPure), ("const", .bool m.isConst)]

/-- What a record has before its template arguments, bases and fields. -/
def RecordEntry.members (r : RecordEntry) : List (String × Json) :=
  [("ns", .nat r.info.scope), ("name", .string r.info.name), ("id", .nat r.id),
    ("location", .string r.info.location), ("bit-size", .nat r.size),
    ("bit-alignment", .nat r.align)]

/-- The member with the fields of a record. -/
def RecordEntry.fieldsMember (r : RecordEntry) : String × Json :=
  ("fields", .array (r.fields.map FieldEntry.toJson))

/-- The tag of a record. -/
def recordTag (isUnion isClass : Bool) : String :=
  if isUnion then "union" else if isClass then "class" else "struct"

/-- The value of a C++ record. -/
def ClassEntry.toJson (c : ClassEntry) : Json :=
  tagged (recordTag c.record.isUnion c.isClass) <|
    c.record.members ++ templateMember c.templateArgs? ++
    [("parents", .array (c.parents.map ParentEntry.toJson)), c.record.fieldsMember,
      ("methods", .array (c.methods.map MethodEntry.toJson))]

/-- The member with Objective-C methods. -/
def methodsMember (methods : List FunctionEntry) : String × Json :=
  ("methods", .array (methods.map FunctionEntry.toJson))

/-- The value of an Objective-C class. -/
def InterfaceEntry.toJson (o : InterfaceEntry) : Json :=
  tagged (if o.isForward then "@class" else "@interface")
    [("name", .string o.info.name), ("location", .string o.info.location),
      ("superclass", .string o.superclass),
      ("protocols", .array (o.protocols.toList.map Json.string)),
      ("ivars", .array (o.ivars.map FieldEntry.toJson)), methodsMember o.methods]

/-! ## Variables -/

/-- Texts of values that are no JSON numbers although they are not texts of string literals. -/
def nonNumericValues : List String := ["inf", "-inf", "INF", "Inf", "nan", "NaN"]

/-- The member with the value of a variable. Without a value, and with an empty one, there is
none. A value that is not a text is a number and stands without quotation marks. -/
def constantMember (value? : Option String) (isString : Bool) : List (String × Json) :=
  match value? with
  | none => []
  | some value =>
    if value.isEmpty then []
    else if isString || value ∈ nonNumericValues then [("value", .string value)]
    else [("value", .number value)]

/-- The value of a variable. -/
def varToJson (info : EntryInfo) (type : TypeRef) (value? : Option String)
    (isExternal isString : Bool) : Json :=
  tagged (if isExternal then "extern" else "const") <|
    [("name", .string info.name), ("ns", .nat info.scope), ("location", .string info.location),
      ("type", type.toJson)] ++ constantMember value? isString

/-! ## Entries -/

/-- The value of an entry. -/
def Entry.toJson : Entry → Json
  | .unhandled i kind =>
    tagged "unhandled"
      [("name", .string i.name), ("kind", .string kind), ("location", .string i.location)]
  | .var i type value? isExternal isString => varToJson i type value? isExternal isString
  | .function f => f.toJson
  | .method m => m.toJson
  | .typedef i type => tagged "typedef" (i.members ++ [("type", type.toJson)])
  | .record r => tagged (recordTag r.isUnion false) (r.members ++ [r.fieldsMember])
  | .enum i id constants =>
    tagged "enum"
      [("ns", .nat i.scope), ("name", .string i.name), ("id", .nat id),
        ("location", .string i.location), ("fields", .array (constants.map constantToJson))]
  | .classRecord c => c.toJson
  | .namespaceBlock i id =>
    tagged "namespace" [("ns", .nat i.scope), ("name", .string i.name), ("id", .nat id)]
  | .typeAlias i type => tagged "type-alias" (i.members ++ [("type", type.toJson)])
  | .aliasTemplate i type args =>
    tagged "type-alias-template"
      (i.members ++ [("type", type.toJson), ("template", .array (templateArgsToJson args))])
  | .varTemplate i type args =>
    tagged "var-template"
      (i.members ++ [("type", type.toJson), ("template", .array (templateArgsToJson args))])
  | .usingDecl i => tagged "using" i.members
  | .usingShadow i => tagged "using-shadow" i.members
  | .usingDirective i => tagged "using-directive" i.members
  | .objcInterface o => o.toJson
  | .objcCategory i category methods =>
    tagged "@category"
      [("name", .string i.name), ("location", .string i.location),
        ("category", .string category), methodsMember methods]
  | .objcProtocol i methods =>
    tagged "@protocol"
      [("name", .string i.name), ("location", .string i.location), methodsMember methods]

/-! ## The writer -/

namespace JsonForm

/-- What stands between two items of the array. -/
def itemSeparator : String := ",\n"

/-- Write an entry. After the namespace the separator is still to be written: it waits for the first
entry, so that a document without entries is an array all the same. -/
def putEntry (e : Entry) : Emit Page Unit := do
  if (← get).afterNamespace then
    modify ({ · with afterNamespace := false })
    Page.put itemSeparator
  Page.put e.toJson.render

/-- Write the namespace, the first item of the array. -/
def putNamespace (name : String) : Emit Page Unit := do
  Page.put (tagged "namespace" [("name", .string name)]).render
  modify ({ · with afterNamespace := true })

/-- The writer of the JSON form. -/
def writer : DocumentWriter Page where
  header := Page.put "[\n"
  announce := putNamespace
  separator := Page.put itemSeparator
  entry := putEntry
  footer := Page.put "\n]\n"
  comment text := Page.put (tagged "comment" [("text", .string text)]).render
  type t := Page.put t.toJson.render

end JsonForm

end ForeignDecl
