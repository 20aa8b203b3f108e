import ForeignDecl.Document.JsonForm
import ForeignDecl.Proofs.Document.Streams
import Mathlib.Data.List.Forall2

/-!
# Objects in pieces

`JsonForm.writer` turns an entry into a value and writes the text of the value. A program that streams has
no use for the value. It opens an object with its tag and the members that are numbers and short texts,
writes the key of whatever is nested, then that itself, and closes the object: each as a text of its own,
with the comma in front of every member but the tag.

Here the writers of all types and entries are put together from these pieces, and they write what
`JsonForm.writer` does (`piecesWriter_eq`), so that whatever is proved about the one holds of the other.
The proofs go piece by piece. Pieces tell members, or a value (`TellMembers`, `TellValue`), and there is one
lemma for each way to put them together: they show where a comma goes that would be missing or one too many
otherwise.
-/

set_option autoImplicit false

namespace ForeignDecl

namespace JsonForm

/-! ## Pieces -/

/-- Members with their values, each after a comma. The keys are written as they are: they are known, and
nothing in them has to be escaped (`encode_of_mem_keys`). -/
def membersText (ms : List (String × Json)) : String :=
  String.join (ms.map fun m => ", \"" ++ m.1 ++ "\": " ++ m.2.render)

/-- Members that are written at once, if there are any. Nothing is written for none of them, so that
optional members can be empty lists. -/
def members (ms : List (String × Json)) : List String :=
  if ms.isEmpty then [] else [membersText ms]

/-- The beginning of an object, with the first of its members. -/
def opening (tag : String) (ms : List (String × Json)) : List String :=
  ("\x7b \"tag\": " ++ Text.Quoted.encode tag) :: members ms

/-- The key of a nested value. -/
def key (k : String) : List String := [", \"" ++ k ++ "\": "]

/-- The end of an object. -/
def closing : List String := [" \x7d"]

/-- An array of the values that the items tell. -/
def listing (items : List (List String)) : List String :=
  "[" :: ((items.intersperse [", "]).flatten ++ ["]"])

end JsonForm

open JsonForm

/-! ## Types -/

mutual

/-- The object of a type, as texts that are written one after the other. What is nested comes between an
opening and a closing that do not know it. -/
def TypeRef.pieces : TypeRef → List String
  | .simple name => opening name [] ++ closing
  | .basic name size align =>
    opening name [("bit-size", .nat size), ("bit-alignment", .nat align)] ++ closing
  | .bitfield base width =>
    opening ":bitfield" [("width", .nat width)] ++ (key "type" ++ base.pieces) ++ closing
  | .pointer target => opening ":pointer" [] ++ (key "type" ++ target.pieces) ++ closing
  | .reference target => opening ":reference" [] ++ (key "type" ++ target.pieces) ++ closing
  | .array element count =>
    opening ":array" [] ++ (key "type" ++ element.pieces ++ members [("size", .nat count)]) ++ closing
  | .record name id isUnion isClass =>
    opening (recordTypeTag isUnion isClass) [("name", .string name), ("id", .nat id)] ++ closing
  | .enum name id => opening ":enum" [("name", .string name), ("id", .nat id)] ++ closing
  | .template name id args =>
    opening ":template" [("name", .string name), ("id", .nat id)] ++
      (key "template" ++ listing (templateArgPieces args)) ++ closing

/-- The objects of template arguments. -/
def templateArgPieces : List (TypeRef × Option String) → List (List String)
  | [] => []
  | (type, value?) :: args =>
    (opening "parameter" [] ++ (key "type" ++ type.pieces ++ members (valueMember value?)) ++ closing) ::
      templateArgPieces args

end

/-! ## Parts of entries -/

/-- Template arguments, when there are any to tell. -/
def templatePieces : Option TemplateArgs → List String
  | some args => key "template" ++ listing (templateArgPieces args)
  | none => []

def FieldEntry.pieces (f : FieldEntry) : List String :=
  opening "field"
    [("name", .string f.name), ("bit-offset", .nat f.offset), ("bit-size", .nat f.size),
      ("bit-alignment", .nat f.align)] ++
  (key "type" ++ f.type.pieces) ++ closing

def fieldsPieces (fs : List FieldEntry) : List String := listing (fs.map FieldEntry.pieces)

def ParamEntry.pieces (p : ParamEntry) : List String :=
  opening "parameter" [("name", .string p.name)] ++ (key "type" ++ p.type.pieces) ++ closing

def enumeratorPieces (c : Enumerator) : List String :=
  opening "field" [("name", .string c.name), ("value", .int c.value)] ++ closing

def ParentEntry.pieces (p : ParentEntry) : List String :=
  opening "class"
    [("name", .string p.name), ("offset", .nat p.offset), ("is_virtual", .bool p.isVirtual),
      ("access", .string p.access.label)] ++ closing

/-- A function, with the members in `scope` between what it is and what it takes and gives. -/
def FunctionEntry.piecesWith (f : FunctionEntry) (scope : List (String × Json)) : List String :=
  opening "function"
    [("name", .string f.info.name), ("ns", .nat f.info.scope), ("location", .string f.info.location),
      ("variadic", .bool f.variadic), ("inline", .bool f.inlined),
      ("storage-class", .string f.storage.label)] ++
  (templatePieces f.templateArgs? ++ (members scope ++
    ((key "parameters" ++ listing (f.params.map ParamEntry.pieces)) ++
      (key "return-type" ++ f.result.pieces)))) ++ closing

def FunctionEntry.pieces (f : FunctionEntry) : List String := f.piecesWith (scopeMember f.objcScope?)

def MethodEntry.pieces (m : MethodEntry) : List String :=
  m.function.piecesWith
    [("scope", .string (if m.isStatic then MethodScope.onClass else .onInstance).label),
      ("virtual", .bool m.isVirtual), ("pure", .bool m.isPure), ("const", .bool m.isConst)]

/-- What has a scope, a name, a place and a type. Whatever else it has comes after the type. -/
def typedPieces (tag : String) (i : EntryInfo) (type : TypeRef) (rest : List String) : List String :=
  opening tag i.members ++ (key "type" ++ type.pieces ++ rest) ++ closing

def methodsPieces (methods : List FunctionEntry) : List String :=
  key "methods" ++ listing (methods.map FunctionEntry.pieces)

def ClassEntry.pieces (c : ClassEntry) : List String :=
  opening (recordTag c.record.isUnion c.isClass) c.record.members ++
  (templatePieces c.templateArgs? ++
    ((key "parents" ++ listing (c.parents.map ParentEntry.pieces)) ++
      ((key "fields" ++ fieldsPieces c.record.fields) ++
        (key "methods" ++ listing (c.methods.map MethodEntry.pieces))))) ++ closing

def InterfaceEntry.pieces (o : InterfaceEntry) : List String :=
  opening (if o.isForward then "@class" else "@interface")
    [("name", .string o.info.name), ("location", .string o.info.location),
      ("superclass", .string o.superclass)] ++
  ((key "protocols" ++ listing (o.protocols.toList.map fun p => [Text.Quoted.encode p])) ++
    (key "ivars" ++ fieldsPieces o.ivars) ++ methodsPieces o.methods) ++ closing

/-! ## Entries -/

/-- The object of an entry. -/
def Entry.pieces : Entry → List String
  | .unhandled i kind =>
    opening "unhandled"
      [("name", .string i.name), ("kind", .string kind), ("location", .string i.location)] ++ closing
  | .var i type value? isExternal isString =>
    opening (if isExternal then "extern" else "const")
      [("name", .string i.name), ("ns", .nat i.scope), ("location", .string i.location)] ++
    (key "type" ++ type.pieces ++ members (constantMember value? isString)) ++ closing
  | .function f => f.pieces
  | .method m => m.pieces
  | .typedef i type => typedPieces "typedef" i type []
  | .record r =>
    opening (recordTag r.isUnion false) r.members ++ (key "fields" ++ fieldsPieces r.fields) ++ closing
  | .enum i id constants =>
    opening "enum"
      [("ns", .nat i.scope), ("name", .string i.name), ("id", .nat id), ("location", .string i.location)] ++
    (key "fields" ++ listing (constants.map enumeratorPieces)) ++ closing
  | .classRecord c => c.pieces
  | .namespaceBlock i id =>
    opening "namespace" [("ns", .nat i.scope), ("name", .string i.name), ("id", .nat id)] ++ closing
  | .typeAlias i type => typedPieces "type-alias" i type []
  | .aliasTemplate i type args => typedPieces "type-alias-template" i type (templatePieces (some args))
  | .varTemplate i type args => typedPieces "var-template" i type (templatePieces (some args))
  | .usingDecl i => opening "using" i.members ++ closing
  | .usingShadow i => opening "using-shadow" i.members ++ closing
  | .usingDirective i => opening "using-directive" i.members ++ closing
  | .objcInterface o => o.pieces
  | .objcCategory i category methods =>
    opening "@category"
      [("name", .string i.name), ("location", .string i.location), ("category", .string category)] ++
    methodsPieces methods ++ closing
  | .objcProtocol i methods =>
    opening "@protocol" [("name", .string i.name), ("location", .string i.location)] ++
    methodsPieces methods ++ closing

namespace JsonForm

/-! ## What pieces tell -/

/-- Keys that are written as they are. -/
def keys : List String :=
  ["name", "ns", "location", "id", "kind", "type", "value", "template", "fields", "parents", "methods",
    "bit-size", "bit-alignment", "bit-offset", "width", "size", "offset", "is_virtual", "access",
    "variadic", "inline", "storage-class", "scope", "virtual", "pure", "const", "parameters",
    "return-type", "superclass", "protocols", "ivars", "category", "text"]

/-- None of the keys has a character that would be escaped. -/
theorem encode_of_mem_keys : ∀ {k : String}, k ∈ keys → Text.Quoted.encode k = "\"" ++ k ++ "\"" := by
  intro k hk
  have hall : ∀ k ∈ keys, Text.Quoted.encode k = "\"" ++ k ++ "\"" := by decide +kernel
  exact hall k hk

/-- A key that is written as it is looks like one that is encoded. -/
theorem keyText_eq {k : String} (hk : k ∈ keys) :
    ", \"" ++ k ++ "\": " = ", " ++ Text.Quoted.encode k ++ ": " := by
  have hcomma : ", \"" = ", " ++ "\"" := by decide
  have hcolon : "\": " = "\"" ++ ": " := by decide
  rw [encode_of_mem_keys hk, hcomma, hcolon]
  simp only [String.append_assoc]

/-- What follows the first member of an object: the other members, each after a comma. The first member
is the tag, which every object has. -/
def following (ms : List (String × Json)) : String :=
  String.join (ms.map fun m => ", " ++ Text.Quoted.encode m.1 ++ ": " ++ m.2.render)

/-- Members that are told in two goes follow the tag as all of them at once do. -/
theorem following_append (ms ms' : List (String × Json)) :
    following (ms ++ ms') = following ms ++ following ms' := by
  simp [following, String.join_append]

/-- The text of members is that of the first, and what follows it. -/
theorem renderMembers_cons (k : String) (v : Json) (ms : List (String × Json)) :
    Json.renderMembers ((k, v) :: ms) = Text.Quoted.encode k ++ ": " ++ v.render ++ following ms := by
  induction ms generalizing k v with
  | nil => simp [Json.renderMembers, following]
  | cons m ms ih => simp [Json.renderMembers, ih, following, String.join_cons, String.append_assoc]

/-- The pieces write the members, each after a comma. The relation says nothing about how many pieces
there are. -/
def TellMembers (ps : List String) (ms : List (String × Json)) : Prop := String.join ps = following ms

/-- The pieces write the value: joined, they are its text. How a text is cut into pieces is left open,
as the reader of a document cannot tell. -/
def TellValue (ps : List String) (v : Json) : Prop := String.join ps = v.render

section Tell

variable {ps ps' : List String} {ms ms' : List (String × Json)} {v : Json} {k tag : String}

theorem tellMembers_nil : TellMembers [] [] := rfl

theorem TellMembers.append (h : TellMembers ps ms) (h' : TellMembers ps' ms') :
    TellMembers (ps ++ ps') (ms ++ ms') := by
  rw [TellMembers, String.join_append, h, h', following_append]

/-- What is written at once is what members are. -/
theorem membersText_eq (hms : ∀ m ∈ ms, m.1 ∈ keys) : membersText ms = following ms := by
  unfold membersText following
  congr 1
  exact List.map_congr_left fun m hm => by rw [keyText_eq (hms m hm)]

theorem tellMembers_members (hms : ∀ m ∈ ms, m.1 ∈ keys) : TellMembers (members ms) ms := by
  unfold members
  split
  · next hempty =>
    rw [List.isEmpty_iff.1 hempty]
    exact tellMembers_nil
  · rw [TellMembers, ← membersText_eq hms]
    simp

/-- A key, and then the pieces of what is nested under it. -/
theorem tellMembers_key (hk : k ∈ keys) (h : TellValue ps v) : TellMembers (key k ++ ps) [(k, v)] := by
  rw [TellMembers, String.join_append, h, key, keyText_eq hk]
  simp [following]

/-- An object that was opened with some members and told others before it was closed. Where the two
lists are divided makes no difference to the value. -/
theorem tellValue_object (hms : ∀ m ∈ ms, m.1 ∈ keys) (h : TellMembers ps ms') :
    TellValue (opening tag ms ++ ps ++ closing) (tagged tag (ms ++ ms')) := by
  have hfirst := tellMembers_members hms
  have htag : "\x7b \"tag\": " = "\x7b " ++ Text.Quoted.encode "tag" ++ ": " := by decide +kernel
  rw [TellMembers] at h hfirst
  simp only [TellValue, opening, closing, tagged, Json.render, renderMembers_cons, following_append, htag]
  simp [h, hfirst, String.append_assoc]

/-- One that is opened and closed with nothing in between. -/
theorem tellValue_bare (hms : ∀ m ∈ ms, m.1 ∈ keys) :
    TellValue (opening tag ms ++ closing) (tagged tag ms) := by
  have h : TellValue (opening tag ms ++ [] ++ closing) (tagged tag (ms ++ [])) :=
    tellValue_object hms tellMembers_nil
  rwa [List.append_nil, List.append_nil] at h

/-- The commas of an array go between the items, not behind each of them. -/
theorem join_intersperse : ∀ {items : List (List String)} {vs : List Json},
    List.Forall₂ TellValue items vs → String.join (items.intersperse [", "]).flatten = Json.renderItems vs
  | _, _, .nil => rfl
  | _, _, .cons h .nil => by simpa [Json.renderItems, TellValue] using h
  | _, _, .cons h (.cons h' hs) => by
    have hrest := join_intersperse (.cons h' hs)
    rw [TellValue] at h
    simp [Json.renderItems, String.join_append, h, hrest, String.append_assoc]

/-- An array of what the items tell. -/
theorem tellValue_listing {items : List (List String)} {vs : List Json}
    (h : List.Forall₂ TellValue items vs) : TellValue (listing items) (.array vs) := by
  simp [TellValue, listing, Json.render, String.join_append, join_intersperse h, String.append_assoc]

theorem tellValue_listing_map {α : Type} {f : α → List String} {g : α → Json}
    (h : ∀ a, TellValue (f a) (g a)) (as : List α) :
    TellValue (listing (as.map f)) (.array (as.map g)) := by
  refine tellValue_listing ?_
  rw [List.forall₂_map_left_iff, List.forall₂_map_right_iff]
  exact List.forall₂_same.2 fun a _ => h a

end Tell

/-! ## Types -/

theorem tellMembers_valueMember (value? : Option String) :
    TellMembers (members (valueMember value?)) (valueMember value?) :=
  tellMembers_members (by cases value? <;> simp [valueMember, keys])

mutual

/-- **The pieces of a type write its value**, with the pieces of nested types inside. -/
theorem tellValue_typeRef : ∀ t : TypeRef, TellValue t.pieces t.toJson
  | .simple name => tellValue_bare (by simp)
  | .basic name size align => tellValue_bare (by simp [keys])
  | .bitfield base width =>
    tellValue_object (by simp [keys]) (tellMembers_key (by simp [keys]) (tellValue_typeRef base))
  | .pointer target =>
    tellValue_object (by simp) (tellMembers_key (by simp [keys]) (tellValue_typeRef target))
  | .reference target =>
    tellValue_object (by simp) (tellMembers_key (by simp [keys]) (tellValue_typeRef target))
  | .array element count =>
    have helement := tellMembers_key (k := "type") (by simp [keys]) (tellValue_typeRef element)
    tellValue_object (by simp) (helement.append (tellMembers_members (by simp [keys])))
  | .record name id isUnion isClass => tellValue_bare (by simp [keys])
  | .enum name id => tellValue_bare (by simp [keys])
  | .template name id args =>
    tellValue_object (by simp [keys])
      (tellMembers_key (by simp [keys]) (tellValue_listing (tellValue_templateArgs args)))

theorem tellValue_templateArgs : ∀ args : TemplateArgs,
    List.Forall₂ TellValue (templateArgPieces args) (templateArgsToJson args)
  | [] => .nil
  | (type, value?) :: args =>
    have htype := tellMembers_key (k := "type") (by simp [keys]) (tellValue_typeRef type)
    .cons (tellValue_object (by simp) (htype.append (tellMembers_valueMember value?)))
      (tellValue_templateArgs args)

end

/-! ## Parts of entries -/

theorem tellMembers_template (args? : Option TemplateArgs) :
    TellMembers (templatePieces args?) (templateMember args?) := by
  cases args? with
  | none => exact tellMembers_nil
  | some args =>
    exact tellMembers_key (by simp [keys]) (tellValue_listing (tellValue_templateArgs args))

theorem tellMembers_type (type : TypeRef) :
    TellMembers (key "type" ++ type.pieces) [("type", type.toJson)] :=
  tellMembers_key (by simp [keys]) (tellValue_typeRef type)

theorem tellValue_field (f : FieldEntry) : TellValue f.pieces f.toJson :=
  tellValue_object (by simp [keys]) (tellMembers_type f.type)

theorem tellValue_param (p : ParamEntry) : TellValue p.pieces p.toJson :=
  tellValue_object (by simp [keys]) (tellMembers_type p.type)

theorem tellValue_enumerator (c : Enumerator) : TellValue (enumeratorPieces c) (constantToJson c) :=
  tellValue_bare (by simp [keys])

theorem tellValue_parent (p : ParentEntry) : TellValue p.pieces p.toJson := tellValue_bare (by simp [keys])

/-- A key with an array of things that are all told in the same way. -/
theorem tellMembers_list {α : Type} {f : α → List String} {g : α → Json} {k : String} (hk : k ∈ keys)
    (h : ∀ a, TellValue (f a) (g a)) (as : List α) :
    TellMembers (key k ++ listing (as.map f)) [(k, .array (as.map g))] :=
  tellMembers_key hk (tellValue_listing_map h as)

theorem tellValue_functionWith (f : FunctionEntry) {scope : List (String × Json)}
    (hscope : ∀ m ∈ scope, m.1 ∈ keys) : TellValue (f.piecesWith scope) (f.toJsonWith scope) := by
  have hparams := tellMembers_list (k := "parameters") (by simp [keys]) tellValue_param f.params
  have hresult := tellMembers_key (k := "return-type") (by simp [keys]) (tellValue_typeRef f.result)
  unfold FunctionEntry.toJsonWith
  rw [List.append_assoc, List.append_assoc]
  exact tellValue_object (by simp [keys]) ((tellMembers_template f.templateArgs?).append
    ((tellMembers_members hscope).append (hparams.append hresult)))

theorem tellValue_function (f : FunctionEntry) : TellValue f.pieces f.toJson :=
  tellValue_functionWith f (by cases f.objcScope? <;> simp [scopeMember, keys])

theorem tellValue_method (m : MethodEntry) : TellValue m.pieces m.toJson :=
  tellValue_functionWith m.function (by simp [keys])

theorem tellMembers_fields {k : String} (hk : k ∈ keys) (fs : List FieldEntry) :
    TellMembers (key k ++ fieldsPieces fs) [(k, .array (fs.map FieldEntry.toJson))] :=
  tellMembers_list hk tellValue_field fs

theorem tellMembers_methods (methods : List FunctionEntry) :
    TellMembers (methodsPieces methods) [methodsMember methods] :=
  tellMembers_list (by simp [keys]) tellValue_function methods

/-- What has a type is told with its pieces in the middle, and the rest behind. -/
theorem tellValue_typed (tag : String) (i : EntryInfo) (type : TypeRef) {rest : List String}
    {ms : List (String × Json)} (h : TellMembers rest ms) :
    TellValue (typedPieces tag i type rest) (tagged tag (i.members ++ (("type", type.toJson) :: ms))) :=
  tellValue_object (by simp [EntryInfo.members, keys]) ((tellMembers_type type).append h)

theorem tellValue_class (c : ClassEntry) : TellValue c.pieces c.toJson := by
  have hparents := tellMembers_list (k := "parents") (by simp [keys]) tellValue_parent c.parents
  have hfields := tellMembers_fields (k := "fields") (by simp [keys]) c.record.fields
  have hmethods := tellMembers_list (k := "methods") (by simp [keys]) tellValue_method c.methods
  unfold ClassEntry.toJson
  rw [List.append_assoc]
  exact tellValue_object (by simp [RecordEntry.members, keys])
    ((tellMembers_template c.templateArgs?).append (hparents.append (hfields.append hmethods)))

theorem tellValue_interface (o : InterfaceEntry) : TellValue o.pieces o.toJson := by
  have hprotocols := tellMembers_list (k := "protocols") (by simp [keys])
    (f := fun p => [Text.Quoted.encode p]) (g := Json.string) (fun p => by simp [TellValue, Json.render])
    o.protocols.toList
  have hivars := tellMembers_fields (k := "ivars") (by simp [keys]) o.ivars
  exact tellValue_object (by simp [keys])
    ((hprotocols.append hivars).append (tellMembers_methods o.methods))

/-! ## Entries -/

/-- The value of a variable, if there is one to tell. -/
theorem tellMembers_constant (value? : Option String) (isString : Bool) :
    TellMembers (members (constantMember value? isString)) (constantMember value? isString) := by
  refine tellMembers_members ?_
  unfold constantMember
  split
  · simp
  · split_ifs <;> simp [keys]

/-- **The pieces of an entry write its value.** -/
theorem tellValue_entry (e : Entry) : TellValue e.pieces e.toJson := by
  cases e with
  | function f => exact tellValue_function f
  | method m => exact tellValue_method m
  | classRecord c => exact tellValue_class c
  | objcInterface o => exact tellValue_interface o
  | var i type value? isExternal isString =>
    exact tellValue_object (by simp [keys])
      ((tellMembers_type type).append (tellMembers_constant value? isString))
  | typedef i type | typeAlias i type => exact tellValue_typed _ i type tellMembers_nil
  | aliasTemplate i type args | varTemplate i type args =>
    exact tellValue_typed _ i type (tellMembers_template (some args))
  | record r =>
    exact tellValue_object (by simp [RecordEntry.members, keys])
      (tellMembers_fields (by simp [keys]) r.fields)
  | enum i id constants =>
    exact tellValue_object (by simp [keys])
      (tellMembers_list (by simp [keys]) tellValue_enumerator constants)
  | unhandled i kind | namespaceBlock i id => exact tellValue_bare (by simp [keys])
  | usingDecl i | usingShadow i | usingDirective i =>
    exact tellValue_bare (by simp [EntryInfo.members, keys])
  | objcCategory i category methods | objcProtocol i methods =>
    exact tellValue_object (by simp [keys]) (tellMembers_methods methods)

end JsonForm

/-! ## The writer -/

/-- Write texts one after the other. -/
def Page.putAll (texts : List String) : Emit Page Unit := texts.forM Page.put

/-- On a page as on its sink, it makes no difference where a text is cut. -/
theorem Page.put_append (text text' : String) :
    Page.put (text ++ text') = Page.put text >>= fun _ => Page.put text' := by
  funext p
  unfold Page.put
  rw [Sink.put_append]
  simp only [bind, EStateM.bind]
  cases Sink.put text p.sink with
  | ok _ sink => rfl
  | error e sink => rfl

/-- **It does not matter how a text is cut into pieces**, not even where the sink runs full. -/
theorem Page.putAll_eq : ∀ texts : List String, Page.putAll texts = Page.put (String.join texts)
  | [] => by
    have hnone : Sink.put (String.join []) = pure () := Sink.put_join []
    funext p
    unfold Page.put
    rw [hnone]
    rfl
  | text :: texts => by
    rw [String.join_cons, Page.put_append, ← Page.putAll_eq texts]
    rfl

namespace JsonForm

/-- Write an entry piece by piece, after the separator if one is due. -/
def putEntryPieces (e : Entry) : Emit Page Unit := do
  if (← get).afterNamespace then
    modify ({ · with afterNamespace := false })
    Page.put itemSeparator
  Page.putAll e.pieces

/-- The writer of the JSON form that writes each object piece by piece, as it comes to its members. No
value is ever built. It is equal to the writer that renders values (`piecesWriter_eq`), so all that is
proved about that one holds of the pieces too. -/
def piecesWriter : DocumentWriter Page where
  header := Page.put "[\n"
  announce name := do
    Page.putAll (opening "namespace" [("name", .string name)] ++ closing)
    modify ({ · with afterNamespace := true })
  separator := Page.put itemSeparator
  entry := putEntryPieces
  footer := Page.put "\n]\n"
  comment text := Page.putAll (opening "comment" [("text", .string text)] ++ closing)
  type t := Page.putAll t.pieces

/-- Pieces that tell a value are written as the value is. -/
theorem TellValue.putAll_eq {ps : List String} {v : Json} (h : TellValue ps v) :
    Page.putAll ps = Page.put v.render := by
  rw [Page.putAll_eq, h]

/-- **Piece by piece the writer does what it does value by value**, into every sink. -/
theorem piecesWriter_eq : piecesWriter = writer := by
  have hnamespace : ∀ name, TellValue (opening "namespace" [("name", .string name)] ++ closing)
      (tagged "namespace" [("name", .string name)]) := fun name => tellValue_bare (by simp [keys])
  have hcomment : ∀ text, TellValue (opening "comment" [("text", .string text)] ++ closing)
      (tagged "comment" [("text", .string text)]) := fun text => tellValue_bare (by simp [keys])
  unfold piecesWriter writer putNamespace
  congr 1
  · funext name
    rw [(hnamespace name).putAll_eq]
  · funext e
    unfold putEntryPieces putEntry
    rw [(tellValue_entry e).putAll_eq]
  · funext text
    rw [(hcomment text).putAll_eq]
  · funext t
    rw [(tellValue_typeRef t).putAll_eq]

end JsonForm

end ForeignDecl
