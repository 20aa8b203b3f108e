import ForeignDecl.Document.JsonForm
import ForeignDecl.Proofs.Decimal.Text
import ForeignDecl.Proofs.Document.Calls

/-!
# The JSON form is JSON

Two things have to be right for a document to be readable. The values have to be well formed: no
object may have a key twice, and what stands without quotation marks has to be a number. And the
pieces between the values have to fit, also around the namespace, whose separator is written only
when an entry follows it. `performs_protocol` is about the pieces, `Entry.wellFormed_toJson` about the
values.
-/

set_option autoImplicit false

namespace ForeignDecl

open Json

/-! ## Well-formed values -/

namespace Json

@[simp]
theorem wellFormed_string (text : String) : (string text).WellFormed := .string text

@[simp]
theorem wellFormed_bool (b : Bool) : (bool b).WellFormed := .bool b

@[simp]
theorem wellFormed_nat (n : Nat) : (nat n).WellFormed := .number (isNumber_nat n)

@[simp]
theorem wellFormed_int (n : Int) : (int n).WellFormed := .number (isNumber_int n)

theorem wellFormed_map {α : Type} {f : α → Json} (h : ∀ a, (f a).WellFormed) (as : List α) :
    (array (as.map f)).WellFormed := by
  refine .array fun j hj => ?_
  obtain ⟨a, _, rfl⟩ := List.mem_map.1 hj
  exact h a

/-- An object with a tag. The tag is written as a member like the others, so it has to be another key
than all of them. -/
theorem wellFormed_tagged {tag : String} {members : List (String × Json)}
    (keys : ("tag" :: members.map Prod.fst).Nodup) (values : ∀ m ∈ members, m.2.WellFormed) :
    (tagged tag members).WellFormed := by
  refine .object keys fun m hm => ?_
  rcases List.mem_cons.1 hm with rfl | hm
  · exact .string tag
  · exact values m hm

/-- When some members may be missing, the keys are compared with those of all of them. -/
theorem wellFormed_tagged_of_sublist {tag : String} {members : List (String × Json)}
    {all : List String} (hsub : (members.map Prod.fst).Sublist all) (hall : ("tag" :: all).Nodup)
    (values : ∀ m ∈ members, m.2.WellFormed) : (tagged tag members).WellFormed :=
  wellFormed_tagged (hall.sublist (hsub.cons_cons "tag")) values

end Json

/-! ## Types -/

mutual

/-- The value of a type. One case for each kind of type, and the same for the list of template
arguments, in which types are nested. -/
theorem TypeRef.wellFormed_toJson : ∀ t : TypeRef, t.toJson.WellFormed
  | .simple name => wellFormed_tagged (by simp) (by simp)
  | .basic name size align => wellFormed_tagged (by simp) (by simp)
  | .bitfield base width =>
    have := base.wellFormed_toJson
    wellFormed_tagged (by simp) (by simpa)
  | .pointer target =>
    have := target.wellFormed_toJson
    wellFormed_tagged (by simp) (by simpa)
  | .reference target =>
    have := target.wellFormed_toJson
    wellFormed_tagged (by simp) (by simpa)
  | .array element count =>
    have := element.wellFormed_toJson
    wellFormed_tagged (by simp) (by simpa)
  | .record name id isUnion isClass => wellFormed_tagged (by simp) (by simp)
  | .enum name id => wellFormed_tagged (by simp) (by simp)
  | .template name id args =>
    have := wellFormed_templateArgs args
    wellFormed_tagged (by simp) (by simpa)

theorem wellFormed_templateArgs :
    ∀ args : TemplateArgs, (Json.array (templateArgsToJson args)).WellFormed
  | [] => .array (by simp [templateArgsToJson])
  | (type, value?) :: args => by
    have htype := type.wellFormed_toJson
    have harg : (tagged "parameter" (("type", type.toJson) :: valueMember value?)).WellFormed := by
      cases value? with
      | none => exact wellFormed_tagged (by simp [valueMember]) (by simpa [valueMember] using htype)
      | some value => exact wellFormed_tagged (by simp [valueMember]) (by simpa [valueMember] using htype)
    have hargs := wellFormed_templateArgs args
    cases hargs with
    | array hargs =>
      refine .array fun j hj => ?_
      rw [templateArgsToJson] at hj
      rcases List.mem_cons.1 hj with rfl | hj
      · exact harg
      · exact hargs j hj

end

/-! ## Parts of entries -/

/-- A member that may be missing has the one key or none, and what is there is well formed. -/
theorem templateMember_keys (args? : Option TemplateArgs) :
    ((templateMember args?).map Prod.fst).Sublist ["template"] := by
  cases args? with
  | none => exact List.nil_sublist _
  | some args => exact .refl _

theorem templateMember_values (args? : Option TemplateArgs) :
    ∀ m ∈ templateMember args?, m.2.WellFormed := by
  cases args? with
  | none => simp [templateMember]
  | some args => simpa [templateMember] using wellFormed_templateArgs args

@[simp]
theorem FieldEntry.wellFormed_toJson (f : FieldEntry) : f.toJson.WellFormed := by
  have htype := f.type.wellFormed_toJson
  exact wellFormed_tagged (by simp) (by simpa using htype)

@[simp]
theorem ParamEntry.wellFormed_toJson (p : ParamEntry) : p.toJson.WellFormed := by
  have htype := p.type.wellFormed_toJson
  exact wellFormed_tagged (by simp) (by simpa using htype)

@[simp]
theorem wellFormed_constantToJson (c : Enumerator) : (constantToJson c).WellFormed :=
  wellFormed_tagged (by simp) (by simp)

@[simp]
theorem ParentEntry.wellFormed_toJson (p : ParentEntry) : p.toJson.WellFormed :=
  wellFormed_tagged (by simp) (by simp)

/-- A function is well formed with whatever a kind of function adds to it, of the keys that the kinds
of functions have. -/
theorem FunctionEntry.wellFormed_toJsonWith (f : FunctionEntry) {scope : List (String × Json)}
    (hkeys : (scope.map Prod.fst).Sublist ["scope", "virtual", "pure", "const"])
    (hvalues : ∀ m ∈ scope, m.2.WellFormed) : (f.toJsonWith scope).WellFormed := by
  have hresult := f.result.wellFormed_toJson
  have hparams := wellFormed_map ParamEntry.wellFormed_toJson f.params
  have hsub := (((List.Sublist.refl
    ["name", "ns", "location", "variadic", "inline", "storage-class"]).append
      (templateMember_keys f.templateArgs?)).append hkeys).append
        (List.Sublist.refl ["parameters", "return-type"])
  unfold toJsonWith
  refine wellFormed_tagged_of_sublist (by simp only [List.map_append]; exact hsub) (by decide) ?_
  simp only [List.forall_mem_append]
  exact ⟨⟨⟨by simp, templateMember_values _⟩, hvalues⟩, by simpa using ⟨hparams, hresult⟩⟩

@[simp]
theorem FunctionEntry.wellFormed_toJson (f : FunctionEntry) : f.toJson.WellFormed := by
  unfold toJson
  cases f.objcScope? with
  | none => exact f.wellFormed_toJsonWith (List.nil_sublist _) (by simp [scopeMember])
  | some scope => exact f.wellFormed_toJsonWith (by simp [scopeMember]) (by simp [scopeMember])

@[simp]
theorem MethodEntry.wellFormed_toJson (m : MethodEntry) : m.toJson.WellFormed :=
  m.function.wellFormed_toJsonWith (.refl _) (by simp)

@[simp]
theorem RecordEntry.wellFormed_fieldsMember (r : RecordEntry) : r.fieldsMember.2.WellFormed :=
  wellFormed_map FieldEntry.wellFormed_toJson r.fields

@[simp]
theorem wellFormed_methodsMember (methods : List FunctionEntry) :
    (methodsMember methods).2.WellFormed :=
  wellFormed_map FunctionEntry.wellFormed_toJson methods

theorem ClassEntry.wellFormed_toJson (c : ClassEntry) : c.toJson.WellFormed := by
  have hparents := wellFormed_map ParentEntry.wellFormed_toJson c.parents
  have hmethods := wellFormed_map MethodEntry.wellFormed_toJson c.methods
  have hsub := ((List.Sublist.refl
    ["ns", "name", "id", "location", "bit-size", "bit-alignment"]).append
      (templateMember_keys c.templateArgs?)).append
        (List.Sublist.refl ["parents", "fields", "methods"])
  unfold toJson
  refine wellFormed_tagged_of_sublist (by simp only [List.map_append]; exact hsub) (by decide) ?_
  simp only [List.forall_mem_append]
  exact ⟨⟨by simp [RecordEntry.members], templateMember_values _⟩,
    by simpa using ⟨hparents, hmethods⟩⟩

theorem InterfaceEntry.wellFormed_toJson (o : InterfaceEntry) : o.toJson.WellFormed := by
  have hprotocols := wellFormed_map wellFormed_string o.protocols.toList
  have hivars := wellFormed_map FieldEntry.wellFormed_toJson o.ivars
  exact wellFormed_tagged (by simp [methodsMember]) (by simpa using ⟨hprotocols, hivars⟩)

/-! ## Entries -/

/-- A value of a variable that is no string literal is a number, or gets quotation marks. It holds of
what a front end evaluates, and without it a document need not be JSON, since the text is written as it
is. -/
def Entry.HasValue : Entry → Prop
  | .var _ _ value? _ isString =>
    ∀ value ∈ value?, isString = false → value ∈ nonNumericValues ∨ IsNumber value
  | _ => True

/-- The value of a variable is the only number in a document that is not computed here: it comes from
the front end as a text. -/
theorem wellFormed_varToJson (i : EntryInfo) (type : TypeRef) (value? : Option String)
    (isExternal isString : Bool) (h : (Entry.var i type value? isExternal isString).HasValue) :
    (varToJson i type value? isExternal isString).WellFormed := by
  have htype := type.wellFormed_toJson
  have hkeys : ((constantMember value? isString).map Prod.fst).Sublist ["value"] := by
    unfold constantMember
    split
    · exact List.nil_sublist _
    · split_ifs
      · exact List.nil_sublist _
      · exact .refl _
      · exact .refl _
  have hvalues : ∀ m ∈ constantMember value? isString, m.2.WellFormed := by
    unfold constantMember
    split
    · simp
    · next value =>
      split_ifs with hempty hquoted
      · simp
      · simp
      · simp only [Bool.or_eq_true, decide_eq_true_eq, not_or, Bool.not_eq_true] at hquoted
        obtain ⟨rfl, hnumeric⟩ := hquoted
        have hnumber : IsNumber value := (h value rfl rfl).resolve_left hnumeric
        simpa using WellFormed.number hnumber
  have hsub := (List.Sublist.refl ["name", "ns", "location", "type"]).append hkeys
  unfold varToJson
  refine wellFormed_tagged_of_sublist (by simp only [List.map_append]; exact hsub) (by decide) ?_
  simp only [List.forall_mem_append]
  exact ⟨by simpa using htype, hvalues⟩

/-- **Every entry has a well-formed value**, whatever its names and spellings are. -/
theorem Entry.wellFormed_toJson {e : Entry} (h : e.HasValue) : e.toJson.WellFormed := by
  cases e with
  | var i type value? isExternal isString => exact wellFormed_varToJson _ _ _ _ _ h
  | function f => exact f.wellFormed_toJson
  | method m => exact m.wellFormed_toJson
  | classRecord c => exact c.wellFormed_toJson
  | objcInterface o => exact o.wellFormed_toJson
  | typedef i type | typeAlias i type =>
    have htype := type.wellFormed_toJson
    exact wellFormed_tagged (by simp [EntryInfo.members]) (by simpa [EntryInfo.members] using htype)
  | aliasTemplate i type args | varTemplate i type args =>
    have htype := type.wellFormed_toJson
    have hargs := wellFormed_templateArgs args
    exact wellFormed_tagged (by simp [EntryInfo.members])
      (by simpa [EntryInfo.members] using ⟨htype, hargs⟩)
  | record r =>
    exact wellFormed_tagged (by simp [RecordEntry.members, RecordEntry.fieldsMember])
      (by simp [RecordEntry.members])
  | enum i id constants =>
    have hconstants := wellFormed_map wellFormed_constantToJson constants
    exact wellFormed_tagged (by simp) (by simpa using hconstants)
  | unhandled i kind => exact wellFormed_tagged (by simp) (by simp)
  | namespaceBlock i id => exact wellFormed_tagged (by simp) (by simp)
  | usingDecl i | usingShadow i | usingDirective i =>
    exact wellFormed_tagged (by simp [EntryInfo.members]) (by simp [EntryInfo.members])
  | objcCategory i category methods => exact wellFormed_tagged (by simp [methodsMember]) (by simp)
  | objcProtocol i methods => exact wellFormed_tagged (by simp [methodsMember]) (by simp)

/-! ## The text of a document -/

namespace Page

/-- The page with more text in its sink. -/
def write (text : String) (p : Page) : Page :=
  { p with sink := { p.sink with contents := p.sink.contents ++ text.toUTF8 } }

/-- Without a limit everything is written whole. -/
theorem put_of_unlimited {p : Page} (h : p.sink.limit? = none) (text : String) :
    put text p = .ok () (p.write text) := by
  simp [put, Sink.put_of_unlimited h, write]

/-- Texts that are written one after the other are one text. -/
theorem write_write (p : Page) (text text' : String) :
    (p.write text).write text' = p.write (text ++ text') := by
  simp [write, ByteArray.append_assoc]

@[simp]
theorem limit?_write (p : Page) (text : String) : (p.write text).sink.limit? = p.sink.limit? := rfl

@[simp]
theorem afterNamespace_write (p : Page) (text : String) :
    (p.write text).afterNamespace = p.afterNamespace := rfl

end Page

namespace JsonForm

/-- A separator that is due from the namespace is written first. -/
theorem putEntry_eq (e : Entry) (p : Page) :
    putEntry e p =
      if p.afterNamespace then
        (Page.put itemSeparator >>= fun _ => Page.put e.toJson.render)
          { p with afterNamespace := false }
      else Page.put e.toJson.render p := by
  obtain ⟨sink, afterNamespace⟩ := p
  cases afterNamespace with
  | false => rfl
  | true => rfl

/-- What an entry leaves on a page: the separator that was due, and its value. -/
theorem perform_entry {p : Page} (h : p.sink.limit? = none) (e : Entry) :
    writer.perform (.entry e) p =
      .ok () (({ p with afterNamespace := false } : Page).write
        ((if p.afterNamespace then itemSeparator else "") ++ e.toJson.render)) := by
  change putEntry e p = _
  rw [putEntry_eq]
  cases hdue : p.afterNamespace with
  | false =>
    have hsame : ({ p with afterNamespace := false } : Page) = p := by rw [← hdue]
    rw [if_neg (by simp), Page.put_of_unlimited h, hsame]
    simp
  | true =>
    rw [if_pos rfl]
    simp [bind, EStateM.bind, Page.put_of_unlimited, h, Page.write_write]

/-- The namespace is written without a separator, which is due from then on. -/
theorem perform_announce {p : Page} (h : p.sink.limit? = none) (name : String) :
    writer.perform (.announce name) p =
      .ok () { p.write (tagged "namespace" [("name", .string name)]).render with
        afterNamespace := true } := by
  change putNamespace name p = _
  simp only [putNamespace, bind, EStateM.bind, Page.put_of_unlimited h]
  rfl

/-- **Nothing limits what is written, so nothing fails.** -/
theorem writer_accepts : writer.Accepts fun p => p.sink.limit? = none := by
  intro c p h
  cases c with
  | header => exact ⟨_, Page.put_of_unlimited h _, h⟩
  | announce name => exact ⟨_, perform_announce h name, h⟩
  | separator => exact ⟨_, Page.put_of_unlimited h _, h⟩
  | entry e => exact ⟨_, perform_entry h e, h⟩
  | footer => exact ⟨_, Page.put_of_unlimited h _, h⟩

/-- Any other separator is written at once. -/
theorem perform_separator {p : Page} (h : p.sink.limit? = none) :
    writer.perform .separator p = .ok () (p.write itemSeparator) := Page.put_of_unlimited h _

/-- The entries after the first one, each with its separator. No separator is due from the namespace
anymore. -/
theorem performs_following_true (es : List Entry) :
    ∀ {p p' : Page}, p.sink.limit? = none → p.afterNamespace = false →
      writer.Performs (Call.following true es) p p' →
      p'.sink = (p.write (continued itemSeparator (es.map Entry.toJson))).sink := by
  induction es with
  | nil =>
    rintro p p' _ _ rfl
    simp [Page.write, continued]
  | cons e es ih =>
    rintro p p' hlimit hdue ⟨q, hq, q', hq', h⟩
    rw [perform_separator hlimit] at hq
    cases hq
    rw [perform_entry (by exact hlimit)] at hq'
    cases hq'
    rw [ih (by exact hlimit) (by rfl) h]
    simp [Page.write, hdue, continued, ByteArray.append_assoc]

/-- All entries, when they follow the namespace or nothing. Only here does it make a difference whether
a separator is due: the first entry writes it. -/
theorem performs_following_false (es : List Entry) {p p' : Page} (hlimit : p.sink.limit? = none)
    (h : writer.Performs (Call.following false es) p p') :
    p'.sink = (p.write (if p.afterNamespace then continued itemSeparator (es.map Entry.toJson)
      else joined itemSeparator (es.map Entry.toJson))).sink := by
  cases es with
  | nil =>
    obtain rfl := h
    simp [Page.write, continued, joined]
  | cons e es =>
    obtain ⟨q, hq, h⟩ := h
    rw [perform_entry hlimit] at hq
    cases hq
    rw [performs_following_true es (by exact hlimit) (by rfl) h]
    cases hdue : p.afterNamespace with
    | false => simp [Page.write, joined, ByteArray.append_assoc]
    | true => simp [Page.write, continued, ByteArray.append_assoc]

/-- The value of the namespace, the first item when there is one. -/
def namespaceItems (namespaceName? : Option String) : List Json :=
  (namespaceName?.map fun name => tagged "namespace" [("name", .string name)]).toList

/-- **The pieces fit.** A document is one array of the namespace and the entries. -/
theorem performs_protocol {namespaceName? : Option String} {es : List Entry} {p p' : Page}
    (hlimit : p.sink.limit? = none) (hdue : p.afterNamespace = false)
    (h : writer.Performs (Call.protocol namespaceName? es) p p') :
    p'.sink = (p.write ("[\n" ++
      joined itemSeparator (namespaceItems namespaceName? ++ es.map Entry.toJson) ++ "\n]\n")).sink := by
  rw [Call.protocol, ← Call.following_false] at h
  -- The header and the namespace, the entries, the footer: the page after each of them has a name.
  obtain ⟨q₂, hbefore, q₃, hfooter, rfl⟩ := DocumentWriter.performs_append.1 h
  obtain ⟨q₁, ⟨q₀, hheader, hopening⟩, hentries⟩ := DocumentWriter.performs_append.1 hbefore
  have hput : writer.perform .header p = .ok () (p.write "[\n") := Page.put_of_unlimited hlimit _
  rw [hput] at hheader
  cases hheader
  -- A namespace has its separator written with the first entry, if there is one.
  have hbody : q₂.sink = (p.write ("[\n" ++
      joined itemSeparator (namespaceItems namespaceName? ++ es.map Entry.toJson))).sink := by
    cases namespaceName? with
    | none =>
      obtain rfl := hopening
      rw [performs_following_false es (by exact hlimit) hentries]
      simp [Page.write, hdue, namespaceItems, ByteArray.append_assoc]
    | some name =>
      obtain ⟨q, hq, rfl⟩ := hopening
      rw [perform_announce (by exact hlimit)] at hq
      cases hq
      rw [performs_following_false es (by exact hlimit) hentries]
      simp [Page.write, namespaceItems, joined, ByteArray.append_assoc]
  have hput : writer.perform .footer q₂ = .ok () (q₂.write "\n]\n") :=
    Page.put_of_unlimited (by rw [hbody]; exact hlimit) _
  rw [hput] at hfooter
  cases hfooter
  simp [Page.write, hbody, ByteArray.append_assoc]

end JsonForm

end ForeignDecl
