import ForeignDecl.Proofs.Document.JsonForm
import ForeignDecl.Proofs.Extract.References

/-!
# The JSON form loses nothing

Two types with one text are one type, and two entries with one text are one entry. A well-formed value
is read back from its text, so the text determines the value (`WellFormed.render_inj`); what is left is
that the value determines what it was made of (`TypeRef.eq_of_toJson_eq`, `Entry.eq_of_toJson_eq`).

Not everything about every entry is told. `Entry.IsTold` says of which ones this holds: a record that is
marked both as a union and as a class is told as a union, a C++ member function has no place for an
Objective-C scope, and some kinds of entry leave out their scope or their place.
-/

set_option autoImplicit false

namespace ForeignDecl

open Json

/-! ## Values that are alike -/

namespace Json

/-- The number is read back from its digits. -/
theorem toString_nat_inj {n n' : Nat} (h : toString n = toString n') : n = n' := by
  have hdigits := congrArg (fun text => Nat.ofDigitChars 10 text.toList 0) h
  simpa [Nat.toString_eq_repr, Nat.toList_repr] using hdigits

/-- No text of a natural number begins with the sign of a negative one. -/
theorem toString_nat_ne_negative (n n' : Nat) : toString n ≠ "-" ++ toString n' := by
  intro h
  have hsign : '-' ∈ (toString n).toList := by simp [h]
  exact absurd (isDigit_of_mem_toString hsign) (by decide)

/-- So is a negative number, whose sign tells it apart. -/
theorem toString_int_inj : ∀ {n n' : Int}, toString n = toString n' → n = n'
  | .ofNat _, .ofNat _, h => congrArg Int.ofNat (toString_nat_inj h)
  | .ofNat n, .negSucc n', h => absurd h (toString_nat_ne_negative n (n' + 1))
  | .negSucc n, .ofNat n', h => absurd h.symm (toString_nat_ne_negative n' (n + 1))
  | .negSucc n, .negSucc n', h => by
    have htext : "-" ++ toString (n + 1) = "-" ++ toString (n' + 1) := h
    have hnat : toString (n + 1) = toString (n' + 1) := by simpa using htext
    rw [Nat.succ.inj (toString_nat_inj hnat)]

/-- Numbers are written as texts; as values they are the same only if they are the same numbers. -/
@[simp]
theorem nat_inj {n n' : Nat} : nat n = nat n' ↔ n = n' :=
  ⟨fun h => toString_nat_inj (Json.number.inj h), congrArg nat⟩

@[simp]
theorem int_inj {n n' : Int} : int n = int n' ↔ n = n' :=
  ⟨fun h => toString_int_inj (Json.number.inj h), congrArg int⟩

/-- Values with one text are one value, since the text is read back. This is the only place where texts
are looked at: what follows is about values. -/
theorem WellFormed.render_inj {j j' : Json} (h : j.WellFormed) (h' : j'.WellFormed)
    (heq : j.render = j'.render) : j = j' := by
  have hends : EndsNumber [] := by simp [EndsNumber]
  have hread := h.reads.value (j.render.length + 1) [] (by omega) hends
  have hread' := h'.reads.value (j'.render.length + 1) [] (by omega) hends
  rw [heq, hread'] at hread
  exact (Prod.mk.inj (Option.some.inj hread)).1.symm

end Json

@[simp]
theorem tagged_inj {tag tag' : String} {members members' : List (String × Json)} :
    tagged tag members = tagged tag' members' ↔ tag = tag' ∧ members = members' := by
  simp [tagged]

/-! ## Types -/

mutual

/-- No record that this type refers to is marked both as a union and as a class. -/
def TypeRef.HasOneKey : TypeRef → Prop
  | .simple _ | .basic _ _ _ | .enum _ _ => True
  | .bitfield base _ => base.HasOneKey
  | .pointer target | .reference target => target.HasOneKey
  | .array element _ => element.HasOneKey
  | .record _ _ isUnion isClass => (isUnion && isClass) = false
  | .template _ _ args => argsHaveOneKey args

/-- The same for template arguments. -/
def argsHaveOneKey : TemplateArgs → Prop
  | [] => True
  | (type, _) :: args => type.HasOneKey ∧ argsHaveOneKey args

end

theorem argsHaveOneKey_iff {args : TemplateArgs} :
    argsHaveOneKey args ↔ ∀ t ∈ args.types, t.HasOneKey := by
  induction args with
  | nil => simp [argsHaveOneKey, TemplateArgs.types]
  | cons arg args ih =>
    obtain ⟨type, value?⟩ := arg
    simp [argsHaveOneKey, ih, TemplateArgs.types]

/-- Of the two marks at most one is set, and then the tag tells which. -/
theorem recordTypeTag_inj {isUnion isClass isUnion' isClass' : Bool}
    (h : (isUnion && isClass) = false) (h' : (isUnion' && isClass') = false)
    (heq : recordTypeTag isUnion isClass = recordTypeTag isUnion' isClass') :
    isUnion = isUnion' ∧ isClass = isClass' := by
  revert isUnion isClass isUnion' isClass'
  decide

/-- Enumerations have the members of records, so their tags have to differ. -/
@[simp]
theorem recordTypeTag_ne_enum (isUnion isClass : Bool) :
    recordTypeTag isUnion isClass ≠ ":enum" := by
  cases isUnion <;> cases isClass <;> decide

@[simp]
theorem enum_ne_recordTypeTag (isUnion isClass : Bool) :
    ":enum" ≠ recordTypeTag isUnion isClass := (recordTypeTag_ne_enum isUnion isClass).symm

/-- An argument without a value is told apart from one with an empty value by the missing key. -/
theorem valueMember_inj {value? value?' : Option String} :
    valueMember value? = valueMember value?' ↔ value? = value?' := by
  cases value? <;> cases value?' <;> simp [valueMember]

mutual

/-- **A type is determined by its value.** Types with the same members have different tags, and types
with the same tag, which may be any text, have different members. -/
theorem TypeRef.eq_of_toJson_eq :
    ∀ {t t' : TypeRef}, t.HasOneKey → t'.HasOneKey → t.toJson = t'.toJson → t = t'
  | .simple name, t', _, _, heq => by
    cases t' <;> simp_all [TypeRef.toJson]
  | .basic name size align, t', _, _, heq => by
    cases t' <;> simp_all [TypeRef.toJson]
  | .enum name id, t', _, _, heq => by
    cases t' <;> simp_all [TypeRef.toJson]
  -- Two types of different kinds differ in their tags. A record has three tags, which the marks decide.
  | .record name id isUnion isClass, t', h, h', heq => by
    cases t' with
    | record name' id' isUnion' isClass' =>
      simp only [TypeRef.toJson, tagged_inj] at heq
      obtain ⟨rfl, rfl⟩ := recordTypeTag_inj h h' heq.1
      simp_all
    | _ => simp [TypeRef.toJson] at heq
  | .bitfield base width, t', h, h', heq => by
    cases t' with
    | bitfield base' width' =>
      have hbase : base.toJson = base'.toJson → base = base' := base.eq_of_toJson_eq h h'
      simp_all [TypeRef.toJson]
    | _ => simp [TypeRef.toJson] at heq
  | .pointer target, t', h, h', heq => by
    cases t' with
    | pointer target' =>
      have htarget : target.toJson = target'.toJson → target = target' := target.eq_of_toJson_eq h h'
      simp_all [TypeRef.toJson]
    | _ => simp [TypeRef.toJson] at heq
  | .reference target, t', h, h', heq => by
    cases t' with
    | reference target' =>
      have htarget : target.toJson = target'.toJson → target = target' := target.eq_of_toJson_eq h h'
      simp_all [TypeRef.toJson]
    | _ => simp [TypeRef.toJson] at heq
  | .array element count, t', h, h', heq => by
    cases t' with
    | array element' count' =>
      have helement : element.toJson = element'.toJson → element = element' := element.eq_of_toJson_eq h h'
      simp_all [TypeRef.toJson]
    | _ => simp [TypeRef.toJson] at heq
  | .template name id args, t', h, h', heq => by
    cases t' with
    | template name' id' args' =>
      have hargs : templateArgsToJson args = templateArgsToJson args' → args = args' :=
        args_eq_of_toJson_eq h h'
      simp_all [TypeRef.toJson]
    | _ => simp [TypeRef.toJson] at heq

/-- The same for template arguments. -/
theorem args_eq_of_toJson_eq :
    ∀ {args args' : TemplateArgs}, argsHaveOneKey args → argsHaveOneKey args' →
      templateArgsToJson args = templateArgsToJson args' → args = args'
  | [], [], _, _, _ => rfl
  | [], (_, _) :: _, _, _, heq => by simp [templateArgsToJson] at heq
  | (_, _) :: _, [], _, _, heq => by simp [templateArgsToJson] at heq
  | (type, value?) :: args, (type', value?') :: args', h, h', heq => by
    simp only [templateArgsToJson, List.cons.injEq, tagged_inj, Prod.mk.injEq, true_and,
      valueMember_inj] at heq
    obtain ⟨⟨htype, rfl⟩, hargs⟩ := heq
    rw [type.eq_of_toJson_eq h.1 h'.1 htype, args_eq_of_toJson_eq h.2 h'.2 hargs]

end

/-! ## Parts of entries -/

/-- Lists are alike when their values are, as far as the values of `P` determine what they were made
of. -/
theorem eq_of_map_eq {α : Type} {f : α → Json} {P : α → Prop}
    (hf : ∀ {a a'}, P a → P a' → f a = f a' → a = a') :
    ∀ {as as' : List α}, (∀ a ∈ as, P a) → (∀ a ∈ as', P a) → as.map f = as'.map f → as = as'
  | [], [], _, _, _ => rfl
  | [], _ :: _, _, _, heq => by simp at heq
  | _ :: _, [], _, _, heq => by simp at heq
  | a :: as, a' :: as', h, h', heq => by
    simp only [List.map_cons, List.cons.injEq] at heq
    simp only [List.forall_mem_cons] at h h'
    rw [hf h.1 h'.1 heq.1, eq_of_map_eq hf h.2 h'.2 heq.2]

/-- A member that may be missing is told by its key, which no member behind it has. Without this an
object with it could be taken for one whose next member looks like it. -/
theorem append_inj_of_key {key : String} {member member' members members' : List (String × Json)}
    (hm : member = [] ∨ ∃ value, member = [(key, value)])
    (hm' : member' = [] ∨ ∃ value, member' = [(key, value)])
    (h : key ∉ members.map Prod.fst) (h' : key ∉ members'.map Prod.fst)
    (heq : member ++ members = member' ++ members') : member = member' ∧ members = members' := by
  rcases hm with rfl | ⟨value, rfl⟩ <;> rcases hm' with rfl | ⟨value', rfl⟩
  · exact ⟨rfl, heq⟩
  · rw [List.nil_append] at heq
    exact absurd (by simp [heq]) h
  · rw [List.nil_append] at heq
    exact absurd (by simp [← heq]) h'
  · simpa using heq

theorem templateMember_cases (args? : Option TemplateArgs) :
    templateMember args? = [] ∨ ∃ value, templateMember args? = [("template", value)] := by
  cases args? with
  | none => exact .inl rfl
  | some args => exact .inr ⟨_, rfl⟩

/-- Template arguments, if there are any, are determined by the member. -/
theorem eq_of_templateMember_eq {args? args?' : Option TemplateArgs}
    (h : ∀ t ∈ (args?.getD []).types, t.HasOneKey) (h' : ∀ t ∈ (args?'.getD []).types, t.HasOneKey)
    (heq : templateMember args? = templateMember args?') : args? = args?' := by
  cases args? with
  | none =>
    cases args?' with
    | none => rfl
    | some args' => simp [templateMember] at heq
  | some args =>
    cases args?' with
    | none => simp [templateMember] at heq
    | some args' =>
      simp only [templateMember, List.cons.injEq, Prod.mk.injEq, Json.array.injEq, true_and,
        and_true] at heq
      have hargs : args = args' :=
        args_eq_of_toJson_eq (argsHaveOneKey_iff.2 h) (argsHaveOneKey_iff.2 h') heq
      rw [hargs]

/-- A field, a parameter and a parent are determined by their values. All they are made of is told. -/
theorem FieldEntry.eq_of_toJson_eq {f f' : FieldEntry} (h : f.type.HasOneKey)
    (h' : f'.type.HasOneKey) (heq : f.toJson = f'.toJson) : f = f' := by
  have htype : f.type.toJson = f'.type.toJson → f.type = f'.type := TypeRef.eq_of_toJson_eq h h'
  cases f
  cases f'
  simp_all [toJson]

theorem ParamEntry.eq_of_toJson_eq {p p' : ParamEntry} (h : p.type.HasOneKey)
    (h' : p'.type.HasOneKey) (heq : p.toJson = p'.toJson) : p = p' := by
  have htype : p.type.toJson = p'.type.toJson → p.type = p'.type := TypeRef.eq_of_toJson_eq h h'
  cases p
  cases p'
  simp_all [toJson]

theorem eq_of_constantToJson_eq {c c' : Enumerator} (heq : constantToJson c = constantToJson c') :
    c = c' := by
  cases c
  cases c'
  simpa [constantToJson] using heq

/-- Different storage classes have different names, and so have different kinds of access. -/
theorem StorageClass.label_inj {c c' : StorageClass} (h : c.label = c'.label) : c = c' := by
  revert h
  cases c <;> cases c' <;> decide

theorem Access.label_inj {a a' : Access} (h : a.label = a'.label) : a = a' := by
  revert h
  cases a <;> cases a' <;> decide

theorem ParentEntry.eq_of_toJson_eq {p p' : ParentEntry} (heq : p.toJson = p'.toJson) : p = p' := by
  have haccess : p.access.label = p'.access.label → p.access = p'.access := Access.label_inj
  cases p
  cases p'
  simp_all [toJson]

/-- A missing scope is told by the missing member. -/
theorem scopeMember_inj {scope? scope?' : Option MethodScope}
    (heq : scopeMember scope? = scopeMember scope?') : scope? = scope?' := by
  rcases scope? with _ | _ | _ <;> rcases scope?' with _ | _ | _ <;>
    simp_all [scopeMember, MethodScope.label]

/-! ### Functions -/

/-- Up to its Objective-C scope, which is the affair of whoever makes the member, a function is
determined by its value. -/
theorem FunctionEntry.eq_of_toJsonWith_eq {f f' : FunctionEntry} {scope scope' : List (String × Json)}
    (h : ∀ t ∈ f.types, t.HasOneKey) (h' : ∀ t ∈ f'.types, t.HasOneKey)
    (hscope : "template" ∉ scope.map Prod.fst) (hscope' : "template" ∉ scope'.map Prod.fst)
    (heq : f.toJsonWith scope = f'.toJsonWith scope') :
    f = { f' with objcScope? := f.objcScope? } ∧ scope = scope' := by
  simp only [types, List.forall_mem_cons, List.forall_mem_append, List.forall_mem_map] at h h'
  obtain ⟨hresult, hparams, hargs⟩ := h
  obtain ⟨hresult', hparams', hargs'⟩ := h'
  simp only [toJsonWith, tagged_inj, true_and, List.append_assoc] at heq
  -- Six members that all functions have, then template arguments, then the scope, then two members.
  obtain ⟨hfront, hrest⟩ := List.append_inj heq rfl
  obtain ⟨htemplate, hrest⟩ := append_inj_of_key (templateMember_cases _) (templateMember_cases _)
    (by simpa using hscope) (by simpa using hscope') hrest
  obtain ⟨hscopes, htail⟩ := List.append_inj' hrest rfl
  have hargsEq := eq_of_templateMember_eq hargs hargs' htemplate
  have hstorage : f.storage.label = f'.storage.label → f.storage = f'.storage :=
    StorageClass.label_inj
  simp only [List.cons.injEq, Prod.mk.injEq, Json.array.injEq, true_and, and_true] at htail
  have hparamsEq := eq_of_map_eq ParamEntry.eq_of_toJson_eq hparams hparams' htail.1
  have hresultEq := TypeRef.eq_of_toJson_eq hresult hresult' htail.2
  refine ⟨?_, hscopes⟩
  obtain ⟨⟨_, _, _⟩, _, _, _, _, _, _, _⟩ := f
  obtain ⟨⟨_, _, _⟩, _, _, _, _, _, _, _⟩ := f'
  simp_all

/-- For a function the member is that of its Objective-C scope, so all of it is determined. -/
theorem FunctionEntry.eq_of_toJson_eq {f f' : FunctionEntry} (h : ∀ t ∈ f.types, t.HasOneKey)
    (h' : ∀ t ∈ f'.types, t.HasOneKey) (heq : f.toJson = f'.toJson) : f = f' := by
  have hkey : ∀ scope? : Option MethodScope, "template" ∉ (scopeMember scope?).map Prod.fst := by
    intro scope?
    cases scope? <;> simp [scopeMember]
  obtain ⟨hf, hscope⟩ := eq_of_toJsonWith_eq h h' (hkey _) (hkey _) heq
  rw [hf, scopeMember_inj hscope]

/-- For a method the members are those of C++, and there is no place for an Objective-C scope; it has to
have none. -/
theorem MethodEntry.eq_of_toJson_eq {m m' : MethodEntry}
    (h : m.function.objcScope? = none ∧ ∀ t ∈ m.function.types, t.HasOneKey)
    (h' : m'.function.objcScope? = none ∧ ∀ t ∈ m'.function.types, t.HasOneKey)
    (heq : m.toJson = m'.toJson) : m = m' := by
  obtain ⟨hf, hscope⟩ :=
    FunctionEntry.eq_of_toJsonWith_eq h.2 h'.2 (by simp) (by simp) heq
  have hfunction : m.function = m'.function := by
    rw [hf, h.1, ← h'.1]
  obtain ⟨f, isStatic, _, _, _⟩ := m
  obtain ⟨f', isStatic', _, _, _⟩ := m'
  cases isStatic <;> cases isStatic' <;> simp_all [MethodScope.label]

/-! ### Records -/

/-- A record is determined by its members, its fields and its mark; what stands between them in an
object is no matter here. -/
theorem RecordEntry.eq_of_members_eq {r r' : RecordEntry} (h : ∀ t ∈ r.types, t.HasOneKey)
    (h' : ∀ t ∈ r'.types, t.HasOneKey) (hunion : r.isUnion = r'.isUnion)
    (hmembers : r.members = r'.members) (hfields : r.fieldsMember = r'.fieldsMember) : r = r' := by
  simp only [types, List.forall_mem_map] at h h'
  simp only [fieldsMember, Prod.mk.injEq, Json.array.injEq, true_and] at hfields
  have hfieldsEq := eq_of_map_eq FieldEntry.eq_of_toJson_eq h h' hfields
  obtain ⟨⟨_, _, _⟩, _, _, _, _, _⟩ := r
  obtain ⟨⟨_, _, _⟩, _, _, _, _, _⟩ := r'
  simp_all [members]

/-- The tag of a whole record tells the marks apart as that of a reference to one does. -/
theorem recordTag_inj {isUnion isClass isUnion' isClass' : Bool}
    (h : (isUnion && isClass) = false) (h' : (isUnion' && isClass') = false)
    (heq : recordTag isUnion isClass = recordTag isUnion' isClass') :
    isUnion = isUnion' ∧ isClass = isClass' := by
  revert isUnion isClass isUnion' isClass'
  decide

/-- The text of a C++ record tells everything about it: it is not both a union and a class, and no
method has an Objective-C scope. -/
def ClassEntry.IsTold (c : ClassEntry) : Prop :=
  (c.record.isUnion && c.isClass) = false ∧ ∀ m ∈ c.methods, m.function.objcScope? = none

/-- A C++ record: its tag, the members of every record, template arguments if there are any, and the
three lists. -/
theorem ClassEntry.eq_of_toJson_eq {c c' : ClassEntry} (htold : c.IsTold) (htold' : c'.IsTold)
    (h : ∀ t ∈ c.types, t.HasOneKey) (h' : ∀ t ∈ c'.types, t.HasOneKey)
    (heq : c.toJson = c'.toJson) : c = c' := by
  simp only [types, List.forall_mem_append, List.forall_mem_flatMap] at h h'
  obtain ⟨hrecord, hmethods, hargs⟩ := h
  obtain ⟨hrecord', hmethods', hargs'⟩ := h'
  simp only [toJson, tagged_inj, List.append_assoc] at heq
  obtain ⟨htag, heq⟩ := heq
  obtain ⟨hunion, hclass⟩ := recordTag_inj htold.1 htold'.1 htag
  obtain ⟨hmembers, hrest⟩ := List.append_inj heq rfl
  obtain ⟨htemplate, htail⟩ := append_inj_of_key (templateMember_cases _) (templateMember_cases _)
    (by simp [RecordEntry.fieldsMember]) (by simp [RecordEntry.fieldsMember]) hrest
  simp only [List.cons.injEq, Prod.mk.injEq, Json.array.injEq, true_and, and_true] at htail
  obtain ⟨hparents, hfields, hmethodsTold⟩ := htail
  have hargsEq := eq_of_templateMember_eq hargs hargs' htemplate
  have hrecordEq := RecordEntry.eq_of_members_eq hrecord hrecord' hunion hmembers hfields
  have hparentsEq := eq_of_map_eq (P := fun _ => True)
    (fun _ _ heq => ParentEntry.eq_of_toJson_eq heq) (by simp) (by simp) hparents
  have hmethodsEq := eq_of_map_eq MethodEntry.eq_of_toJson_eq
    (fun m hm => ⟨htold.2 m hm, hmethods m hm⟩) (fun m hm => ⟨htold'.2 m hm, hmethods' m hm⟩)
    hmethodsTold
  cases c
  cases c'
  simp_all

/-! ## Entries -/

/-- The entries whose text tells everything about them. Those that are left out have data that no member
is written for, such as the scope of an unhandled declaration, whether the value of a variable is that
of a string, or the place of a namespace. -/
def Entry.IsTold : Entry → Prop
  | .method m => m.function.objcScope? = none
  | .classRecord c => c.IsTold
  | .function _ | .typedef _ _ | .record _ | .enum _ _ _ | .typeAlias _ _ | .aliasTemplate _ _ _
  | .varTemplate _ _ _ | .usingDecl _ | .usingShadow _ | .usingDirective _ => True
  | .unhandled _ _ | .var _ _ _ _ _ | .namespaceBlock _ _ | .objcInterface _ | .objcCategory _ _ _
  | .objcProtocol _ _ => False

/-- The name of the kind of entry that was told by this value. Kinds with one tag have members that
only one of them has. -/
def Json.kindTold : Json → Option String
  | .object ((_, .string tag) :: members) =>
    if tag = "function" then
      some (if "virtual" ∈ members.map Prod.fst then "cxx-function" else "function")
    else if tag = "union" ∨ tag = "class" ∨ tag = "struct" then
      some (if "parents" ∈ members.map Prod.fst then "cxx-record" else "record")
    else some tag
  | _ => none

/-- The kind is read off the tag and the keys of an object. -/
theorem kindTold_tagged (tag : String) (members : List (String × Json)) :
    (tagged tag members).kindTold =
      if tag = "function" then
        some (if "virtual" ∈ members.map Prod.fst then "cxx-function" else "function")
      else if tag = "union" ∨ tag = "class" ∨ tag = "struct" then
        some (if "parents" ∈ members.map Prod.fst then "cxx-record" else "record")
      else some tag := rfl

theorem recordTag_cases (isUnion isClass : Bool) :
    recordTag isUnion isClass = "union" ∨ recordTag isUnion isClass = "class" ∨
      recordTag isUnion isClass = "struct" := by
  cases isUnion <;> cases isClass <;> decide

theorem recordTag_ne_function (isUnion isClass : Bool) :
    recordTag isUnion isClass ≠ "function" := by
  cases isUnion <;> cases isClass <;> decide

theorem notMem_templateMember {key : String} (h : key ≠ "template") (args? : Option TemplateArgs) :
    key ∉ (templateMember args?).map Prod.fst := by
  cases args? <;> simp [templateMember, h]

/-- **The value of an entry names its kind.** Functions and methods have one tag, and so have records of
both languages; they are told apart by keys that only one of them has. -/
theorem Entry.kindTold_toJson {e : Entry} (h : e.IsTold) : e.toJson.kindTold = some e.kindLabel := by
  cases e with
  | function f =>
    have hargs : "virtual" ∉ (templateMember f.templateArgs?).map Prod.fst :=
      notMem_templateMember (by decide) _
    have hscope : "virtual" ∉ (scopeMember f.objcScope?).map Prod.fst := by
      cases f.objcScope? <;> simp [scopeMember]
    simp [toJson, FunctionEntry.toJson, FunctionEntry.toJsonWith, kindTold_tagged, kindLabel,
      -List.mem_map, hargs, hscope]
  | method m =>
    simp [toJson, MethodEntry.toJson, FunctionEntry.toJsonWith, kindTold_tagged, kindLabel]
  | record r =>
    simp [toJson, kindTold_tagged, recordTag_cases, recordTag_ne_function, RecordEntry.members,
      RecordEntry.fieldsMember, kindLabel]
  | classRecord c =>
    simp [toJson, ClassEntry.toJson, kindTold_tagged, recordTag_cases, recordTag_ne_function,
      kindLabel]
  | typedef | enum | typeAlias | aliasTemplate | varTemplate | usingDecl | usingShadow
  | usingDirective => simp [toJson, kindTold_tagged, kindLabel]
  | unhandled | var | namespaceBlock | objcInterface | objcCategory | objcProtocol => exact h.elim

/-- What all entries have is told by its members. -/
theorem EntryInfo.eq_of_members_eq {i i' : EntryInfo} (heq : i.members = i'.members) : i = i' := by
  cases i
  cases i'
  simp_all [members]

theorem eq_of_typed_eq {tag : String} {i i' : EntryInfo} {type type' : TypeRef}
    (h : type.HasOneKey) (h' : type'.HasOneKey)
    (heq : tagged tag (i.members ++ [("type", type.toJson)]) =
      tagged tag (i'.members ++ [("type", type'.toJson)])) : i = i' ∧ type = type' := by
  obtain ⟨hinfo, htype⟩ := List.append_inj (tagged_inj.1 heq).2 rfl
  simp only [List.cons.injEq, Prod.mk.injEq, true_and, and_true] at htype
  exact ⟨EntryInfo.eq_of_members_eq hinfo, TypeRef.eq_of_toJson_eq h h' htype⟩

theorem eq_of_templated_eq {tag : String} {i i' : EntryInfo} {type type' : TypeRef}
    {args args' : TemplateArgs} (h : ∀ t ∈ type :: args.types, t.HasOneKey)
    (h' : ∀ t ∈ type' :: args'.types, t.HasOneKey)
    (heq : tagged tag
        (i.members ++ [("type", type.toJson), ("template", .array (templateArgsToJson args))]) =
      tagged tag
        (i'.members ++ [("type", type'.toJson), ("template", .array (templateArgsToJson args'))])) :
    i = i' ∧ type = type' ∧ args = args' := by
  rw [List.forall_mem_cons, ← argsHaveOneKey_iff] at h h'
  obtain ⟨hinfo, hrest⟩ := List.append_inj (tagged_inj.1 heq).2 rfl
  simp only [List.cons.injEq, Prod.mk.injEq, Json.array.injEq, true_and, and_true] at hrest
  exact ⟨EntryInfo.eq_of_members_eq hinfo, TypeRef.eq_of_toJson_eq h.1 h'.1 hrest.1,
    args_eq_of_toJson_eq h.2 h'.2 hrest.2⟩

/-- An enumeration with all its constants, whose values may be negative. -/
theorem eq_of_enum_eq {i i' : EntryInfo} {id id' : Nat} {constants constants' : List Enumerator}
    (heq : (Entry.enum i id constants).toJson = (Entry.enum i' id' constants').toJson) :
    i = i' ∧ id = id' ∧ constants = constants' := by
  simp only [Entry.toJson, tagged_inj, List.cons.injEq, Prod.mk.injEq, nat_inj, Json.string.injEq,
    Json.array.injEq, true_and, and_true] at heq
  obtain ⟨hscope, hname, rfl, hlocation, hconstants⟩ := heq
  have hconstantsEq := eq_of_map_eq (P := fun _ => True)
    (fun _ _ heq => eq_of_constantToJson_eq heq) (by simp) (by simp) hconstants
  cases i
  cases i'
  simp_all

/-- **An entry is determined by its value**, among those that are told in full. -/
theorem Entry.eq_of_toJson_eq {e e' : Entry} (htold : e.IsTold) (htold' : e'.IsTold)
    (h : ∀ t ∈ e.types, t.HasOneKey) (h' : ∀ t ∈ e'.types, t.HasOneKey)
    (heq : e.toJson = e'.toJson) : e = e' := by
  -- The values name the kinds, so only entries of one kind are left to compare.
  have hkind : e.kindLabel = e'.kindLabel := by
    have hread := e.kindTold_toJson htold
    rw [heq, e'.kindTold_toJson htold'] at hread
    exact (Option.some.inj hread).symm
  cases e with
  | function f =>
    cases e' with
    | function f' => rw [FunctionEntry.eq_of_toJson_eq h h' heq]
    | _ => simp [kindLabel] at hkind
  | method m =>
    cases e' with
    | method m' => rw [MethodEntry.eq_of_toJson_eq ⟨htold, h⟩ ⟨htold', h'⟩ heq]
    | _ => simp [kindLabel] at hkind
  | record r =>
    cases e' with
    | record r' =>
      simp only [toJson, tagged_inj] at heq
      obtain ⟨hunion, _⟩ := recordTag_inj (by simp) (by simp) heq.1
      obtain ⟨hmembers, hfields⟩ := List.append_inj heq.2 rfl
      rw [RecordEntry.eq_of_members_eq h h' hunion hmembers (List.cons.inj hfields).1]
    | _ => simp [kindLabel] at hkind
  | classRecord c =>
    cases e' with
    | classRecord c' => rw [ClassEntry.eq_of_toJson_eq htold htold' h h' heq]
    | _ => simp [kindLabel] at hkind
  | enum i id constants =>
    cases e' with
    | enum i' id' constants' =>
      obtain ⟨rfl, rfl, rfl⟩ := eq_of_enum_eq heq
      rfl
    | _ => simp [kindLabel] at hkind
  | typedef i type =>
    cases e' with
    | typedef i' type' =>
      obtain ⟨rfl, rfl⟩ := eq_of_typed_eq (h _ (by simp [types])) (h' _ (by simp [types])) heq
      rfl
    | _ => simp [kindLabel] at hkind
  | typeAlias i type =>
    cases e' with
    | typeAlias i' type' =>
      obtain ⟨rfl, rfl⟩ := eq_of_typed_eq (h _ (by simp [types])) (h' _ (by simp [types])) heq
      rfl
    | _ => simp [kindLabel] at hkind
  | aliasTemplate i type args =>
    cases e' with
    | aliasTemplate i' type' args' =>
      obtain ⟨rfl, rfl, rfl⟩ := eq_of_templated_eq h h' heq
      rfl
    | _ => simp [kindLabel] at hkind
  | varTemplate i type args =>
    cases e' with
    | varTemplate i' type' args' =>
      obtain ⟨rfl, rfl, rfl⟩ := eq_of_templated_eq h h' heq
      rfl
    | _ => simp [kindLabel] at hkind
  | usingDecl i =>
    cases e' with
    | usingDecl i' => rw [EntryInfo.eq_of_members_eq (tagged_inj.1 heq).2]
    | _ => simp [kindLabel] at hkind
  | usingShadow i =>
    cases e' with
    | usingShadow i' => rw [EntryInfo.eq_of_members_eq (tagged_inj.1 heq).2]
    | _ => simp [kindLabel] at hkind
  | usingDirective i =>
    cases e' with
    | usingDirective i' => rw [EntryInfo.eq_of_members_eq (tagged_inj.1 heq).2]
    | _ => simp [kindLabel] at hkind
  | unhandled | var | namespaceBlock | objcInterface | objcCategory | objcProtocol =>
    exact htold.elim

/-! ## What is written -/

theorem Entry.IsTold.hasValue {e : Entry} (h : e.IsTold) : e.HasValue := by
  cases e with
  | var => exact h.elim
  | _ => trivial

namespace JsonForm

/-- Values that are written to one page leave the same bytes only when they are one. What was due before
them is the same for both, and bytes determine a text. -/
theorem write_inj {p : Page} {j j' : Json} (hj : j.WellFormed) (hj' : j'.WellFormed)
    (due : String) :
    (p.write (due ++ j.render)).sink.contents = (p.write (due ++ j'.render)).sink.contents ↔
      j = j' := by
  constructor
  · intro h
    have hbytes : (due ++ j.render).toUTF8 = (due ++ j'.render).toUTF8 :=
      (ByteArray.append_right_inj _).1 h
    have htext : j.render = j'.render := by simpa [String.toByteArray_inj] using hbytes
    exact hj.render_inj hj' htext
  · rintro rfl
    rfl

/-- **Different types and different entries are written differently.** Nothing limits the page, so they
are written whole, and the bytes are the same only for what is the same. An entry is determined as far
as it is told (`Entry.IsTold`); what no member is written for cannot be read off the text. -/
theorem writer_lossless {p : Page} (hlimit : p.sink.limit? = none) :
    (∀ t t' : TypeRef, t.HasOneKey → t'.HasOneKey →
      ∃ q q', writer.type t p = .ok () q ∧ writer.type t' p = .ok () q' ∧
        (q.sink.contents = q'.sink.contents ↔ t = t')) ∧
    ∀ e e' : Entry, e.IsTold → e'.IsTold →
      (∀ t ∈ e.types, t.HasOneKey) → (∀ t ∈ e'.types, t.HasOneKey) →
      ∃ q q', writer.entry e p = .ok () q ∧ writer.entry e' p = .ok () q' ∧
        (q.sink.contents = q'.sink.contents ↔ e = e') := by
  refine ⟨fun t t' h h' => ?_, fun e e' htold htold' h h' => ?_⟩
  · refine ⟨_, _, Page.put_of_unlimited hlimit _, Page.put_of_unlimited hlimit _, ?_⟩
    have hbytes := write_inj (p := p) t.wellFormed_toJson t'.wellFormed_toJson ""
    simp only [String.empty_append] at hbytes
    rw [hbytes]
    exact ⟨TypeRef.eq_of_toJson_eq h h', congrArg _⟩
  · refine ⟨_, _, perform_entry hlimit e, perform_entry hlimit e', ?_⟩
    rw [write_inj (Entry.wellFormed_toJson htold.hasValue) (Entry.wellFormed_toJson htold'.hasValue)]
    exact ⟨Entry.eq_of_toJson_eq htold htold' h h', congrArg _⟩

/-- A pointer is not written like a reference, and an empty `struct` not like one that is told as a
C++ record. -/
theorem writer_lossless_plain :
    (∃ q q', writer.type (.pointer (.simple ":void")) {} = .ok () q ∧
      writer.type (.reference (.simple ":void")) {} = .ok () q' ∧
        q.sink.contents ≠ q'.sink.contents) ∧
    ∃ q q', writer.entry (.record ⟨⟨"s", 0, "a.h:1:1"⟩, 0, false, 0, 8, []⟩) {} = .ok () q ∧
      writer.entry (.classRecord ⟨⟨⟨"s", 0, "a.h:1:1"⟩, 0, false, 0, 8, []⟩, false, none, [], []⟩)
        {} = .ok () q' ∧ q.sink.contents ≠ q'.sink.contents := by
  obtain ⟨htypes, hentries⟩ := writer_lossless (p := {}) rfl
  obtain ⟨q, q', hq, hq', hsame⟩ :=
    htypes (.pointer (.simple ":void")) (.reference (.simple ":void")) trivial trivial
  obtain ⟨r, r', hr, hr', hsame'⟩ :=
    hentries (.record ⟨⟨"s", 0, "a.h:1:1"⟩, 0, false, 0, 8, []⟩)
      (.classRecord ⟨⟨⟨"s", 0, "a.h:1:1"⟩, 0, false, 0, 8, []⟩, false, none, [], []⟩)
      trivial ⟨rfl, by simp⟩ (by simp [Entry.types, RecordEntry.types])
      (by simp [Entry.types, ClassEntry.types, RecordEntry.types, TemplateArgs.types])
  exact ⟨⟨q, q', hq, hq', by simp [hsame]⟩, ⟨r, r', hr, hr', by simp [hsame']⟩⟩

end JsonForm

end ForeignDecl
