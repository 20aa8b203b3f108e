import ForeignDecl.Proofs.Decimal.Doubles
import ForeignDecl.Proofs.Extract.Origins

/-!
# Values of variables in documents

What the object of a variable says of its initializer. The constants that are captured are numbers and
the narrow string literals whose bytes are UTF-8 (`VarNode.Captures`); an object has a value exactly for
those, and the value says the constant (`Constant.SaidBy`). A reader who knows what kind of constant it is
gets it back, because no other constant of the kind is said by the same value (`SaidBy.sameValue`); for
doubles that is the uniqueness of the nearest one. The one constant that is
lost is the empty literal: the document does not tell it from no initializer (`document_dropsEmpty`).
-/

set_option autoImplicit false

namespace ForeignDecl

/-! ## Constants -/

/-- The literal is narrow, and its bytes are the characters of `text` in UTF-8. Nothing else is told as
text: a wide literal has no bytes to be read in this way, and bytes that are not UTF-8 are no text. -/
structure StringLiteral.Says (l : StringLiteral) (text : String) : Prop where
  narrow : l.encoding = .ordinary ∨ l.encoding = .utf8
  bytes : l.bytes = text.toUTF8

/-- Decoding gives the one text that is encoded by the bytes. -/
theorem fromUTF8?_eq_some_iff {bytes : ByteArray} {text : String} :
    String.fromUTF8? bytes = some text ↔ bytes = text.toUTF8 := by
  unfold String.fromUTF8?
  constructor
  · intro h
    split at h
    · cases h
      rfl
    · cases h
  · rintro rfl
    exact dif_pos text.isValidUTF8

/-- The text that is captured from a literal is what the literal says. -/
theorem StringLiteral.text?_eq_some_iff {l : StringLiteral} {text : String} :
    l.text? = some text ↔ l.Says text := by
  unfold StringLiteral.text?
  cases hencoding : l.encoding
  all_goals simp only [fromUTF8?_eq_some_iff, reduceCtorEq, false_iff]
  case ordinary => exact ⟨fun h => ⟨.inl hencoding, h⟩, fun h => h.bytes⟩
  case utf8 => exact ⟨fun h => ⟨.inr hencoding, h⟩, fun h => h.bytes⟩
  all_goals
    rintro ⟨hnarrow, _⟩
    simp [hencoding] at hnarrow

namespace Constant

/-- The constants whose values are captured. -/
def IsCaptured : Constant → Prop
  | .signed _ | .unsigned _ | .double _ => True
  | .string l => ∃ text, l.Says text
  | .address => False

/-- The literal `""`. -/
def IsEmptyLiteral : Constant → Prop
  | .string l => l.Says ""
  | _ => False

/-- A reader who gets the JSON value `j` gets the constant: the integer, a number that is read as the
double, with the sign of a zero, the word for a double that is no number, or the text of the literal.
Numbers are compared by value and not by their digits, so nothing here depends on how a number is
written. -/
inductive SaidBy : Constant → Json → Prop where
  | signed {n : Int} {text : String} {x : Json.Numeral} (htext : Json.numeral? text = some x)
    (hvalue : x.value = n) : SaidBy (.signed n) (.number text)
  | unsigned {n : Nat} {text : String} {x : Json.Numeral} (htext : Json.numeral? text = some x)
    (hvalue : x.value = n) : SaidBy (.unsigned n) (.number text)
  | finite {bits : UInt64} {isNegative : Bool} {b : BinaryFloat} {text : String} {q : ℚ}
    (hbits : Double.ofBits bits = .finite isNegative b)
    (htext : Json.numeral? text = some ⟨isNegative, q⟩) (hread : b.IsReadFrom q) :
    SaidBy (.double bits) (.number text)
  | infinite {bits : UInt64} {isNegative : Bool} (hbits : Double.ofBits bits = .infinite isNegative) :
    SaidBy (.double bits) (.string (if isNegative then "-inf" else "inf"))
  | nan {bits : UInt64} (hbits : Double.ofBits bits = .nan) : SaidBy (.double bits) (.string "NaN")
  | string {l : StringLiteral} {text : String} (htext : l.Says text) : SaidBy (.string l) (.string text)

/-- The constants are of one kind. A number alone does not tell an integer from a double; a reader knows
the kind from the type of the variable. -/
def SameKind : Constant → Constant → Prop
  | .signed _, .signed _ | .unsigned _, .unsigned _ | .double _, .double _ | .string _, .string _
  | .address, .address => True
  | _, _ => False

/-- The constants are of one kind and have one value. All doubles that are no number count as one, and of a
literal the bytes count. -/
def SameValue : Constant → Constant → Prop
  | .signed n, .signed n' => n = n'
  | .unsigned n, .unsigned n' => n = n'
  | .double bits, .double bits' => Double.ofBits bits = Double.ofBits bits'
  | .string l, .string l' => l.bytes = l'.bytes
  | _, _ => False

/-- A value says one double. A finite one is told by the number it is nearest to, which is nearest to no
other in canonical form (`BinaryFloat.IsCanonical.eq_of_isReadFrom`); the others are told by words. -/
theorem SaidBy.ofBits_eq {bits bits' : UInt64} {j : Json} (h : (double bits).SaidBy j)
    (h' : (double bits').SaidBy j) : Double.ofBits bits = Double.ofBits bits' := by
  have hcanonical := Double.isCanonical_ofBits bits
  have hcanonical' := Double.isCanonical_ofBits bits'
  cases h with
  | finite hbits htext hread =>
    cases h' with
    | finite hbits' htext' hread' =>
      rw [hbits] at hcanonical ⊢
      rw [hbits'] at hcanonical' ⊢
      cases htext.symm.trans htext'
      rw [hcanonical.eq_of_isReadFrom hcanonical' hread hread']
  | @infinite _ isNegative hbits =>
    generalize hword : Json.string (if isNegative then "-inf" else "inf") = j at h'
    cases h' with
    | finite => cases hword
    | @infinite _ isNegative' hbits' =>
      rw [hbits, hbits']
      cases isNegative <;> cases isNegative' <;> simp at hword ⊢
    | nan => cases isNegative <;> simp at hword
  | nan hbits =>
    generalize hword : Json.string "NaN" = j at h'
    cases h' with
    | finite => cases hword
    | @infinite _ isNegative' _ => cases isNegative' <;> simp at hword
    | nan hbits' => rw [hbits, hbits']

/-- **A value says one constant of each kind.** The cases are the kinds; off the diagonal there is
nothing to show. -/
theorem SaidBy.sameValue {c c' : Constant} {j : Json} (h : c.SaidBy j) (h' : c'.SaidBy j)
    (hkind : c.SameKind c') : c.SameValue c' := by
  cases c with
  | signed n =>
    cases c' with
    | signed n' =>
      cases h with
      | signed htext hvalue =>
        cases h' with
        | signed htext' hvalue' =>
          cases htext.symm.trans htext'
          exact Int.cast_injective (hvalue.symm.trans hvalue')
    | _ => exact hkind.elim
  | unsigned n =>
    cases c' with
    | unsigned n' =>
      cases h with
      | unsigned htext hvalue =>
        cases h' with
        | unsigned htext' hvalue' =>
          cases htext.symm.trans htext'
          exact Nat.cast_injective (hvalue.symm.trans hvalue')
    | _ => exact hkind.elim
  | double bits =>
    cases c' with
    | double bits' => exact h.ofBits_eq h'
    | _ => exact hkind.elim
  | string l =>
    cases c' with
    | string l' =>
      cases h with
      | string htext =>
        cases h' with
        | string htext' => exact htext.bytes.trans htext'.bytes.symm
    | _ => exact hkind.elim
  | address => cases h

/-- The members of the object of a variable with this constant that tell the constant. -/
def members (c : Constant) : List (String × Json) := constantMember c.text.1 c.text.2

/-- A text that is a number becomes a number. None of the words for doubles that are no numbers is one,
and neither is the empty text. -/
theorem constantMember_of_numeral {text : String} {x : Json.Numeral} (h : Json.numeral? text = some x) :
    constantMember (some text) false = [("value", .number text)] := by
  have hword : ∀ word ∈ nonNumericValues, Json.numeral? word = none := by decide
  have hempty : text.isEmpty = false := by
    by_contra hempty
    rw [Bool.not_eq_false, String.isEmpty_iff] at hempty
    rw [hempty] at h
    cases h
  have hnumber : text ∉ nonNumericValues := fun hmem => by simp [hword text hmem] at h
  simp [constantMember, hempty, hnumber]

theorem constantMember_of_mem {text : String} (h : text ∈ nonNumericValues) (isString : Bool) :
    constantMember (some text) isString = [("value", .string text)] := by
  have hempty : ∀ word ∈ nonNumericValues, word.isEmpty = false := by decide
  simp [constantMember, hempty text h, h]

/-- **A captured constant is told**, unless it is the empty literal. The cases are the kinds of
constants; for doubles it is the correctness of the shortest digits (`Double.numeral?_text`). -/
theorem members_of_isCaptured {c : Constant} (h : c.IsCaptured) (hempty : ¬ c.IsEmptyLiteral) :
    ∃ j, c.members = [("value", j)] ∧ c.SaidBy j := by
  cases c with
  | signed n =>
    obtain ⟨x, htext, hvalue⟩ := Json.numeral?_int n
    exact ⟨_, constantMember_of_numeral htext, .signed htext hvalue⟩
  | unsigned n =>
    have htext := Json.numeral?_nat n
    exact ⟨_, constantMember_of_numeral htext, .unsigned htext rfl⟩
  | double bits =>
    change ∃ j, constantMember (some (doubleText bits)) false = [("value", j)] ∧ (double bits).SaidBy j
    -- The bits decide whether there is a number to be told or a word.
    rw [doubleText_eq]
    cases hbits : Double.ofBits bits with
    | finite isNegative b =>
      have hcanonical : b.IsCanonical := by
        have hform := Double.isCanonical_ofBits bits
        rwa [hbits] at hform
      obtain ⟨q, htext, hread⟩ := Double.numeral?_text isNegative hcanonical
      exact ⟨_, constantMember_of_numeral htext, .finite hbits htext hread⟩
    | infinite isNegative =>
      have hword : (Double.infinite isNegative).text = if isNegative then "-inf" else "inf" := by
        cases isNegative <;> rfl
      rw [hword]
      exact ⟨_, constantMember_of_mem (by cases isNegative <;> decide) false, .infinite hbits⟩
    | nan => exact ⟨_, constantMember_of_mem (by decide) false, .nan hbits⟩
  | string l =>
    obtain ⟨text, htext⟩ := h
    have hsome : l.text? = some text := StringLiteral.text?_eq_some_iff.2 htext
    refine ⟨.string text, ?_, .string htext⟩
    -- The empty text would be taken for none.
    have hne : text ≠ "" := by
      rintro rfl
      exact hempty htext
    simp [members, Constant.text, hsome, constantMember, hne]
  | address => exact h.elim

/-- What is not captured is not told: wide literals, texts that are not UTF-8, and addresses. -/
theorem members_of_not_isCaptured {c : Constant} (h : ¬ c.IsCaptured) : c.members = [] := by
  cases c with
  | signed n | unsigned n | double bits => exact absurd trivial h
  | string l =>
    have hnone : l.text? = none :=
      Option.eq_none_iff_forall_ne_some.2 fun text htext =>
        h ⟨text, StringLiteral.text?_eq_some_iff.1 htext⟩
    simp [members, Constant.text, hnone, constantMember]
  | address => rfl

/-- The empty literal is taken for no text at all. -/
theorem members_of_isEmptyLiteral {c : Constant} (h : c.IsEmptyLiteral) : c.members = [] := by
  cases c with
  | signed n | unsigned n | double bits | address => exact h.elim
  | string l =>
    have hsome : l.text? = some "" := StringLiteral.text?_eq_some_iff.2 h
    simp [members, Constant.text, hsome, constantMember]

/-- A value that is told is that of a captured constant. -/
theorem of_mem_members {c : Constant} {j : Json} (h : ("value", j) ∈ c.members) :
    c.IsCaptured ∧ ¬ c.IsEmptyLiteral ∧ c.SaidBy j := by
  have hcaptured : c.IsCaptured := by
    by_contra hcaptured
    simp [members_of_not_isCaptured hcaptured] at h
  have hempty : ¬ c.IsEmptyLiteral := fun hempty => by
    simp [members_of_isEmptyLiteral hempty] at h
  obtain ⟨j', hmembers, hsaid⟩ := members_of_isCaptured hcaptured hempty
  obtain rfl : j = j' := by simpa [hmembers] using h
  exact ⟨hcaptured, hempty, hsaid⟩

end Constant

/-! ## Variables -/

namespace VarNode

/-- The initializer is a captured constant. -/
structure Captures (v : VarNode) (c : Constant) : Prop where
  independent : v.isTypeDependent = false
  init : v.init? = some (.constant c)
  captured : c.IsCaptured

/-- Among `members` there is a value exactly if the initializer is a captured constant and not the empty
literal, and a value says the constant, and no other one of its kind. -/
structure TellsValue (v : VarNode) (members : List (String × Json)) : Prop where
  present : (∃ j, ("value", j) ∈ members) ↔ ∃ c, v.Captures c ∧ ¬ c.IsEmptyLiteral
  said : ∀ j, ("value", j) ∈ members →
    ∃ c, v.Captures c ∧ c.SaidBy j ∧ ∀ c', c.SameKind c' → c'.SaidBy j → c.SameValue c'

/-- Of the members of an object, those of the constant are the ones that tell a value. `hconstant` is
what the unit says of the initializer, and `hfront` that the members before are others. -/
theorem tellsValue_append {v : VarNode} {c? : Option Constant} {front : List (String × Json)}
    (hconstant : ∀ c, c? = some c ↔ v.isTypeDependent = false ∧ v.init? = some (.constant c))
    (hfront : ∀ j, ("value", j) ∉ front) :
    v.TellsValue (front ++ (c?.map Constant.members).getD []) := by
  have hcaptures : ∀ c, v.Captures c ↔ c? = some c ∧ c.IsCaptured := fun c =>
    ⟨fun h => ⟨(hconstant c).2 ⟨h.independent, h.init⟩, h.captured⟩,
      fun ⟨hc, hcaptured⟩ => ⟨((hconstant c).1 hc).1, ((hconstant c).1 hc).2, hcaptured⟩⟩
  have hmem : ∀ j, ("value", j) ∈ front ++ (c?.map Constant.members).getD [] ↔
      ∃ c, c? = some c ∧ ("value", j) ∈ c.members := fun j => by
    cases c? <;> simp [hfront j]
  refine ⟨⟨?_, ?_⟩, ?_⟩
  · rintro ⟨j, hj⟩
    obtain ⟨c, hc, hj⟩ := (hmem j).1 hj
    obtain ⟨hcaptured, hempty, _⟩ := Constant.of_mem_members hj
    exact ⟨c, (hcaptures c).2 ⟨hc, hcaptured⟩, hempty⟩
  · rintro ⟨c, hc, hempty⟩
    obtain ⟨hc, hcaptured⟩ := (hcaptures c).1 hc
    obtain ⟨j, hmembers, _⟩ := Constant.members_of_isCaptured hcaptured hempty
    exact ⟨j, (hmem j).2 ⟨c, hc, by simp [hmembers]⟩⟩
  · intro j hj
    obtain ⟨c, hc, hj⟩ := (hmem j).1 hj
    obtain ⟨hcaptured, _, hsaid⟩ := Constant.of_mem_members hj
    exact ⟨c, (hcaptures c).2 ⟨hc, hcaptured⟩, hsaid, fun c' hkind hsaid' => hsaid.sameValue hsaid' hkind⟩

end VarNode

/-- The constant of a variable is the one in its initializer, unless the variable depends on a template
parameter. -/
theorem TranslationUnit.constantOf?_eq_some_iff {u : TranslationUnit} {d : DeclId} {v : VarNode}
    (hkind : (u.node d).kind = .var v) (c : Constant) :
    u.constantOf? d = some c ↔ v.isTypeDependent = false ∧ v.init? = some (.constant c) := by
  unfold constantOf?
  simp only [hkind]
  split
  · next h => simp [h]
  · next h =>
    rw [Bool.not_eq_true] at h
    split
    · next c' hinit => simp [h, hinit]
    · next hinit => exact iff_of_false (by simp) fun ⟨_, hc⟩ => hinit c hc

/-! ## Items -/

/-- The item is a variable, by its tag. -/
def Json.IsVariable (item : Json) : Prop :=
  ∃ members, item = tagged "const" members ∨ item = tagged "extern" members

/-- An object is that of a variable by its tag alone. -/
theorem isVariable_tagged {tag : String} {members : List (String × Json)} :
    (tagged tag members).IsVariable ↔ tag = "const" ∨ tag = "extern" := by
  simp [Json.IsVariable, tagged, exists_or]

/-- Only variables have the tags of variables. The cases are the kinds of entries; the tags of records
and functions are compared one by one. -/
theorem Entry.isVariable_toJson_iff (e : Entry) : e.toJson.IsVariable ↔ e.kindLabel = "var" := by
  have hrecord : ∀ isUnion isClass, recordTag isUnion isClass ≠ "const" ∧
      recordTag isUnion isClass ≠ "extern" := by decide
  cases e
  case var isExternal _ => cases isExternal <;> simp [toJson, varToJson, isVariable_tagged, kindLabel]
  case objcInterface o =>
    simp [toJson, InterfaceEntry.toJson, isVariable_tagged, kindLabel]
    split <;> decide
  all_goals
    simp [toJson, FunctionEntry.toJson, MethodEntry.toJson, FunctionEntry.toJsonWith, ClassEntry.toJson,
      isVariable_tagged, kindLabel, hrecord]

namespace Extract

variable {σ : Type} {ctx : Context σ} {r : Registry}

/-- The item is the object of the entry that the origin gives, so it is made of that declaration and of no
other one with the same name. It is a variable exactly if the declaration is one, and then it has the name
of the variable and tells its value. -/
structure Origin.TellsVariable (ctx : Context σ) (r : Registry) (o : Origin) (item : Json) : Prop where
  gives : ∃ e, o.Gives ctx r e ∧ item = e.toJson
  isVariable : item.IsVariable ↔ ∃ v, (ctx.unit.node o.source).kind = .var v
  value : ∀ v, (ctx.unit.node o.source).kind = .var v → ∃ members,
    item = tagged (if v.isExternal then "extern" else "const") members ∧
      ("name", .string (ctx.unit.entryName o.source)) ∈ members ∧ v.TellsValue members

theorem buildVar_constant (d : DeclId) (v : VarNode) :
    Returns (fun e => ∃ info type value? isString, e = .var info type value? v.isExternal isString ∧
      constantMember value? isString = ((ctx.unit.constantOf? d).map Constant.members).getD [])
      (buildVar ctx d v) := by
  refine .bind fun type => returns_pure ⟨_, type, _, _, rfl, ?_⟩
  cases ctx.unit.constantOf? d <;> rfl

/-- The entry of a variable has its name, and what it tells of the value is the constant. -/
theorem Origin.Gives.eq_var {o : Origin} {e : Entry} (h : o.Gives ctx r e) {v : VarNode}
    (hkind : (ctx.unit.node o.source).kind = .var v) :
    ∃ info type value? isString, e = .var info type value? v.isExternal isString ∧
      info.name = ctx.unit.entryName o.source ∧
      constantMember value? isString = ((ctx.unit.constantOf? o.source).map Constant.members).getD [] := by
  obtain ⟨occasion, scope?, d⟩ := o
  obtain ⟨s, e₀, s₁, build, _, rfl⟩ := h.built
  cases occasion with
  | declared =>
    have hinfo := (build?_describes s _ s₁ build e₀ rfl).info
    change Extract.build? ctx d s = .ok (some e₀) s₁ at build
    rw [build?_of_var hkind] at build
    obtain ⟨info, type, value?, isString, rfl, hmembers⟩ :=
      (buildVar_constant d v).some s _ s₁ build e₀ rfl
    obtain rfl : info = _ := hinfo
    exact ⟨_, type, value?, isString, rfl, rfl, hmembers⟩
  | referred =>
    change buildPending? ctx d s = .ok (some e₀) s₁ at build
    rw [buildPending?_of_var hkind] at build
    cases (pure_eq_ok.1 build).1

/-- A declaration is told as a variable if it is one. -/
theorem entryLabel_eq_var_iff {u : TranslationUnit} {d : DeclId} :
    u.entryLabel d = "var" ↔ ∃ v, (u.node d).kind = .var v := by
  refine ⟨exists_var_of_entryLabel, ?_⟩
  rintro ⟨v, hkind⟩
  simp [TranslationUnit.entryLabel, hkind]

/-- **The item of an entry tells the variable it is made of**, and that of any other entry is no
variable. -/
theorem Origin.Gives.tellsVariable {o : Origin} {e : Entry} (h : o.Gives ctx r e) :
    o.TellsVariable ctx r e.toJson where
  gives := ⟨e, h, rfl⟩
  isVariable := by rw [e.isVariable_toJson_iff, h.label, entryLabel_eq_var_iff]
  value v hkind := by
    obtain ⟨info, type, value?, isString, rfl, hname, hmembers⟩ := h.eq_var hkind
    refine ⟨_, rfl, by simp [hname], ?_⟩
    rw [hmembers]
    exact VarNode.tellsValue_append (TranslationUnit.constantOf?_eq_some_iff hkind) (by simp)

/-- An entry that was given by an origin can be written as JSON. -/
theorem Origin.Gives.hasValue {o : Origin} {e : Entry} (h : o.Gives ctx r e) : e.HasValue := by
  obtain ⟨occasion, scope?, d⟩ := o
  obtain ⟨s, e₀, s₁, build, _, rfl⟩ := h.built
  have hentry : IsEntryOf ctx d e₀ := by
    cases occasion with
    | declared => exact .declared build
    | referred => exact .referred build
  exact hasValue_stamp _ _ hentry.hasValue

/-- **A document tells the values of its variables.** Each item has the declaration it is made of, and the
item of a variable says the constant in the initializer, if that is captured and not the empty literal. -/
theorem document_tellsConstants (u : TranslationUnit) (oracle : LayoutOracle)
    (namespaceName? : Option String) {s' : Session Page}
    (h : document { unit := u, oracle, writer := JsonForm.writer } namespaceName? { page := {} } =
      .ok () s') :
    ∃ (text : String) (items : List Json) (origins : List Origin),
      s'.page.sink.contents = text.toUTF8 ∧
        Json.ofString? text = some (.array (JsonForm.namespaceItems namespaceName? ++ items)) ∧
        List.Forall₂
          (Origin.TellsVariable { unit := u, oracle, writer := JsonForm.writer } s'.registry)
          origins items := by
  obtain ⟨p₁, s₂, hopening, hvisit, hfooter, hs'⟩ := document_eq_ok h
  have hregistry : s'.registry = s₂.registry := by rw [hs']
  obtain ⟨es, hvisits⟩ := visits_of_forM _ hvisit
  obtain ⟨_, origins, htraces, _⟩ :=
    hvisits.traces rfl (fun d hd hvalid => .top (by simpa using hd) hvalid) .rfl
  have hboth := htraces.gives.flip.imp fun e o (hgives : Origin.Gives _ _ o e) =>
    And.intro hgives.hasValue hgives
  have hvalues : ∀ e ∈ es, e.HasValue := ((List.forall₂_and_left _ _).1 hboth).1
  obtain ⟨text, hcontents, htext, _⟩ :=
    isJson_of_performs (performs_of_writes hopening hvisits.wrote.writes hfooter) hvalues
  refine ⟨text, es.map Entry.toJson, origins, hcontents, htext, ?_⟩
  rw [hregistry]
  exact List.forall₂_map_right_iff.2 (htraces.gives.imp fun _ _ hgives => hgives.tellsVariable)

/-- Variables with the least and the greatest integer, a double, minus infinity, a literal that looks like
a number, an empty one and a wide one, and a variable without an initializer. -/
def constants : TranslationUnit :=
  let var (name : String) (type : Nat) (init? : Option Initializer) : Node :=
    { name, kind := .var { type := ⟨type⟩, init? } }
  { file := "a.h"
    types := #[.builtin .long, .builtin .unsignedLong, .builtin .double, .builtin .char, .pointer ⟨3⟩]
    nodes := #[var "low" 0 (some (.constant (.signed (-9223372036854775808)))),
      var "high" 1 (some (.constant (.unsigned 18446744073709551615))),
      var "third" 2 (some (.constant (.double 0x3fd5555555555555))),
      var "below" 2 (some (.constant (.double 0xfff0000000000000))),
      var "digits" 4 (some (.constant (.string ⟨"12".toUTF8, .ordinary⟩))),
      var "blank" 4 (some (.constant (.string ⟨"".toUTF8, .utf8⟩))),
      var "wide" 4 (some (.constant (.string ⟨"w".toUTF8, .wide⟩))),
      var "bare" 0 none]
    topLevel := #[⟨0⟩, ⟨1⟩, ⟨2⟩, ⟨3⟩, ⟨4⟩, ⟨5⟩, ⟨6⟩, ⟨7⟩] }

theorem document_tellsConstants_constants :
    let oracle := Layout.natural constants (Target.lp64 "")
    let ctx : Context Page := { unit := constants, oracle, writer := JsonForm.writer }
    let s' := after (document ctx none) { page := {} }
    document ctx none { page := {} } = .ok () s' ∧
      ∃ (text : String) (items : List Json) (origins : List Origin),
        s'.page.sink.contents = text.toUTF8 ∧
          Json.ofString? text = some (.array (JsonForm.namespaceItems none ++ items)) ∧
          List.Forall₂ (Origin.TellsVariable ctx s'.registry) origins items := by
  intro oracle ctx s'
  have hs' : document ctx none { page := {} } = .ok () s' := ok_after_of_succeeds (by decide +kernel)
  exact ⟨hs', document_tellsConstants constants oracle none hs'⟩

/-- A variable with the empty literal. -/
def blank : TranslationUnit where
  file := "a.h"
  types := #[.builtin .char, .pointer ⟨0⟩]
  nodes := #[{
    name := "s"
    kind := .var { type := ⟨1⟩, init? := some (.constant (.string ⟨"".toUTF8, .ordinary⟩)) } }]
  topLevel := #[⟨0⟩]

/-- The empty literal is captured, and the object of its variable has no value. -/
theorem document_dropsEmpty :
    let ctx : Context Page :=
      { unit := blank, oracle := Layout.natural blank (Target.lp64 ""), writer := JsonForm.writer }
    let s' := after (document ctx none) { page := {} }
    document ctx none { page := {} } = .ok () s' ∧
      ∃ (text : String) (members : List (String × Json)) (v : VarNode) (c : Constant),
        s'.page.sink.contents = text.toUTF8 ∧
          Json.ofString? text = some (.array [tagged "const" members]) ∧
          (blank.node ⟨0⟩).kind = .var v ∧ v.Captures c ∧ ∀ j, ("value", j) ∉ members := by
  intro ctx s'
  have hs' : document ctx none { page := {} } = .ok () s' := ok_after_of_succeeds (by decide +kernel)
  let type : TypeRef := .pointer (.basic ":char" 8 8)
  let e : Entry := .var { name := "s" } type (some "") false true
  have hvalue : e.HasValue := fun _ _ hstring => nomatch hstring
  refine ⟨hs', "[\n" ++ Json.joined ",\n" [e.toJson] ++ "\n]\n",
    [("name", .string "s"), ("ns", .nat 0), ("location", .string ""), ("type", type.toJson)], _, _,
    ?_, ?_, rfl, ⟨rfl, rfl, "", .inl rfl, rfl⟩, by simp⟩
  · exact ByteArray.ext (Array.ext' (by decide +kernel))
  · exact Json.ofString?_joined (by simpa using Entry.wellFormed_toJson hvalue)

end Extract

end ForeignDecl
