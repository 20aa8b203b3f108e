import ForeignDecl.Proofs.Document.JsonForm
import ForeignDecl.Proofs.Extract.Entries
import ForeignDecl.Proofs.Extract.Writing

/-!
# Whole documents

A document is opened, the declarations of a unit are visited, and it is closed. `document_eq_ok` says
what that leaves of a run that succeeded; what was written in between is told by the `Writes` of the
visit. `document_isJson` is the first use: what a run over the JSON form leaves in its sink is one
JSON array.
-/

set_option autoImplicit false

namespace ForeignDecl

namespace Extract

variable {σ : Type} {ctx : Context σ}

/-- Opening a document makes the calls of an opening and changes only the page. -/
theorem start_eq_ok {namespaceName? : Option String} {s s' : Session σ}
    (h : start ctx namespaceName? s = .ok () s') :
    ∃ page, ctx.writer.Performs (Call.opening namespaceName?) s.page page ∧
      s' = { s with page } := by
  obtain ⟨_, s₁, hheader, h⟩ := bind_eq_ok.1 h
  obtain ⟨p₁, hp₁, rfl⟩ := send_eq_ok.1 hheader
  cases namespaceName? with
  | none =>
    obtain ⟨_, rfl⟩ := pure_eq_ok.1 h
    exact ⟨p₁, ⟨p₁, hp₁, rfl⟩, rfl⟩
  | some name =>
    obtain ⟨p₂, hp₂, rfl⟩ := send_eq_ok.1 h
    exact ⟨p₂, ⟨p₁, hp₁, p₂, hp₂, rfl⟩, rfl⟩

/-- A document that succeeds is its opening, a visit of everything at top level, and a footer. -/
theorem document_eq_ok {namespaceName? : Option String} {page : σ} {s' : Session σ}
    (h : document ctx namespaceName? { page } = .ok () s') :
    ∃ p₁ s₂, ctx.writer.Performs (Call.opening namespaceName?) page p₁ ∧
      visitTopLevel ctx ctx.unit.topLevel.toList { page := p₁ } = .ok () s₂ ∧
      ctx.writer.Performs [.footer] s₂.page s'.page ∧ s' = { s₂ with page := s'.page } := by
  obtain ⟨_, s₁, hstart, h⟩ := bind_eq_ok.1 h
  obtain ⟨_, s₂, hvisit, hfinish⟩ := bind_eq_ok.1 h
  obtain ⟨p₁, hopening, rfl⟩ := start_eq_ok hstart
  obtain ⟨p₂, hfooter, rfl⟩ := send_eq_ok.1 hfinish
  exact ⟨p₁, s₂, hopening, hvisit, .single hfooter, rfl⟩

/-- The entries that the visit writes are the entries of the document, and with the opening before them
and the footer behind them the calls are those of the protocol. -/
theorem performs_of_writes {namespaceName? : Option String} {page p₁ : σ} {s₂ s' : Session σ}
    {es : List Entry} (hopening : ctx.writer.Performs (Call.opening namespaceName?) page p₁)
    (hwrites : Writes ctx.writer es { page := p₁ } s₂)
    (hfooter : ctx.writer.Performs [.footer] s₂.page s'.page) :
    ctx.writer.Performs (Call.protocol namespaceName? es) page s'.page := by
  have hentries := hwrites.page
  rw [Call.following_false] at hentries
  exact (hopening.append hentries).append hfooter

/-! ## The JSON form -/

/-- Only variables have values to be asked about. -/
theorem hasValue_of_label {e : Entry} (h : e.kindLabel ≠ "var") : e.HasValue := by
  cases e
  case var => exact absurd rfl h
  all_goals trivial

theorem hasValue_stamp {e : Entry} (scope : Nat) (location : String) (h : e.HasValue) :
    (stamp scope location e).HasValue := by
  cases e <;> exact h

theorem exists_var_of_entryLabel {u : TranslationUnit} {d : DeclId} (h : u.entryLabel d = "var") :
    ∃ v, (u.node d).kind = .var v := by
  unfold TranslationUnit.entryLabel at h
  split at h
  case h_2 v hkind => exact ⟨v, hkind⟩
  case h_4 r _ => split at h <;> simp at h
  all_goals simp at h

/-- The value of a variable comes from a constant, so unless it is a string it is a number in JSON or
one of the words for doubles that are none. -/
theorem buildVar_hasValue (d : DeclId) (v : VarNode) : Returns Entry.HasValue (buildVar ctx d v) := by
  refine .bind fun type => returns_pure fun value hvalue hstring => ?_
  cases hconstant : ctx.unit.constantOf? d with
  | none => simp [hconstant] at hvalue
  | some c =>
    simp only [hconstant] at hvalue hstring
    exact Constant.text_isNumber (Prod.ext hvalue hstring)

theorem build?_of_var {d : DeclId} {v : VarNode} (h : (ctx.unit.node d).kind = .var v) :
    build? ctx d = some <$> buildVar ctx d v := by
  unfold build?
  simp only [h]

theorem buildPending?_of_var {d : DeclId} {v : VarNode} (h : (ctx.unit.node d).kind = .var v) :
    buildPending? ctx d = pure none := by
  unfold buildPending? Node.record?
  simp only [h]

/-- **Every entry that a builder makes can be written as JSON.** Nothing else about entries matters for
the form of the text. -/
theorem IsEntryOf.hasValue {d : DeclId} {e : Entry} (h : IsEntryOf ctx d e) : e.HasValue := by
  -- Of all builders, only the one for variables puts in a value.
  by_cases hlabel : e.kindLabel = "var"
  · cases h with
    | @declared s s' h =>
      have hentry := (build?_describes s _ s' h e rfl).label
      obtain ⟨v, hkind⟩ := exists_var_of_entryLabel (hentry.symm.trans hlabel)
      rw [build?_of_var hkind] at h
      exact (buildVar_hasValue d v).some s _ s' h e rfl
    | @referred s s' h =>
      have hentry := (buildPending?_describes s _ s' h e rfl).label
      obtain ⟨v, hkind⟩ := exists_var_of_entryLabel (hentry.symm.trans hlabel)
      rw [buildPending?_of_var hkind] at h
      cases (pure_eq_ok.1 h).1
  · exact hasValue_of_label hlabel

/-- **What is left in an empty sink is one JSON array** when a document was written to it. -/
theorem isJson_of_performs {namespaceName? : Option String} {es : List Entry} {page : Page}
    (h : JsonForm.writer.Performs (Call.protocol namespaceName? es) {} page)
    (hes : ∀ e ∈ es, e.HasValue) :
    ∃ text : String,
      let items := JsonForm.namespaceItems namespaceName? ++ es.map Entry.toJson
      page.sink.contents = text.toUTF8 ∧ Json.ofString? text = some (.array items) ∧
        (Json.array items).WellFormed := by
  have hvalues : ∀ j ∈ JsonForm.namespaceItems namespaceName? ++ es.map Entry.toJson,
      j.WellFormed := by
    intro j hj
    rcases List.mem_append.1 hj with hj | hj
    · cases namespaceName? with
      | none => simp [JsonForm.namespaceItems] at hj
      | some name =>
        obtain rfl : j = _ := by simpa [JsonForm.namespaceItems] using hj
        exact Json.wellFormed_tagged (by simp) (by simp)
    · obtain ⟨e, he, rfl⟩ := List.mem_map.1 hj
      exact Entry.wellFormed_toJson (hes e he)
  refine ⟨_, ?_, Json.ofString?_joined hvalues, .array hvalues⟩
  rw [JsonForm.performs_protocol rfl rfl h]
  simp [Page.write, JsonForm.itemSeparator]

/-- **What a successful run leaves is one JSON array**: the namespace when there is one, and then one
value for every entry. No object in it has a key twice, at any depth, and every number is written as
one. The text is read by a reader of the standard that knows nothing about the writer, so this is a
statement about the bytes and not about how they were put together. -/
theorem document_isJson (u : TranslationUnit) (oracle : LayoutOracle)
    (namespaceName? : Option String) {s' : Session Page}
    (h : document { unit := u, oracle, writer := JsonForm.writer } namespaceName? { page := {} } =
      .ok () s') :
    ∃ (text : String) (es : List Entry),
      let items := JsonForm.namespaceItems namespaceName? ++ es.map Entry.toJson
      s'.page.sink.contents = text.toUTF8 ∧ Json.ofString? text = some (.array items) ∧
        (Json.array items).WellFormed ∧ es.length = s'.summary.emitted := by
  obtain ⟨p₁, s₂, hopening, hvisit, hfooter, hs'⟩ := document_eq_ok h
  have hp₁ : p₁.sink.limit? = none := JsonForm.writer_accepts.of_performs (p := {}) rfl hopening
  obtain ⟨_, es, hwrites, hmade⟩ :=
    ((allows_reports JsonForm.writer_accepts).visitTopLevel _).of_ok hvisit hp₁
  have hvalues : ∀ e ∈ es, e.HasValue := by
    intro e he
    obtain ⟨d, e₀, scope, location, hentry, rfl⟩ := hmade e he
    exact hasValue_stamp scope location hentry.hasValue
  obtain ⟨text, hcontents, htext, hwellFormed⟩ :=
    isJson_of_performs (performs_of_writes hopening hwrites hfooter) hvalues
  refine ⟨text, es, hcontents, htext, hwellFormed, ?_⟩
  have hcount := hwrites.emitted
  rw [hs']
  simpa using hcount.symm

/-- An oracle that knows nothing. -/
def knowsNothing : LayoutOracle where
  type _ := .error (.incomplete "")
  record _ := .error (.incomplete "")
  baseOffset _ _ := .error (.incomplete "")
  virtualBaseOffset _ _ := .error (.incomplete "")

/-- A namespace around an enumeration with a name that needs escaping, and a typedef. -/
def escaped : TranslationUnit where
  file := "a.h"
  types := #[.builtin .void]
  nodes := #[{ name := "n", kind := .namespaceBlock [⟨1⟩] },
    { name := "\"\n", kind := .enum [{ name := "low", value := -1 }] },
    { name := "t", kind := .typedef ⟨0⟩ }]
  topLevel := #[⟨0⟩, ⟨2⟩]

theorem document_isJson_escaped :
    ∃ s' : Session Page, document
        { unit := escaped, oracle := knowsNothing, writer := JsonForm.writer } (some "x")
        { page := {} } = .ok () s' ∧
      ∃ (text : String) (es : List Entry),
        let items := JsonForm.namespaceItems (some "x") ++ es.map Entry.toJson
        s'.page.sink.contents = text.toUTF8 ∧ Json.ofString? text = some (.array items) ∧
          (Json.array items).WellFormed ∧ es.length = s'.summary.emitted := by
  have hok : succeeds (document
      { unit := escaped, oracle := knowsNothing, writer := JsonForm.writer } (some "x"))
      { page := {} } := by decide +kernel
  obtain ⟨_, s', hs'⟩ := exists_of_succeeds hok
  exact ⟨s', hs', document_isJson escaped knowsNothing (some "x") hs'⟩

end Extract

end ForeignDecl
