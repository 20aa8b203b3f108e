import ForeignDecl.Proofs.Extract.Origins

/-!
# Typedefs and aliases

A typedef and a type alias say the same in two spellings, and their entries differ in the kind only
(`TellsAlias`). One of a type that leads to an invalid record should not be told, but only the typedef is
checked: of all typedefs that are met, those are told that do not lead to an invalid record, and of the type
aliases all of them (`document_aliases`).
-/

set_option autoImplicit false

namespace ForeignDecl

/-- Through sugar, typedefs and aliases, `t` is an invalid record. That is what the check of a typedef
looks for. -/
def TranslationUnit.NamesInvalid (u : TranslationUnit) (t : TypeId) : Prop :=
  ∃ x, u.NamesRecord t x ∧ (u.node x).isInvalid

/-- The declarations that give a type another name are of two kinds. -/
theorem Node.aliased?_eq_some {n : Node} {t : TypeId} :
    n.aliased? = some t ↔ n.kind = .typedef t ∨ n.kind = .typeAlias t := by
  unfold aliased?
  split <;> simp_all

namespace Extract

variable {σ : Type} {ctx : Context σ} {r : Registry} {d : DeclId} {t : TypeId}

/-- What a typedef or a type alias of `t` is told as. The two kinds share one statement, so that what is
said of one is said of the other. -/
structure TellsAlias (ctx : Context σ) (r : Registry) (o : Origin) (t : TypeId) (e : Entry) : Prop where
  label : e.kindLabel = ctx.unit.entryLabel o.source
  name : e.name = (ctx.unit.node o.source).name
  scope : e.info.scope = r.scopeNumber ctx.unit o.scope?
  /-- Under either name, the type is described in the same way. -/
  type : ∃ s type s', describe ctx t s = .ok type s' ∧
    (e = .typedef e.info type ∨ e = .typeAlias e.info type)

/-- A valid typedef contributes if it does not lead to an invalid record, an alias in any case. -/
theorem contributes_iff_of_aliased {u : TranslationUnit} {oracle : LayoutOracle}
    (h : (u.node d).aliased? = some t) :
    u.Contributes oracle d ↔ (u.node d).kind = .typeAlias t ∨ ¬ u.NamesInvalid t := by
  unfold TranslationUnit.Contributes
  rcases Node.aliased?_eq_some.1 h with hkind | hkind
  · simp [hkind, TranslationUnit.NamesInvalid]
  · simp [hkind, NodeKind.isWritten]

theorem isWritten_of_aliased {n : Node} (h : n.aliased? = some t) : n.kind.isWritten := by
  rcases Node.aliased?_eq_some.1 h with hkind | hkind <;> rw [hkind] <;> rfl

/-- Both builders tell the name and describe the type. -/
theorem build?_aliased_eq_ok {s s' : Session σ} {e : Entry}
    (halias : (ctx.unit.node d).aliased? = some t) (h : build? ctx d s = .ok (some e) s') :
    ∃ type s₁, describe ctx t s = .ok type s₁ ∧
      (e = .typedef { name := (ctx.unit.node d).name } type ∨
        e = .typeAlias { name := (ctx.unit.node d).name } type) := by
  unfold build? at h
  rcases Node.aliased?_eq_some.1 halias with hkind | hkind
  · simp only [hkind, buildTypedef?] at h
    split at h
    · obtain ⟨type, s₁, htype, h⟩ := bind_eq_ok.1 h
      cases (pure_eq_ok.1 h).1
      exact ⟨type, s₁, htype, .inl rfl⟩
    · obtain ⟨_, s₁, _, h⟩ := bind_eq_ok.1 h
      cases (pure_eq_ok.1 h).1
  · simp only [hkind, buildTypeAlias] at h
    obtain ⟨e', h, he⟩ := map_eq_ok.1 h
    cases he
    obtain ⟨type, s₁, htype, h⟩ := bind_eq_ok.1 h
    cases (pure_eq_ok.1 h).1
    exact ⟨type, s₁, htype, .inr rfl⟩

/-- An entry is made of a typedef or alias only where that is declared, and only if it contributes.
Neither kind is ever queued, which rules out the other occasion. -/
theorem Origin.Gives.of_aliased {o : Origin} {e : Entry} (h : o.Gives ctx r e)
    (halias : (ctx.unit.node o.source).aliased? = some t) :
    ctx.unit.Contributes ctx.oracle o.source ∧ TellsAlias ctx r o t e := by
  have hlabel := h.label
  obtain ⟨occasion, scope?, d⟩ := o
  obtain ⟨s, e₀, s', build, _, rfl⟩ := h.built
  cases occasion with
  | referred =>
    have hrecord : (ctx.unit.node d).record? = none := by
      unfold Node.record?
      rcases Node.aliased?_eq_some.1 halias with hkind | hkind <;> rw [hkind]
    rcases buildPending?_eq_ok build with ⟨he, _⟩ | ⟨_, _, hr, _⟩ | ⟨_, _, _, hr, _⟩
    · cases he
    · simp [hrecord] at hr
    · simp [hrecord] at hr
  | declared =>
    have hmet : ctx.unit.Meets scope? d := h.met
    have hcontributes : ctx.unit.Contributes ctx.oracle d :=
      (build?_isSome_iff hmet.valid (isWritten_of_aliased halias) build).1 rfl
    obtain ⟨type, s₁, htype, he⟩ := build?_aliased_eq_ok halias build
    refine ⟨hcontributes, hlabel, ?_, by simp, s, type, s₁, htype, ?_⟩
    · rcases he with rfl | rfl <;> rfl
    · rcases he with rfl | rfl
      · exact .inl rfl
      · exact .inr rfl

/-- **Of the typedefs and aliases that are met, all are told but the typedefs of invalid records.** Both
are told alike, by name, scope and type. Which of them are told is settled as an equivalence, so a
typedef of a valid record is not left out either; that an alias of an invalid record is told is the
difference between the two builders. -/
theorem document_aliases {w : DocumentWriter σ} {page : σ} (u : TranslationUnit) (oracle : LayoutOracle)
    (namespaceName? : Option String) {s' : Session (σ × List Call)}
    (h : document { unit := u, oracle, writer := w.recorded } namespaceName? { page := (page, []) } =
      .ok () s') :
    let ctx : Context (σ × List Call) := { unit := u, oracle, writer := w.recorded }
    ∃ origins,
      List.Forall₂ (fun o e => o.Gives ctx s'.registry e ∧
        ∀ t, (u.node o.source).aliased? = some t → TellsAlias ctx s'.registry o t e) origins
        (Call.entries s'.page.2) ∧
      ∀ scope? d t, u.Meets scope? d → (u.node d).aliased? = some t →
        ((∃ o ∈ origins, o.source = d) ↔
          (u.node d).kind = .typeAlias t ∨ ¬ u.NamesInvalid t) := by
  intro ctx
  obtain ⟨origins, hgives, hcomplete⟩ := document_contributes h
  refine ⟨origins, hgives.imp fun o e hgives => ⟨hgives, fun t halias => (hgives.of_aliased halias).2⟩,
    fun scope? d t hmet halias => ?_⟩
  rw [← contributes_iff_of_aliased halias]
  constructor
  · rintro ⟨o, ho, rfl⟩
    have hboth := hgives.imp fun o e (hgives : Origin.Gives ctx s'.registry o e) =>
      And.intro (fun t halias => (hgives.of_aliased (t := t) halias).1) hgives
    exact ((List.forall₂_and_left _ _).1 hboth).1 o ho t halias
  · intro hcontributes
    obtain ⟨scope', hmem⟩ := hcomplete scope? d hmet hcontributes
    exact ⟨_, hmem, rfl⟩

/-- A typedef and an alias of an invalid record, each with another name in between, and an alias of a valid
one. -/
def disowning : TranslationUnit where
  file := "a.hpp"
  types := #[.record ⟨0⟩, .typedef ⟨1⟩, .elaborated ⟨1⟩, .typedef ⟨2⟩, .record ⟨5⟩]
  nodes := #[{ name := "S", isInvalid := true, kind := .record {} },
    { name := "A", kind := .typedef ⟨0⟩ }, { name := "B", kind := .typeAlias ⟨2⟩ },
    { name := "C", kind := .typedef ⟨3⟩ }, { name := "D", kind := .typeAlias ⟨4⟩ },
    { name := "T", kind := .record { isComplete := false } }, { name := "E", kind := .typedef ⟨4⟩ }]
  topLevel := #[⟨0⟩, ⟨1⟩, ⟨2⟩, ⟨3⟩, ⟨4⟩, ⟨5⟩, ⟨6⟩]

theorem document_aliases_disowning :
    let ctx : Context (Unit × List Call) :=
      { unit := disowning, oracle := knowsNothing, writer := DocumentWriter.silent.recorded }
    let s' := after (document ctx none) { page := ((), []) }
    document ctx none { page := ((), []) } = .ok () s' ∧
      ∃ origins,
        List.Forall₂ (fun o e => o.Gives ctx s'.registry e ∧
          ∀ t, (disowning.node o.source).aliased? = some t → TellsAlias ctx s'.registry o t e) origins
          (Call.entries s'.page.2) ∧
        (∃ o ∈ origins, o.source = ⟨6⟩) ∧ ¬ ∃ o ∈ origins, o.source = ⟨3⟩ := by
  intro ctx s'
  have hs' : document ctx none { page := ((), []) } = .ok () s' :=
    ok_after_of_succeeds (by decide +kernel)
  obtain ⟨origins, htells, horigins⟩ := document_aliases disowning knowsNothing none hs'
  have hvalid : ¬ disowning.NamesInvalid ⟨4⟩ := by
    rintro ⟨x, hx, hinvalid⟩
    have hresolve := TranslationUnit.resolve_eq_record_iff.2 hx
    have hfound : disowning.resolve ⟨4⟩ = .record ⟨5⟩ := by decide +kernel
    cases hresolve.symm.trans hfound
    cases hinvalid
  have hinvalid : disowning.NamesInvalid ⟨3⟩ :=
    ⟨⟨0⟩, TranslationUnit.resolve_eq_record_iff.1 (by decide +kernel), rfl⟩
  have htold := (horigins none ⟨6⟩ ⟨4⟩ (.top (by simp [disowning]) rfl) rfl).2 (.inr hvalid)
  refine ⟨hs', origins, htells, htold, fun hleft => ?_⟩
  rcases (horigins none ⟨3⟩ ⟨3⟩ (.top (by simp [disowning]) rfl) rfl).1 hleft with hkind | hnone
  · cases hkind
  · exact hnone hinvalid

/-- The typedefs of the invalid record are left out, and its alias is told. -/
theorem document_tells_disowned_alias :
    let ctx : Context (Unit × List Call) :=
      { unit := disowning, oracle := knowsNothing, writer := DocumentWriter.silent.recorded }
    let s' := after (document ctx none) { page := ((), []) }
    succeeds (document ctx none) { page := ((), []) } ∧
      (∃ t, (disowning.node ⟨2⟩).kind = .typeAlias t ∧ disowning.NamesInvalid t) ∧
      (Call.entries s'.page.2).map (fun e => (e.kindLabel, e.name)) =
        [("type-alias", "B"), ("type-alias", "D"), ("record", "T"), ("typedef", "E")] := by
  refine ⟨by decide +kernel, ⟨⟨2⟩, rfl, ⟨0⟩, ?_, rfl⟩, by decide +kernel⟩
  exact TranslationUnit.resolve_eq_record_iff.1 (by decide +kernel)

end Extract

end ForeignDecl
