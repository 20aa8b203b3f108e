import ForeignDecl.Proofs.Extract.Documents
import ForeignDecl.Proofs.Extract.Runs
import ForeignDecl.Proofs.Unit.Resolution

/-!
# What a document lists

Apart from the unnamed records, which are written where they are needed, a document lists the
declarations of a unit in the order in which they are met: each before its members, and its members in
order before what follows it. `Listing` is that order, said without sessions, queues or writers, and
`document_lists` is the theorem that a document has exactly those entries.

Three facts make it up. A builder has an entry exactly for what contributes (`build?_isSome_iff`); the
queue holds nothing but unnamed records, which are filtered out (`Flushes.unnamed`); and the scope that an
entry is stamped with has a number that stays (`Emits.listed`). `Visits.listing` puts them together by
induction on the visit.
-/

set_option autoImplicit false

namespace ForeignDecl

/-! ## The listing of a unit -/

/-- A valid declaration is told in an entry of its own. For records and typedefs this is a condition on
the unit and the oracle; every other kind either always is or never. -/
def TranslationUnit.Contributes (u : TranslationUnit) (oracle : LayoutOracle) (d : DeclId) : Prop :=
  match (u.node d).kind with
  | .record r =>
    (u.node d).name ≠ "" ∧ (r.isCxx → r.isComplete) ∧ (r.NeedsSize → ¬ oracle.Refuses d)
  | .typedef t => ∀ x, u.NamesRecord t x → (u.node x).isInvalid = false
  | kind => kind.isWritten

/-- The declarations that are told when `ds` are met inside a scope, each with its scope. What is
invalid is left out with all it contains; what does not contribute is left out by itself, and its
members are listed all the same. -/
inductive Listing (u : TranslationUnit) (oracle : LayoutOracle) :
    Option DeclId → List DeclId → List (Option DeclId × DeclId) → Prop where
  | nil {scope? : Option DeclId} : Listing u oracle scope? [] []
  | invalid {scope? : Option DeclId} {d : DeclId} {ds : List DeclId}
    {items : List (Option DeclId × DeclId)} (hinvalid : (u.node d).isInvalid)
    (rest : Listing u oracle scope? ds items) : Listing u oracle scope? (d :: ds) items
  | shown {scope? : Option DeclId} {d : DeclId} {ds : List DeclId}
    {inner items : List (Option DeclId × DeclId)} (hvalid : (u.node d).isInvalid = false)
    (hshown : u.Contributes oracle d)
    (members : Listing u oracle (u.innerScope scope? d) (u.node d).members inner)
    (rest : Listing u oracle scope? ds items) :
    Listing u oracle scope? (d :: ds) ((scope?, d) :: (inner ++ items))
  | hidden {scope? : Option DeclId} {d : DeclId} {ds : List DeclId}
    {inner items : List (Option DeclId × DeclId)} (hvalid : (u.node d).isInvalid = false)
    (hhidden : ¬ u.Contributes oracle d)
    (members : Listing u oracle (u.innerScope scope? d) (u.node d).members inner)
    (rest : Listing u oracle scope? ds items) : Listing u oracle scope? (d :: ds) (inner ++ items)

/-- **There is at most one listing.** So a document is determined by the unit and the oracle up to what
its entries say. -/
theorem Listing.unique {u : TranslationUnit} {oracle : LayoutOracle} {scope? : Option DeclId}
    {ds : List DeclId} {items items' : List (Option DeclId × DeclId)}
    (h : Listing u oracle scope? ds items) (h' : Listing u oracle scope? ds items') :
    items = items' := by
  induction h generalizing items' with
  | nil =>
    cases h'
    rfl
  | invalid hinvalid _ ih =>
    cases h' with
    | invalid _ rest => exact ih rest
    | shown hvalid _ _ _ => simp [hinvalid] at hvalid
    | hidden hvalid _ _ _ => simp [hinvalid] at hvalid
  | shown hvalid hshown _ _ ihmembers ihrest =>
    cases h' with
    | invalid hinvalid _ => simp [hinvalid] at hvalid
    | shown _ _ members rest => rw [ihmembers members, ihrest rest]
    | hidden _ hhidden _ _ => exact absurd hshown hhidden
  | hidden hvalid hhidden _ _ ihmembers ihrest =>
    cases h' with
    | invalid hinvalid _ => simp [hinvalid] at hvalid
    | shown _ hshown _ _ => exact absurd hshown hhidden
    | hidden _ _ members rest => rw [ihmembers members, ihrest rest]

/-- An entry of a record without a name. -/
def Entry.isUnnamedRecord (e : Entry) : Bool := e.recordId?.isSome && e.name.isEmpty

namespace Extract

variable {σ : Type} {ctx : Context σ}

/-- `e` tells a listed declaration: a builder made it from the declaration, and scope and place were put
in. The first three fields can be read off the entry, and `built` says that nothing in it comes from
elsewhere. -/
structure Tells (ctx : Context σ) (registry : Registry) (item : Option DeclId × DeclId) (e : Entry) :
    Prop where
  label : e.kindLabel = ctx.unit.entryLabel item.2
  name : e.name = ctx.unit.entryName item.2
  scope : e.info.scope = registry.scopeNumber ctx.unit item.1
  built : ∃ s e₀ s', build? ctx item.2 s = .ok (some e₀) s' ∧
    e = stamp (registry.scopeNumber ctx.unit item.1) (ctx.unit.node item.2).locationText e₀

/-! ## Unnamed records -/

/-- Scope and place are all that a stamp changes. -/
@[simp]
theorem recordId?_stamp (scope : Nat) (location : String) (e : Entry) :
    (stamp scope location e).recordId? = e.recordId? := by
  cases e <;> rfl

@[simp]
theorem name_stamp (scope : Nat) (location : String) (e : Entry) :
    (stamp scope location e).name = e.name := by
  simp [stamp, Entry.name, Entry.info_mapInfo]

@[simp]
theorem scope_stamp (scope : Nat) (location : String) (e : Entry) :
    (stamp scope location e).info.scope = scope := by
  rw [stamp, Entry.info_mapInfo]

@[simp]
theorem kindLabel_stamp (scope : Nat) (location : String) (e : Entry) :
    (stamp scope location e).kindLabel = e.kindLabel := by
  cases e <;> rfl

@[simp]
theorem isUnnamedRecord_stamp (scope : Nat) (location : String) (e : Entry) :
    (stamp scope location e).isUnnamedRecord = e.isUnnamedRecord := by
  simp [Entry.isUnnamedRecord]

/-- What a builder queues are unnamed records. -/
theorem unnamed_of_pending (honce : ctx.unit.UnnamedDeclaredOnce) {d : DeclId} {s s' : Session σ}
    (h : Builds ctx.unit d s s') (hs : s.pending = ∅) :
    ∀ c ∈ s'.pending.toList, ctx.unit.IsUnnamedRecord c := by
  intro c hc
  rcases h.of_pending c hc with hc | ⟨x, rfl, hx⟩
  · rw [hs] at hc
    exact absurd hc (OrderedSet.not_mem_empty c)
  · rw [honce.canonical_eq x hx]
    exact hx

theorem isUnnamedRecord_of_buildPending? {d : DeclId} {s s' : Session σ} {e : Entry}
    (hd : ctx.unit.IsUnnamedRecord d) (h : buildPending? ctx d s = .ok (some e) s') :
    e.isUnnamedRecord := by
  have hname := (buildPending?_describes s _ s' h e rfl).info
  rcases buildPending?_eq_ok h with ⟨he, _, _⟩ | ⟨r, he, _⟩ | ⟨r, e', he, hr, _, hmakes⟩
  · cases he
  · cases he
  · cases he
    have hempty : e.name = "" := by
      rw [Entry.name, hname, ← hd.1]
      exact TranslationUnit.entryName_of_record (Node.record?_eq_some.1 hr)
    simp [Entry.isUnnamedRecord, hmakes.withEntry.id, hempty]

/-- Nothing but unnamed records is written from the queue. -/
theorem Flushes.unnamed (honce : ctx.unit.UnnamedDeclaredOnce) {ds : List DeclId}
    {s s' : Session σ} {es : List Entry} (h : Flushes ctx ds s es s') (hs : s.pending = ∅)
    (hds : ∀ d ∈ ds, ctx.unit.IsUnnamedRecord d) : ∀ e ∈ es, e.isUnnamedRecord := by
  induction h with
  | nil => simp
  | seen _ _ ih => exact ih hs fun d hd => hds d (by simp [hd])
  | @unseen d ds s s₁ s₂ s₃ s' e? es own es' hseen build queue write rest ihqueue ihrest =>
    have hbuilds : Builds ctx.unit d s s₁ := (buildPending?_builds d).of_ok build
    -- The entries come from the inner queue, from the record itself, and from the rest of the queue.
    have hqueue := ihqueue rfl (unnamed_of_pending honce hbuilds hs)
    have hrest := ihrest (write.pending.trans (queue.pending rfl)) fun d hd => hds d (by simp [hd])
    have hown : ∀ e ∈ own, e.isUnnamedRecord := by
      intro e he
      cases e? with
      | none =>
        rw [write.2] at he
        simp at he
      | some e₀ =>
        rw [write.2, List.mem_singleton] at he
        subst he
        have hentry := isUnnamedRecord_of_buildPending? (hds d (by simp)) build
        simpa using hentry
    intro e he
    rcases List.mem_append.1 he with he | he
    · exact hqueue e he
    · rcases List.mem_append.1 he with he | he
      · exact hown e he
      · exact hrest e he

/-- An entry with the number of a record was made of a record. -/
theorem exists_record_of_recordId? {e : Entry} {d : DeclId} (h : e.Describes ctx.unit d)
    (hid : e.recordId?.isSome) : ∃ r, (ctx.unit.node d).kind = .record r := by
  have hlabel : e.kindLabel = "record" ∨ e.kindLabel = "cxx-record" := by
    cases e <;> simp_all [Entry.recordId?, Entry.kindLabel]
  rw [h.label] at hlabel
  exact TranslationUnit.exists_record_of_entryLabel hlabel

/-- An unnamed record is not written where it is declared. -/
theorem not_isUnnamedRecord_of_build? {d : DeclId} {s s' : Session σ} {e : Entry}
    (h : build? ctx d s = .ok (some e) s') : e.isUnnamedRecord = false := by
  have hdescribes := build?_describes s _ s' h e rfl
  cases hid : e.recordId? with
  | none => simp [Entry.isUnnamedRecord, hid]
  | some id =>
    obtain ⟨r, hkind⟩ := exists_record_of_recordId? hdescribes (by simp [hid])
    rw [build?_of_record hkind] at h
    rcases buildAnyRecord?_eq_ok h with ⟨he, _⟩ | ⟨_, _, hentry, _⟩
    · cases he
    · have hname : e.name ≠ "" := by
        rw [Entry.name, hdescribes.info]
        change ctx.unit.entryName d ≠ ""
        rw [TranslationUnit.entryName_of_record hkind]
        exact hentry.named rfl
      simp [Entry.isUnnamedRecord, hname]

/-! ## Contributions -/

/-- The check that a typedef goes through, said without the recursion that resolves types. -/
theorem underlyingIsValid_iff {u : TranslationUnit} {t : TypeId} :
    underlyingIsValid u t ↔ ∀ x, u.NamesRecord t x → (u.node x).isInvalid = false := by
  unfold underlyingIsValid
  constructor
  · intro h x hx
    rw [TranslationUnit.resolve_eq_record_iff.2 hx] at h
    simpa using h
  · intro h
    split
    · next x hx => simp [h x (TranslationUnit.resolve_eq_record_iff.1 hx)]
    · rfl

theorem returns_isSome {x : Extract σ Entry} :
    Returns (fun e? => e?.isSome) (Option.some <$> x) := .map fun _ _ _ _ => rfl

/-- **A builder has an entry exactly for what contributes.** -/
theorem build?_isSome_iff {d : DeclId} {s s' : Session σ} {e? : Option Entry}
    (hvalid : (ctx.unit.node d).isInvalid = false) (hwritten : (ctx.unit.node d).kind.isWritten)
    (h : build? ctx d s = .ok e? s') : e?.isSome ↔ ctx.unit.Contributes ctx.oracle d := by
  have halways : Returns (fun e? => e?.isSome) (build? ctx d) →
      ctx.unit.Contributes ctx.oracle d → (e?.isSome ↔ ctx.unit.Contributes ctx.oracle d) :=
    fun hsome hcontributes => iff_of_true (hsome s e? s' h) hcontributes
  unfold build? at h halways
  dsimp only at h halways
  unfold TranslationUnit.Contributes at halways ⊢
  -- Records and typedefs may be left out. Of the others, those that get a turn always have an entry.
  cases hkind : (ctx.unit.node d).kind
  all_goals simp only [hkind] at h halways hwritten ⊢
  case record r =>
    rcases buildAnyRecord?_eq_ok h with ⟨rfl, hentry, _⟩ | ⟨e, rfl, hentry, _⟩
    · refine iff_of_false (by simp) fun ⟨hname, hdefined, hsized⟩ => hentry ?_
      exact ⟨fun _ => hname, fun hcxx => ⟨hdefined hcxx, hvalid⟩, hsized⟩
    · exact iff_of_true rfl ⟨hentry.named rfl, fun hcxx => (hentry.defined hcxx).1, hentry.sized⟩
  case typedef t =>
    rw [← underlyingIsValid_iff]
    unfold buildTypedef? at h
    split at h
    · next hunderlying =>
      obtain ⟨type, s₁, _, h⟩ := bind_eq_ok.1 h
      obtain ⟨rfl, _⟩ := pure_eq_ok.1 h
      exact iff_of_true rfl hunderlying
    · next hunderlying =>
      obtain ⟨_, s₁, _, h⟩ := bind_eq_ok.1 h
      obtain ⟨rfl, _⟩ := pure_eq_ok.1 h
      exact iff_of_false (by simp) hunderlying
  case function f => exact halways (.map fun _ _ _ _ => rfl) rfl
  case other label named =>
    cases named with
    | true => exact halways (.bind fun _ => returns_pure rfl) rfl
    | false => simp [NodeKind.isWritten] at hwritten
  case usingDecl => exact halways (returns_pure rfl) rfl
  case usingShadow => exact halways (returns_pure rfl) rfl
  case usingDirective => exact halways (returns_pure rfl) rfl
  all_goals first
    | exact halways returns_isSome rfl
    | simp [NodeKind.isWritten] at hwritten

/-- What gets no turn at being written has no entry. -/
theorem contributes_of_not_isWritten {u : TranslationUnit} {oracle : LayoutOracle} {d : DeclId}
    (h : (u.node d).kind.isWritten = false) : ¬ u.Contributes oracle d := by
  unfold TranslationUnit.Contributes
  cases hkind : (u.node d).kind <;> simp_all [NodeKind.isWritten]

/-! ## Runs -/

/-- Without the unnamed records, an emission writes the entry it was asked for, in a scope whose number
is final. -/
theorem Emits.listed (honce : ctx.unit.UnnamedDeclaredOnce) {d : DeclId} {e? : Option Entry}
    {s s₁ s' : Session σ} {es : List Entry} (build : build? ctx d s = .ok e? s₁)
    (h : Emits ctx d e? s₁ es s') (hs : s.pending = ∅) {r : Registry} (hr : s'.registry.Grows r) :
    (es.filter fun e => !e.isUnnamedRecord) = e?.toList.map
      (stamp (r.scopeNumber ctx.unit s.scope?) (ctx.unit.node d).locationText) := by
  obtain ⟨queued, own, s₂, hqueue, hown, rfl⟩ := h
  have hbuilds : Builds ctx.unit d s s₁ := (build?_builds d).of_ok build
  have hqueued := hqueue.unnamed honce rfl (unnamed_of_pending honce hbuilds hs)
  have hdropped : queued.filter (fun e => !e.isUnnamedRecord) = [] :=
    List.filter_eq_nil_iff.2 fun e he => by simp [hqueued e he]
  rw [List.filter_append, hdropped, List.nil_append]
  cases e? with
  | none => simp [hown.2]
  | some e =>
    obtain ⟨hwrite, rfl⟩ := hown
    obtain ⟨page, _, rfl⟩ := writeEntry_eq_ok.1 hwrite
    -- The scope is registered when the entry is written, and its number stays.
    have hscope : s₂.scope? = s.scope? := hqueue.wrote.scope.trans hbuilds.scope
    have hnumber : r.scopeNumber ctx.unit s₂.scope? =
        (s₂.registry.register ctx.unit s₂.scope?).1 := hr.scopeNumber_eq
    rw [← hscope, hnumber]
    simp [not_isUnnamedRecord_of_build? build]

/-- An entry that was built where its declaration is tells it, once it is stamped. -/
theorem tells_of_build? {d : DeclId} {e : Entry} {s s' : Session σ} {scope? : Option DeclId}
    {r : Registry} (build : build? ctx d s = .ok (some e) s') :
    Tells ctx r (scope?, d)
      (stamp (r.scopeNumber ctx.unit scope?) (ctx.unit.node d).locationText e) := by
  have hdescribes := build?_describes _ _ s' build e rfl
  exact {
    label := by rw [kindLabel_stamp, hdescribes.label]
    name := by rw [name_stamp, Entry.name, hdescribes.info]
    scope := by simp [stamp, Entry.info_mapInfo]
    built := ⟨s, e, s', build, rfl⟩ }

/-- **A visit that succeeds tells what is listed**, in order, and otherwise only unnamed records. -/
theorem Visits.listing (honce : ctx.unit.UnnamedDeclaredOnce) {n : Nat} {scope? : Option DeclId}
    {ds : List DeclId} {s s' : Session σ} {es : List Entry} (h : Visits ctx n scope? ds s es s')
    (hs : s.pending = ∅) (hds : ∀ d ∈ ds, ctx.unit.DepthWithin n d) :
    ∃ items, Listing ctx.unit ctx.oracle scope? ds items ∧
      ∀ r, s'.registry.Grows r →
        List.Forall₂ (Tells ctx r) items (es.filter fun e => !e.isUnnamedRecord) := by
  induction h with
  | nil => exact ⟨[], .nil, fun _ _ => .nil⟩
  | @tooDeep scope? ds s =>
    cases ds with
    | nil => exact ⟨[], .nil, fun _ _ => .nil⟩
    | cons d ds => nomatch hds d (by simp)
  | invalid hinvalid _ ih =>
    obtain ⟨items, hlisting, htells⟩ := ih hs fun d hd => hds d (by simp [hd])
    exact ⟨items, .invalid hinvalid hlisting, htells⟩
  | @passed n scope? d ds s s₁ s' es es' hvalid hkind members rest ihmembers ihrest =>
    obtain ⟨inner, hinner, htells⟩ := ihmembers hs fun m hm => (hds d (by simp)).member hm
    obtain ⟨items, hitems, htells'⟩ := ihrest (members.pending hs) fun d hd => hds d (by simp [hd])
    refine ⟨_, .hidden hvalid (contributes_of_not_isWritten hkind) hinner hitems, ?_⟩
    intro r hr
    rw [List.filter_append]
    exact List.rel_append (htells r (rest.wrote.registry.trans hr)) (htells' r hr)
  | @written n scope? d ds s s₁ s₂ s₃ s' e? own es es' hvalid hkind build emit members rest ihmembers
      ihrest =>
    obtain ⟨inner, hinner, htells⟩ := ihmembers emit.pending fun m hm => (hds d (by simp)).member hm
    obtain ⟨items, hitems, htells'⟩ :=
      ihrest (members.pending emit.pending) fun d hd => hds d (by simp [hd])
    have hiff := build?_isSome_iff hvalid hkind build
    have hgrows : s₃.registry.Grows s'.registry := rest.wrote.registry
    have hgrows' : s₂.registry.Grows s'.registry := members.wrote.registry.trans hgrows
    -- What is written for `d` itself is its queue, which holds unnamed records only, and its entry.
    have hown : ∀ r, s'.registry.Grows r → (own.filter fun e => !e.isUnnamedRecord) =
        e?.toList.map (stamp (r.scopeNumber ctx.unit scope?) (ctx.unit.node d).locationText) :=
      fun r hr => emit.listed honce build hs (hgrows'.trans hr)
    have hrest : ∀ r, s'.registry.Grows r →
        List.Forall₂ (Tells ctx r) (inner ++ items) ((es ++ es').filter fun e => !e.isUnnamedRecord) := by
      intro r hr
      rw [List.filter_append]
      exact List.rel_append (htells r (hgrows.trans hr)) (htells' r hr)
    -- Whether there is an entry decides whether the listing shows `d`; its members are listed either way.
    cases e? with
    | none =>
      have hhidden : ¬ ctx.unit.Contributes ctx.oracle d := fun hshown => by simpa using hiff.2 hshown
      refine ⟨_, .hidden hvalid hhidden hinner hitems, fun r hr => ?_⟩
      rw [List.filter_append, hown r hr]
      exact hrest r hr
    | some e =>
      refine ⟨_, .shown hvalid (hiff.1 rfl) hinner hitems, fun r hr => ?_⟩
      rw [List.filter_append, hown r hr]
      exact .cons (tells_of_build? build) (hrest r hr)

/-- The calls of a document that succeeds, and the session of the visit in it. Results about documents
go from here to an induction on `Visits`. -/
theorem document_visits {w : DocumentWriter σ} {u : TranslationUnit} {oracle : LayoutOracle}
    {namespaceName? : Option String} {page : σ} {s' : Session (σ × List Call)}
    (h : document { unit := u, oracle, writer := w.recorded } namespaceName? { page := (page, []) } =
      .ok () s') :
    ∃ p₁ s₂, Visits { unit := u, oracle, writer := w.recorded } (u.nodes.size + 1) none
      u.topLevel.toList { page := p₁ } (Call.entries s'.page.2) s₂ ∧ s'.registry = s₂.registry := by
  obtain ⟨p₁, s₂, hopening, hvisit, hfooter, hs'⟩ := document_eq_ok h
  obtain ⟨es, hvisits⟩ := visits_of_forM _ hvisit
  have hcalls := (performs_of_writes hopening hvisits.wrote.writes hfooter).recorded_calls
  have hes : Call.entries s'.page.2 = es := by simp [hcalls]
  rw [hes]
  exact ⟨p₁, s₂, hvisits, by rw [hs']⟩

/-- **A document lists the declarations of its unit in order.** Without the unnamed records, its entries
are those of the listing, each in its scope; the numbers of the scopes are the final ones. The listing
is the walk through the unit without a session, so it says what is written where nothing depends on what
was seen before. Unnamed records do depend on it. -/
theorem document_lists {w : DocumentWriter σ} {page : σ} (u : TranslationUnit)
    (oracle : LayoutOracle) (namespaceName? : Option String) (hacyclic : u.Acyclic)
    (honce : u.UnnamedDeclaredOnce) {s' : Session (σ × List Call)}
    (h : document { unit := u, oracle, writer := w.recorded } namespaceName? { page := (page, []) } =
      .ok () s') :
    ∃ items, Listing u oracle none u.topLevel.toList items ∧
      List.Forall₂ (Tells { unit := u, oracle, writer := w.recorded } s'.registry) items
        ((Call.entries s'.page.2).filter fun e => !e.isUnnamedRecord) := by
  obtain ⟨p₁, s₂, hvisits, hregistry⟩ := document_visits h
  obtain ⟨items, hlisting, htells⟩ :=
    hvisits.listing honce rfl fun d _ => hacyclic.depthWithin d
  exact ⟨items, hlisting, htells s'.registry (by rw [hregistry]; exact .rfl)⟩

/-- A namespace with a typedef of an unnamed record and a linkage block with another one, next to the
record itself and to an invalid typedef. -/
def nested : TranslationUnit where
  file := "a.h"
  types := #[.record ⟨4⟩]
  nodes := #[{ name := "n", kind := .namespaceBlock [⟨1⟩, ⟨2⟩] },
    { name := "t", kind := .typedef ⟨0⟩ }, { kind := .linkageBlock [⟨3⟩] },
    { name := "v", kind := .typedef ⟨0⟩ }, { kind := .record { isComplete := false } },
    { name := "w", isInvalid := true, kind := .typedef ⟨0⟩ }]
  topLevel := #[⟨4⟩, ⟨0⟩, ⟨5⟩]

theorem document_lists_nested :
    nested.Acyclic ∧ nested.UnnamedDeclaredOnce ∧
      ∃ s' : Session (Unit × List Call),
        let ctx : Context (Unit × List Call) :=
          { unit := nested, oracle := knowsNothing, writer := DocumentWriter.silent.recorded }
        document ctx none { page := ((), []) } = .ok () s' ∧
          ∃ items, Listing nested knowsNothing none nested.topLevel.toList items ∧
            List.Forall₂ (Tells ctx s'.registry) items
              ((Call.entries s'.page.2).filter fun e => !e.isUnnamedRecord) := by
  have hacyclic : nested.Acyclic := TranslationUnit.acyclic_of_members_lt (by decide)
  have honce : nested.UnnamedDeclaredOnce :=
    TranslationUnit.unnamedDeclaredOnce_of_canonical? (by simp [nested])
  have hok : succeeds (document
      { unit := nested, oracle := knowsNothing, writer := DocumentWriter.silent.recorded } none)
      { page := ((), []) } := by decide +kernel
  obtain ⟨_, s', hs'⟩ := exists_of_succeeds hok
  exact ⟨hacyclic, honce, s', hs', document_lists nested knowsNothing none hacyclic honce hs'⟩

end Extract

end ForeignDecl
