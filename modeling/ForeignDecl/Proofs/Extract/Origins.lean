import ForeignDecl.Layout.Natural
import ForeignDecl.Proofs.Extract.Classes
import ForeignDecl.Proofs.Extract.Listing
import ForeignDecl.Proofs.Extract.Meeting

/-!
# Where entries come from

An entry is made of a declaration that is met, or of an unnamed record that a type refers to while a
declaration is handled that is met. An `Origin` is a declaration with the occasion and the scope it is told
in, and a run that succeeds gives every entry an origin (`document_origins`). Every declaration that is met
and contributes is among them (`Visits.traces`).

What is said of entries elsewhere, of their numbers, scopes, fields, constants and templates, is said of the
origin that gives them: `Origin.Gives` has the run of the builder in it, so it is enough to look at builders.
The order of the origins is kept twice, as they were built and as they were written, because the registry
follows the first and the document the second (`BuildOrder`).

Only valid declarations are met. The queue of unnamed records knows of no such rule: it leaves out an
invalid record of C++, because such a record needs a valid definition, and writes an invalid one of C
(`document_of_valid`, `document_tells_invalid`).
-/

set_option autoImplicit false

namespace ForeignDecl

namespace Extract

variable {σ : Type} {ctx : Context σ} {r : Registry}

/-- A declaration that an entry is made of, where it is declared or because a type refers to it, and the
scope of the entry. For what is referred to this is not the scope it is declared in but that of the
entry it is told for. -/
structure Origin where
  occasion : Occasion
  scope? : Option DeclId
  source : DeclId

namespace Origin

/-- The declaration is met in the scope; one that is referred to is queued while something else is
handled that is met there. What is queued is canonical, so the record referred to may be another
declaration of it. -/
def IsMet (u : TranslationUnit) (o : Origin) : Prop :=
  match o.occasion with
  | .declared => u.Meets o.scope? o.source
  | .referred => ∃ host x, u.Meets o.scope? host ∧ u.IsUnnamedRecord x ∧ u.canonical x = o.source

/-- The builder for the occasion. Both builders start from the declaration alone. -/
def build? (ctx : Context σ) (o : Origin) : Extract σ (Option Entry) :=
  match o.occasion with
  | .declared => Extract.build? ctx o.source
  | .referred => buildPending? ctx o.source

/-- The entry `e` was made of this origin. Numbers that were given until then are those of `r`, and so
is the number of the scope that was put in. In use `r` is the registry at the end of a run, which has
every number of it. -/
structure Gives (ctx : Context σ) (r : Registry) (o : Origin) (e : Entry) : Prop where
  met : o.IsMet ctx.unit
  registered : ∀ x ∈ o.scope?, 0 < r.number ctx.unit x
  built : ∃ s e₀ s', o.build? ctx s = .ok (some e₀) s' ∧ s'.registry.Grows r ∧
    e = stamp (r.scopeNumber ctx.unit o.scope?) (ctx.unit.node o.source).locationText e₀

end Origin

/-! ## The order of building -/

/-- `built` lists origins in the order in which they were built, and `written` in the order in which
their entries were written. An origin is built first, then those that are queued while it is; they are
written before it, and they are referred to in its scope. -/
inductive BuildOrder : List Origin → List Origin → Prop where
  | nil : BuildOrder [] []
  | entry {o : Origin} {queue queued built written : List Origin}
    (hqueued : ∀ q ∈ queued, q.occasion = .referred ∧ q.scope? = o.scope?)
    (inner : BuildOrder queue queued) (rest : BuildOrder built written) :
    BuildOrder (o :: (queue ++ built)) (queued ++ o :: written)

namespace BuildOrder

variable {built built' written written' : List Origin}

theorem append (h : BuildOrder built written) (h' : BuildOrder built' written') :
    BuildOrder (built ++ built') (written ++ written') := by
  induction h with
  | nil => exact h'
  | entry hqueued inner _ _ ih =>
    have hboth := BuildOrder.entry hqueued inner ih
    simpa using hboth

/-- Each origin is built and written once. The two orders differ where a record is queued: it is built
after the entry that refers to it and written before it. -/
theorem perm (h : BuildOrder built written) : built.Perm written := by
  induction h with
  | nil => exact .nil
  | @entry o _ queued _ _ _ _ _ ihinner ihrest =>
    exact ((ihinner.append ihrest).cons o).trans List.perm_middle.symm

end BuildOrder

/-! ## Runs -/

/-- The declarations of C++ that are registered for the entry of an origin. -/
def Origin.classesTold (u : TranslationUnit) (o : Origin) : List DeclId := u.classesTold o.scope? o.source

/-- The entries `es` that were written between two sessions have the origins `written`, which were built
in the order `built`, and what they tell of was registered in that order. It composes along runs, so the
proofs below go by the cases of a run. -/
structure Traces (ctx : Context σ) (r : Registry) (s s' : Session σ) (es : List Entry)
    (built written : List Origin) : Prop where
  order : BuildOrder built written
  gives : List.Forall₂ (Origin.Gives ctx r) written es
  registers : Registers ctx.unit (built.flatMap (·.classesTold ctx.unit)) s s'

namespace Traces

variable {s s₁ s' : Session σ} {es es' : List Entry} {built built' written written' : List Origin}

theorem nil (s : Session σ) : Traces ctx r s s [] [] [] := ⟨.nil, .nil, .of_eq rfl⟩

theorem append (h : Traces ctx r s s₁ es built written) (h' : Traces ctx r s₁ s' es' built' written') :
    Traces ctx r s s' (es ++ es') (built ++ built') (written ++ written') :=
  ⟨h.order.append h'.order, List.rel_append h.gives h'.gives,
    List.flatMap_append ▸ h.registers.append h'.registers⟩

end Traces

/-- What a builder queues are canonical declarations of unnamed records. -/
theorem exists_of_pending {u : TranslationUnit} {d : DeclId} {s s' : Session σ}
    (h : Builds u d s s') (hs : s.pending = ∅) :
    ∀ c ∈ s'.pending.toList, ∃ x, u.IsUnnamedRecord x ∧ u.canonical x = c := by
  intro c hc
  rcases h.of_pending c hc with hc | ⟨x, rfl, hx⟩
  · rw [hs] at hc
    exact absurd hc (OrderedSet.not_mem_empty c)
  · exact ⟨x, hx, rfl⟩

namespace Origin

variable {o : Origin} {s s' : Session σ} {e? : Option Entry}

theorem build?_builds (h : o.build? ctx s = .ok e? s') : Builds ctx.unit o.source s s' := by
  obtain ⟨occasion, scope?, d⟩ := o
  cases occasion with
  | declared => exact (Extract.build?_builds d).of_ok h
  | referred => exact (buildPending?_builds d).of_ok h

/-- Both register what the origin tells of, if they make an entry. The scope of the session is that of
the origin, which only matters for namespaces. -/
theorem build?_registers (hscope : s.scope? = o.scope?) (h : o.build? ctx s = .ok e? s') :
    Registers ctx.unit (e?.toList.flatMap fun _ => o.classesTold ctx.unit) s s' := by
  obtain ⟨occasion, scope?, d⟩ := o
  obtain rfl : s.scope? = scope? := hscope
  cases occasion with
  | declared => exact Extract.build?_registers h
  | referred => exact buildPending?_registering d _ s e? s' h

end Origin

/-- The entry that is written for an origin, if there is one, is the one that was built. -/
theorem WritesOwn.gives {o : Origin} {s₀ s s₁ s' : Session σ} {e? : Option Entry} {own : List Entry}
    (hmet : o.IsMet ctx.unit) (build : o.build? ctx s₀ = .ok e? s₁)
    (hgrows : s₁.registry.Grows s.registry) (hscope : s.scope? = o.scope?)
    (h : WritesOwn ctx o.source s s' e? own) (hr : s'.registry.Grows r) :
    List.Forall₂ (Origin.Gives ctx r) (e?.toList.map fun _ => o) own := by
  cases e? with
  | none =>
    obtain ⟨_, rfl⟩ := h
    exact .nil
  | some e =>
    obtain ⟨hwrite, rfl⟩ := h
    obtain ⟨page, _, rfl⟩ := writeEntry_eq_ok.1 hwrite
    rw [hscope] at hr ⊢
    refine .cons ⟨hmet, ?_, s₀, e, s₁, build, ?_, ?_⟩ .nil
    · intro x hx
      rw [Option.mem_def.1 hx] at hr
      rw [hr.number_eq (Registry.register_pos _ _ x)]
      exact Registry.register_pos _ _ x
    · exact hgrows.trans ((Registry.register_grows _ _ _).trans hr)
    · rw [hr.scopeNumber_eq]

/-- Writing an entry registers its scope, and not as a declaration of C++. -/
theorem WritesOwn.registers {d : DeclId} {s s' : Session σ} {e? : Option Entry} {own : List Entry}
    (h : WritesOwn ctx d s s' e? own) : Registers ctx.unit [] s s' := by
  cases e? with
  | none =>
    obtain ⟨rfl, _⟩ := h
    exact .of_eq rfl
  | some e =>
    obtain ⟨page, _, rfl⟩ := writeEntry_eq_ok.1 h.1
    cases hscope : s.scope? <;> exact .of_eq rfl

/-- An origin is built, then what it queued is written, then its own entry, if it has one. This is one
step of `BuildOrder`, with `inner` for what is written in between; without an entry the inner origins
are passed on as they are. -/
theorem WritesOwn.traces {o : Origin} {s s₁ s₂ s' : Session σ} {e? : Option Entry}
    {es own : List Entry} {queue queued : List Origin} (hmet : o.IsMet ctx.unit)
    (hs : s.scope? = o.scope?) (build : o.build? ctx s = .ok e? s₁) (hwrote : Wrote ctx es s₁ s₂)
    (inner : Traces ctx r s₁ s₂ es queue queued)
    (hqueued : ∀ q ∈ queued, q.occasion = .referred ∧ q.scope? = o.scope?)
    (h : WritesOwn ctx o.source s₂ s' e? own) (hr : s'.registry.Grows r) :
    ∃ built written, Traces ctx r s s' (es ++ own) built written ∧
      (∀ q ∈ written, q = o ∨ q ∈ queued) ∧ (e?.isSome → o ∈ written) := by
  have hbuilds : Builds ctx.unit o.source s s₁ := Origin.build?_builds build
  have hown : List.Forall₂ (Origin.Gives ctx r) (e?.toList.map fun _ => o) own :=
    h.gives hmet build hwrote.registry (hwrote.scope.trans (hbuilds.scope.trans hs)) hr
  have hregisters := ((Origin.build?_registers hs build).append inner.registers).append h.registers
  rw [List.append_nil] at hregisters
  cases e? with
  | none =>
    obtain rfl : own = [] := h.2
    rw [List.append_nil]
    exact ⟨queue, queued, ⟨inner.order, inner.gives, hregisters⟩, fun _ hq => .inr hq, by simp⟩
  | some e =>
    refine ⟨o :: (queue ++ []), queued ++ [o], ⟨?_, ?_, ?_⟩, by simp [or_comm], by simp⟩
    · exact .entry hqueued inner.order .nil
    · exact List.rel_append inner.gives hown
    · simpa using hregisters

/-- What is written from the queue was referred to in the scope where the queue is written. By induction
on the run, with the declaration `host` that is being handled meanwhile: it is what makes the queued
records met. -/
theorem Flushes.traces {host : DeclId} {ds : List DeclId} {s s' : Session σ} {es : List Entry}
    (h : Flushes ctx ds s es s') (hs : s.pending = ∅) (hhost : ctx.unit.Meets s.scope? host)
    (hds : ∀ d ∈ ds, ∃ x, ctx.unit.IsUnnamedRecord x ∧ ctx.unit.canonical x = d)
    (hr : s'.registry.Grows r) :
    ∃ built written, Traces ctx r s s' es built written ∧
      ∀ o ∈ written, o.occasion = .referred ∧ o.scope? = s.scope? := by
  induction h with
  | nil => exact ⟨[], [], .nil _, by simp⟩
  | seen _ _ ih => exact ih hs hhost (fun d hd => hds d (by simp [hd])) hr
  | @unseen d ds s s₁ s₂ s₃ s' e? es own es' _ build queue write rest ihqueue ihrest =>
    have hbuilds : Builds ctx.unit d s s₁ := (buildPending?_builds d).of_ok build
    have hscope₃ : s₃.scope? = s.scope? :=
      write.wrote.scope.trans (queue.wrote.scope.trans hbuilds.scope)
    have hr₃ : s₃.registry.Grows r := rest.wrote.registry.trans hr
    obtain ⟨x, hx, hd⟩ := hds d (by simp)
    obtain ⟨inner, queued, hinner, hqueued⟩ := ihqueue rfl (hbuilds.scope ▸ hhost)
      (exists_of_pending hbuilds hs) (write.wrote.registry.trans hr₃)
    obtain ⟨built, written, htraces, hwritten, _⟩ := write.traces (o := ⟨.referred, s.scope?, d⟩)
      ⟨host, x, hhost, hx, hd⟩ rfl build queue.wrote.of_pending
      ⟨hinner.order, hinner.gives, hinner.registers⟩ (hbuilds.scope ▸ hqueued) hr₃
    obtain ⟨others, others', hothers, hothers'⟩ := ihrest
      (write.pending.trans (queue.pending rfl)) (hscope₃ ▸ hhost)
      (fun d hd => hds d (by simp [hd])) hr
    refine ⟨_, _, List.append_assoc .. ▸ htraces.append hothers, fun o ho => ?_⟩
    rcases List.mem_append.1 ho with ho | ho
    · rcases hwritten o ho with rfl | ho
      · exact ⟨rfl, rfl⟩
      · exact hbuilds.scope ▸ hqueued o ho
    · exact hscope₃ ▸ hothers' o ho

/-- What is written for a declaration that is met: its queue, and its own entry. -/
theorem Emits.traces {d : DeclId} {s s₁ s' : Session σ} {e? : Option Entry} {es : List Entry}
    (hmet : ctx.unit.Meets s.scope? d) (build : build? ctx d s = .ok e? s₁)
    (h : Emits ctx d e? s₁ es s') (hs : s.pending = ∅) (hr : s'.registry.Grows r) :
    ∃ built written, Traces ctx r s s' es built written ∧
      (e?.isSome → ⟨.declared, s.scope?, d⟩ ∈ written) := by
  obtain ⟨queued, own, s₂, hqueue, hown, rfl⟩ := h
  have hbuilds : Builds ctx.unit d s s₁ := (build?_builds d).of_ok build
  obtain ⟨inner, queued, hinner, hqueued⟩ := hqueue.traces rfl (hbuilds.scope ▸ hmet)
    (exists_of_pending hbuilds hs) (hown.wrote.registry.trans hr)
  obtain ⟨built, written, htraces, _, hmem⟩ := hown.traces (o := ⟨.declared, s.scope?, d⟩) hmet rfl
    build hqueue.wrote.of_pending ⟨hinner.order, hinner.gives, hinner.registers⟩
    (hbuilds.scope ▸ hqueued) hr
  exact ⟨built, written, htraces, hmem⟩

/-- **Every entry that a visit writes has an origin**, and what the entries tell of was registered in
the order in which they were built. Whatever is met and contributes is one of the origins. By induction
on the visit; the two halves are proved together, since both take the same entries apart. -/
theorem Visits.traces {n : Nat} {scope? : Option DeclId} {ds : List DeclId} {s s' : Session σ}
    {es : List Entry} (h : Visits ctx n scope? ds s es s') (hs : s.pending = ∅)
    (hds : ∀ d ∈ ds, (ctx.unit.node d).isInvalid = false → ctx.unit.Meets scope? d)
    (hr : s'.registry.Grows r) :
    ∃ built written, Traces ctx r s s' es built written ∧
      ∀ inner? m, ctx.unit.MeetsFrom n scope? ds inner? m → ctx.unit.Contributes ctx.oracle m →
        ⟨.declared, inner?, m⟩ ∈ written := by
  induction h with
  | nil => exact ⟨[], [], .nil _, fun _ _ hm => by cases hm <;> simp_all⟩
  | tooDeep => exact ⟨[], [], .nil _, fun _ _ hm => nomatch hm⟩
  | @invalid n scope? d ds s s' es hinvalid _ ih =>
    obtain ⟨built, written, h, hcomplete⟩ := ih hs (fun d hd => hds d (by simp [hd])) hr
    refine ⟨built, written, ⟨h.order, h.gives, h.registers⟩, fun inner? m hm hcontributes => ?_⟩
    rcases hm.of_cons with ⟨_, hvalid⟩ | ⟨hvalid, _⟩ | hrest
    · simp [hinvalid] at hvalid
    · simp [hinvalid] at hvalid
    · exact hcomplete inner? m hrest hcontributes
  | @passed n scope? d ds s s₁ s' es es' hvalid hkind members rest ihmembers ihrest =>
    have hmet : ctx.unit.Meets scope? d := hds d (by simp) hvalid
    obtain ⟨_, _, hinner, hcomplete⟩ := ihmembers hs (fun m hm hm' => hmet.member hm hm')
      (rest.wrote.registry.trans hr)
    obtain ⟨_, _, hothers, hcomplete'⟩ :=
      ihrest (members.pending hs) (fun d hd => hds d (by simp [hd])) hr
    have hboth : Traces ctx r s s₁ es _ _ := ⟨hinner.order, hinner.gives, hinner.registers⟩
    refine ⟨_, _, hboth.append ⟨hothers.order, hothers.gives, hothers.registers⟩,
      fun inner? m hm hcontributes => List.mem_append.2 ?_⟩
    -- What is met from here is the declaration itself, or inside of it, or behind it.
    rcases hm.of_cons with ⟨⟨rfl, rfl⟩, _⟩ | ⟨_, hmembers⟩ | hrest
    · exact absurd hcontributes (contributes_of_not_isWritten hkind)
    · exact .inl (hcomplete inner? m hmembers hcontributes)
    · exact .inr (hcomplete' inner? m hrest hcontributes)
  | @written n scope? d ds s s₁ s₂ s₃ s' e? own es es' hvalid hkind build emit members rest ihmembers
      ihrest =>
    have hmet : ctx.unit.Meets scope? d := hds d (by simp) hvalid
    have hr₃ : s₃.registry.Grows r := rest.wrote.registry.trans hr
    obtain ⟨_, _, hfirst, hmem⟩ := emit.traces hmet build hs (members.wrote.registry.trans hr₃)
    obtain ⟨_, _, hinner, hcomplete⟩ :=
      ihmembers emit.pending (fun m hm hm' => hmet.member hm hm') hr₃
    obtain ⟨_, _, hothers, hcomplete'⟩ :=
      ihrest (members.pending emit.pending) (fun d hd => hds d (by simp [hd])) hr
    have hown : Traces ctx r s s₂ own _ _ := ⟨hfirst.order, hfirst.gives, hfirst.registers⟩
    refine ⟨_, _, hown.append (hinner.append ⟨hothers.order, hothers.gives, hothers.registers⟩),
      fun inner? m hm hcontributes => List.mem_append.2 ?_⟩
    rcases hm.of_cons with ⟨⟨rfl, rfl⟩, _⟩ | ⟨_, hmembers⟩ | hrest
    · exact .inl (hmem ((build?_isSome_iff hvalid hkind build).2 hcontributes))
    · exact .inr (List.mem_append.2 (.inl (hcomplete inner? m hmembers hcontributes)))
    · exact .inr (List.mem_append.2 (.inr (hcomplete' inner? m hrest hcontributes)))

/-- **Every entry of a document has an origin**, and the declarations of C++ that were registered are
those that the origins tell of, in the order in which they were built. -/
theorem document_traces {w : DocumentWriter σ} {page : σ} {u : TranslationUnit}
    {oracle : LayoutOracle} {namespaceName? : Option String} {s' : Session (σ × List Call)}
    (h : document { unit := u, oracle, writer := w.recorded } namespaceName? { page := (page, []) } =
      .ok () s') :
    ∃ built written, BuildOrder built written ∧
      List.Forall₂ (Origin.Gives { unit := u, oracle, writer := w.recorded } s'.registry) written
        (Call.entries s'.page.2) ∧
      s'.registry.classes = .ofList ((built.flatMap (·.classesTold u)).map u.canonical) := by
  obtain ⟨p₁, s₂, hvisits, hregistry⟩ := document_visits h
  obtain ⟨built, written, htraces, _⟩ := hvisits.traces rfl
    (fun d hd hvalid => .top (by simpa using hd) hvalid) (r := s'.registry) (by rw [hregistry]; exact .rfl)
  exact ⟨built, written, htraces.order, htraces.gives, hregistry ▸ htraces.registers⟩

/-- The origins alone, for results that do not ask for the order of building. -/
theorem document_origins {w : DocumentWriter σ} {page : σ} {u : TranslationUnit}
    {oracle : LayoutOracle} {namespaceName? : Option String} {s' : Session (σ × List Call)}
    (h : document { unit := u, oracle, writer := w.recorded } namespaceName? { page := (page, []) } =
      .ok () s') :
    ∃ origins, List.Forall₂
      (Origin.Gives { unit := u, oracle, writer := w.recorded } s'.registry) origins
      (Call.entries s'.page.2) := by
  obtain ⟨_, origins, _, horigins, _⟩ := document_traces h
  exact ⟨origins, horigins⟩

section Zip

variable {α β : Type} {R : α → β → Prop} {as : List α} {bs : List β}

theorem exists_mem_zip_of_mem_left (h : List.Forall₂ R as bs) {a : α} (ha : a ∈ as) :
    ∃ b, (a, b) ∈ as.zip bs := by
  rw [← List.map_fst_zip (Nat.le_of_eq h.length_eq)] at ha
  obtain ⟨⟨a', b⟩, hmem, rfl⟩ := List.mem_map.1 ha
  exact ⟨b, hmem⟩

theorem exists_mem_zip_of_mem_right (h : List.Forall₂ R as bs) {b : β} (hb : b ∈ bs) :
    ∃ a, (a, b) ∈ as.zip bs := by
  rw [← List.map_snd_zip (Nat.le_of_eq h.length_eq.symm)] at hb
  obtain ⟨⟨a, b'⟩, hmem, rfl⟩ := List.mem_map.1 hb
  exact ⟨a, hmem⟩

end Zip

/-- **Everything that is met and contributes is told**, and nothing else where it is declared. -/
theorem document_contributes {w : DocumentWriter σ} {page : σ} {u : TranslationUnit}
    {oracle : LayoutOracle} {namespaceName? : Option String} {s' : Session (σ × List Call)}
    (h : document { unit := u, oracle, writer := w.recorded } namespaceName? { page := (page, []) } =
      .ok () s') :
    ∃ origins, List.Forall₂
        (Origin.Gives { unit := u, oracle, writer := w.recorded } s'.registry) origins
        (Call.entries s'.page.2) ∧
      ∀ scope? d, u.Meets scope? d → u.Contributes oracle d →
        ∃ scope?, ⟨.declared, scope?, d⟩ ∈ origins := by
  obtain ⟨p₁, s₂, hvisits, hregistry⟩ := document_visits h
  obtain ⟨_, origins, htraces, hcomplete⟩ := hvisits.traces rfl
    (fun d hd hvalid => .top (by simpa using hd) hvalid) (r := s'.registry) (by rw [hregistry]; exact .rfl)
  refine ⟨origins, htraces.gives, fun _ d hmet hcontributes => ?_⟩
  obtain ⟨scope?, hscope⟩ := hmet.exists_meetsFrom
  exact ⟨scope?, hcomplete scope? d hscope hcontributes⟩

/-! ## Invalid declarations -/

/-- An entry is of the kind that its declaration is told as. -/
theorem Origin.Gives.label {o : Origin} {e : Entry} (h : o.Gives ctx r e) :
    e.kindLabel = ctx.unit.entryLabel o.source := by
  obtain ⟨occasion, scope?, d⟩ := o
  obtain ⟨s, e₀, s', build, _, rfl⟩ := h.built
  rw [kindLabel_stamp]
  cases occasion with
  | declared => exact (build?_describes s _ s' build e₀ rfl).label
  | referred => exact (buildPending?_describes s _ s' build e₀ rfl).label

/-- What an invalid declaration can be that is told all the same. -/
theorem Origin.Gives.of_invalid {o : Origin} {e : Entry} (h : o.Gives ctx r e)
    (hinvalid : (ctx.unit.node o.source).isInvalid) :
    o.occasion = .referred ∧ ∃ n, (ctx.unit.node o.source).record? = some n ∧ n.isCxx = false := by
  obtain ⟨occasion, scope?, d⟩ := o
  cases occasion with
  | declared =>
    have hmet : ctx.unit.Meets scope? d := h.met
    exact absurd hinvalid (by simp [hmet.valid])
  | referred =>
    obtain ⟨s, e₀, s', build, _, _⟩ := h.built
    rcases buildPending?_eq_ok build with ⟨he, _⟩ | ⟨_, he, _⟩ | ⟨n, _, _, hn, hentry, _⟩
    · cases he
    · cases he
    · refine ⟨rfl, n, hn, Bool.eq_false_iff.2 fun hcxx => ?_⟩
      exact absurd hinvalid (by simp [(hentry.defined hcxx).2])

/-- **A document is made of valid declarations**, and of records of C that types refer to: where it is
referred to, an unnamed record of C is told even if it is invalid, which is not meant. The origins say
of each entry what it was made of and on which occasion, so nothing else can slip through. -/
theorem document_of_valid {w : DocumentWriter σ} {page : σ} (u : TranslationUnit)
    (oracle : LayoutOracle) (namespaceName? : Option String) {s' : Session (σ × List Call)}
    (h : document { unit := u, oracle, writer := w.recorded } namespaceName? { page := (page, []) } =
      .ok () s') :
    ∃ origins, List.Forall₂
        (Origin.Gives { unit := u, oracle, writer := w.recorded } s'.registry) origins
        (Call.entries s'.page.2) ∧
      ∀ o ∈ origins, (u.node o.source).isInvalid →
        o.occasion = .referred ∧ ∃ n, (u.node o.source).record? = some n ∧ n.isCxx = false := by
  obtain ⟨origins, horigins⟩ := document_origins h
  have hboth := horigins.imp fun o e hgives => And.intro hgives.of_invalid hgives
  exact ⟨origins, horigins, ((List.forall₂_and_left _ _).1 hboth).1⟩

/-- A variable of an unnamed record that is invalid. -/
def rejected : TranslationUnit where
  file := "a.h"
  types := #[.builtin .int, .record ⟨0⟩]
  nodes := #[{ isInvalid := true, kind := .record { members := [⟨1⟩] } },
    { name := "f", kind := .field { type := ⟨0⟩ } }, { name := "v", kind := .var { type := ⟨1⟩ } }]
  topLevel := #[⟨0⟩, ⟨2⟩]

theorem document_of_valid_rejected :
    let oracle := Layout.natural rejected (Target.lp64 "")
    let ctx : Context (Unit × List Call) :=
      { unit := rejected, oracle, writer := DocumentWriter.silent.recorded }
    let s' := after (document ctx none) { page := ((), []) }
    document ctx none { page := ((), []) } = .ok () s' ∧
      ∃ origins, List.Forall₂ (Origin.Gives ctx s'.registry) origins (Call.entries s'.page.2) ∧
        ∀ o ∈ origins, (rejected.node o.source).isInvalid →
          o.occasion = .referred ∧
            ∃ n, (rejected.node o.source).record? = some n ∧ n.isCxx = false := by
  intro oracle ctx s'
  have hs' : document ctx none { page := ((), []) } = .ok () s' :=
    ok_after_of_succeeds (by decide +kernel)
  exact ⟨hs', document_of_valid rejected oracle none hs'⟩

theorem eq_of_record_rejected {n : RecordNode} :
    ∀ {d : DeclId}, (rejected.node d).kind = .record n → d = ⟨0⟩
  | ⟨0⟩, _ => rfl
  | ⟨1⟩, h => nomatch h
  | ⟨2⟩, h => nomatch h
  | ⟨_ + 3⟩, h => nomatch h

/-- The record is told, and nothing that is valid could have been told in its place. -/
theorem document_tells_invalid :
    let ctx : Context (Unit × List Call) :=
      { unit := rejected, oracle := Layout.natural rejected (Target.lp64 "")
        writer := DocumentWriter.silent.recorded }
    let s' := after (document ctx none) { page := ((), []) }
    succeeds (document ctx none) { page := ((), []) } ∧
      ¬ ∃ origins, List.Forall₂ (Origin.Gives ctx s'.registry) origins (Call.entries s'.page.2) ∧
        ∀ o ∈ origins, (rejected.node o.source).isInvalid = false := by
  intro ctx s'
  refine ⟨by decide +kernel, ?_⟩
  rintro ⟨origins, horigins, hvalid⟩
  have hlabels : (Call.entries s'.page.2).map Entry.kindLabel = ["record", "var"] := by
    decide +kernel
  match hentries : Call.entries s'.page.2, origins, horigins with
  | [], _, _ => simp [hentries] at hlabels
  | e :: es, o :: _, .cons hgives _ =>
    have hlabel : e.kindLabel = "record" := by
      rw [hentries] at hlabels
      exact (List.cons.inj hlabels).1
    obtain ⟨n, hn⟩ := TranslationUnit.exists_record_of_entryLabel
      (.inl (hgives.label.symm.trans hlabel))
    have hsource := hvalid o (by simp)
    rw [eq_of_record_rejected hn] at hsource
    cases hsource

end Extract

end ForeignDecl
