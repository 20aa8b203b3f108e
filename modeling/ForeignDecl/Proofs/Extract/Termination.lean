import ForeignDecl.Layout.Natural
import ForeignDecl.Proofs.Extract.Describing
import ForeignDecl.Proofs.Extract.Documents
import ForeignDecl.Proofs.Extract.Runs

/-!
# Extractions come to an end

Types are described and resolved, and declarations visited, by recursion along chains that end in a unit
without circles. Unnamed records may refer to each other in circles: what ends the writing of the queue is
that each of them is marked before what it refers to is queued, but for records that have no entry and leave
nothing in the queue (`emitReturns_iff`).

So every bound in the extraction is one that is not reached (`extraction_ends`), and each entry is written
with nothing left in the queue: the queue is empty wherever a visit passes from one declaration to the next.
-/

set_option autoImplicit false

namespace ForeignDecl

namespace Extract

variable {σ : Type} {ctx : Context σ}

/-! ## Visits without bounds -/

/-- Visit a declaration, given how to visit its members. It is the equation `visitWithin_succ` with the
recursion as a parameter, so that a visit without a bound can be spoken of. -/
def visitStep (ctx : Context σ) (visit : DeclId → Option DeclId → Extract σ Unit) (d : DeclId)
    (scope? : Option DeclId) : Extract σ Unit :=
  if (ctx.unit.node d).isInvalid then
    count fun c => { c with skippedInvalid := c.skippedInvalid + 1 }
  else inScope scope? (writeOwn ctx d >>= fun _ =>
    (ctx.unit.node d).members.forM (visit · (ctx.unit.innerScope scope? d)))

/-- Two loops whose turns do the same do the same. -/
theorem forM_congr {γ : Type} {f g : γ → Extract σ Unit} :
    ∀ {cs : List γ}, (∀ c ∈ cs, f c = g c) → cs.forM f = cs.forM g
  | [], _ => rfl
  | c :: cs, h => by
    obtain ⟨hc, hcs⟩ := List.forall_mem_cons.1 h
    change (f c >>= fun _ => cs.forM f) = (g c >>= fun _ => cs.forM g)
    rw [hc, forM_congr hcs]

/-- A visit looks at its declaration and its members, and the bound only cuts it off. -/
theorem isBounded_visit :
    IsBounded ctx.unit.Contains (visitStep ctx) (fun n d scope? => visitWithin ctx n scope? d) where
  succ n d := funext fun scope? => visitWithin_succ n scope? d
  isLocal {f g d} h := by
    funext scope?
    have hmembers : (ctx.unit.node d).members.forM (f · (ctx.unit.innerScope scope? d)) =
        (ctx.unit.node d).members.forM (g · (ctx.unit.innerScope scope? d)) :=
      forM_congr fun m hm => congrFun (h m hm) _
    simp only [visitStep, hmembers]

/-- **To visit a declaration is to visit what is inside of it**, and that comes to an end in a unit
without circles. The visits on the right are those of the extraction, which are bounded by the number of
declarations. -/
theorem recurs_visit_iff (h : ctx.unit.Acyclic) {d : DeclId} {x : Option DeclId → Extract σ Unit} :
    Recurs ctx.unit.Contains (visitStep ctx) d x ↔ x = fun scope? => visit ctx scope? d :=
  isBounded_visit.recurs_iff (endsWithin_of_acyclic TranslationUnit.DeclId.index_inj
    (fun _ _ => TranslationUnit.lt_size_of_contains) h d)

/-! ## Between declarations -/

/-- A visit of `ds` comes by the session `s'`, before or after one of the declarations or of their
members, at any depth. The three cases are standing still, going past a declaration that was visited,
and going into one whose own entry was written; so any point between two declarations can be reached,
and no point inside the writing of one. -/
inductive Passes (ctx : Context σ) : Option DeclId → List DeclId → Session σ → Session σ → Prop where
  | here {scope? : Option DeclId} {ds : List DeclId} {s : Session σ} : Passes ctx scope? ds s s
  | behind {scope? : Option DeclId} {d : DeclId} {ds : List DeclId} {s s₁ s' : Session σ}
    (first : visit ctx scope? d s = .ok () s₁) (rest : Passes ctx scope? ds s₁ s') :
    Passes ctx scope? (d :: ds) s s'
  | into {scope? : Option DeclId} {d : DeclId} {ds : List DeclId} {s s₁ s' : Session σ}
    (hvalid : (ctx.unit.node d).isInvalid = false)
    (own : writeOwn ctx d { s with scope? } = .ok () s₁)
    (members : Passes ctx (ctx.unit.innerScope scope? d) (ctx.unit.node d).members s₁ s') :
    Passes ctx scope? (d :: ds) s s'

/-- After an entry was written with its queue, nothing is queued. -/
theorem pending_of_emit {d : DeclId} {e? : Option Entry} {s s' : Session σ}
    (h : emit ctx d e? s = .ok () s') : s'.pending = ∅ := by
  obtain ⟨es, hemits⟩ := emits_of_emit h
  exact hemits.pending

theorem pending_of_writeOwn {d : DeclId} {s s' : Session σ} (h : writeOwn ctx d s = .ok () s')
    (hs : s.pending = ∅) : s'.pending = ∅ := by
  unfold writeOwn at h
  split at h
  · obtain ⟨e?, s₁, _, hemit⟩ := bind_eq_ok.1 h
    exact pending_of_emit hemit
  · obtain ⟨_, rfl⟩ := pure_eq_ok.1 h
    exact hs

/-- A list of declarations that were visited leaves nothing queued. -/
theorem pending_of_forM {scope? : Option DeclId} {ds : List DeclId} {s s' : Session σ}
    (h : ds.forM (visit ctx scope?) s = .ok () s') (hs : s.pending = ∅) : s'.pending = ∅ := by
  obtain ⟨es, hvisits⟩ := visits_of_forM _ h
  exact hvisits.pending hs

/-- **Between declarations nothing is queued.** By induction on the way to the point; each step of it
leaves the queue empty. -/
theorem Passes.pending {scope? : Option DeclId} {ds : List DeclId} {s s' : Session σ}
    (h : Passes ctx scope? ds s s') (hs : s.pending = ∅) : s'.pending = ∅ := by
  induction h with
  | here => exact hs
  | behind first _ ih =>
    exact ih (pending_of_forM (forM_cons_eq_ok.2 ⟨_, first, forM_nil_eq_ok.2 rfl⟩) hs)
  | into _ own _ ih => exact ih (pending_of_writeOwn own hs)

/-- Nor is anything queued when a document is finished ... -/
theorem pending_of_document {namespaceName? : Option String} {page : σ} {s' : Session σ}
    (h : document ctx namespaceName? { page } = .ok () s') : s'.pending = ∅ := by
  obtain ⟨p₁, s₂, _, hvisit, _, hs'⟩ := document_eq_ok h
  have hpending : s₂.pending = ∅ := pending_of_forM hvisit rfl
  rw [hs']
  exact hpending

/-- ... or anywhere between two of its declarations. -/
theorem pending_of_passes {namespaceName? : Option String} {page : σ} {ds : List DeclId}
    {s s' : Session σ} (hstart : start ctx namespaceName? { page } = .ok () s)
    (h : Passes ctx none ds s s') : s'.pending = ∅ := by
  obtain ⟨p₁, _, rfl⟩ := start_eq_ok hstart
  exact h.pending rfl

/-! ## The whole extraction -/

/-- **Extractions come to an end**, although every recursion of one is bounded by fuel. Where
containers, names and types do not go round in circles, to describe a type, to resolve one and to visit
a declaration are recursions without a bound, and their only answers are the ones with fuel. To write an
entry is to write what is queued for it first, which may queue more; that needs no assumption about the
unit, since a queued record is marked as seen, and there are only so many. Nothing is left in the queue
when an entry was written, between two declarations, or when a document is finished. -/
theorem extraction_ends (hcontainers : ctx.unit.Acyclic) (hnames : ctx.unit.NamesEnd)
    (hnesting : ctx.unit.NestingEnds) :
    (∀ t x, Recurs ctx.unit.Nests (describeStep ctx) t x ↔ x = describe ctx t) ∧
      (∀ t c, Recurs ctx.unit.Names ctx.unit.resolveStep t c ↔ c = ctx.unit.resolve t) ∧
      (∀ d x, Recurs ctx.unit.Contains (visitStep ctx) d x ↔ x = fun scope? => visit ctx scope? d) ∧
      (∀ d e? s r, EmitReturns ctx d e? s r ↔ r = emit ctx d e? s) ∧
      (∀ d e? s s', emit ctx d e? s = .ok () s' → s'.pending = ∅) ∧
      ∀ namespaceName? page,
        (∀ ds s s', start ctx namespaceName? { page } = .ok () s → Passes ctx none ds s s' →
          s'.pending = ∅) ∧
        ∀ s', document ctx namespaceName? { page } = .ok () s' → s'.pending = ∅ := by
  refine ⟨?_, ?_, ?_, ?_, ?_, ?_⟩
  · exact fun t x => recurs_describe_iff (hnesting.ends t)
  · exact fun t c => TranslationUnit.recurs_resolve_iff (hnames.ends t)
  · exact fun d x => recurs_visit_iff hcontainers
  · exact fun d e? s r => emitReturns_iff
  · exact fun d e? s s' => pending_of_emit
  · intro namespaceName? page
    exact ⟨fun ds s s' => pending_of_passes, fun s' => pending_of_document⟩

/-- An unnamed record of C that points to an unnamed class, which is a specialization for pointers to that
record, with a method from pointers to the class to pointers to the record. A typedef refers to both. -/
def knotted : TranslationUnit where
  file := "a.h"
  types := #[.record ⟨0⟩, .record ⟨1⟩, .pointer ⟨0⟩, .pointer ⟨1⟩, .typedef ⟨4⟩, .pointer ⟨4⟩]
  nodes := #[{ kind := .record { members := [⟨2⟩] } },
    { kind := .record
        { members := [⟨3⟩]
          class? := some { specialization? := some { template := "Box", args := [.type ⟨2⟩] } } } },
    { name := "f", kind := .field { type := ⟨3⟩ } },
    { name := "m", kind := .method { function := { result := ⟨2⟩, params := [⟨"p", ⟨3⟩⟩] } } },
    { name := "s", kind := .typedef ⟨3⟩ }, { name := "t", kind := .typedef ⟨5⟩ }]
  topLevel := #[⟨0⟩, ⟨1⟩, ⟨4⟩, ⟨5⟩]

/-- The three conditions hold of a unit whose handles go down: members behind their declaration, and
parts of a type before it. -/
theorem acyclic_knotted : knotted.Acyclic :=
  TranslationUnit.acyclic_of_members_lt (by decide)

theorem nestingEnds_knotted : knotted.NestingEnds := by
  have hall : ∀ i < knotted.types.size, ∀ t' ∈ (knotted.type ⟨i⟩).parts, t'.index < i := by decide
  exact not_transGen_of_lt fun t t' h => hall _ (TranslationUnit.lt_size_of_nests h) t' h

theorem namesEnd_knotted : knotted.NamesEnd := by
  have hall : ∀ i < knotted.types.size, ∀ t' ∈ knotted.inner? ⟨i⟩, t'.index < i := by decide
  exact not_transGen_of_lt fun t t' h => hall _ h.lt_size t' h.unfolds

theorem extraction_ends_knotted :
    knotted.Acyclic ∧ knotted.NamesEnd ∧ knotted.NestingEnds ∧
      let ctx : Context (Unit × List Call) :=
        { unit := knotted, oracle := Layout.natural knotted (Target.lp64 "x86_64-unknown-linux-gnu")
          writer := DocumentWriter.silent.recorded }
      let s' := after (document ctx none) { page := ((), []) }
      (Call.entries s'.page.2).map Entry.kindLabel = ["record", "cxx-record", "typedef", "typedef"] ∧
      document ctx none { page := ((), []) } = .ok () s' ∧ s'.pending = ∅ := by
  refine ⟨acyclic_knotted, namesEnd_knotted, nestingEnds_knotted, ?_⟩
  intro ctx s'
  obtain ⟨_, _, _, _, _, hdocument⟩ :=
    @extraction_ends _ ctx acyclic_knotted namesEnd_knotted nestingEnds_knotted
  have hok : succeeds (document ctx none) { page := ((), []) } := by decide +kernel
  obtain ⟨_, s₁, hs₁⟩ := exists_of_succeeds hok
  have hs' : document ctx none { page := ((), []) } = .ok () s' := by
    rw [show s' = s₁ from after_of_ok hs₁]
    exact hs₁
  exact ⟨by decide +kernel, hs', (hdocument none ((), [])).2 s' hs'⟩

end Extract

end ForeignDecl
