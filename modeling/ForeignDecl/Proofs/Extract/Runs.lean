import Mathlib.Data.Finset.Card
import ForeignDecl.Proofs.Extract.Records
import ForeignDecl.Proofs.Extract.Writing

/-!
# Successful runs, without bounds

The recursion over the queue of unnamed records is bounded by a number. Here that number is proved to
be large enough, and with it the bound goes away: `Flushes`, `Emits` and `Visits` say what a
successful run does, with the entries it writes, and proofs about runs go by induction on them.

The bound is enough because every level of the recursion has seen a declaration more than the level
around it, out of the finitely many that there are (`Session.unseen`). So writing the queue comes to an end
however it ends: `FlushReturns` and `EmitReturns` say how, in the terms of the recursion only, and the bounded
recursion does the same (`emitReturns_iff`).
-/

set_option autoImplicit false

namespace ForeignDecl

variable {σ : Type} {ctx : Context σ}

namespace Extract

/-! ## What runs do -/

/-- The entry of `d`, if there is one, is written and nothing else. The list says what was written as
the writer got it, stamped with the scope's number and the location of `d`, since that is what the
documents hold. -/
def WritesOwn (ctx : Context σ) (d : DeclId) (s : Session σ) (s' : Session σ) :
    Option Entry → List Entry → Prop
  | none, es => s = s' ∧ es = []
  | some e, es => writeEntry ctx d e s = .ok () s' ∧
      es = [stamp (s.registry.register ctx.unit s.scope?).1 (ctx.unit.node d).locationText e]

/-- Writing a queue of unnamed records succeeds with the entries `es`. The recursion is that of the
flush itself: a record that was seen in the meantime is passed over, and building any other one may
queue more, which are written before it (`queue`) and before the rest of the queue around it (`rest`).
The order of the entries, `es ++ (own ++ es')`, is read off here by every result about order. -/
inductive Flushes (ctx : Context σ) :
    List DeclId → Session σ → List Entry → Session σ → Prop where
  | nil {s : Session σ} : Flushes ctx [] s [] s
  | seen {d : DeclId} {ds : List DeclId} {s s' : Session σ} {es : List Entry}
    (hseen : ctx.unit.canonical d ∈ s.seen) (rest : Flushes ctx ds s es s') :
    Flushes ctx (d :: ds) s es s'
  | unseen {d : DeclId} {ds : List DeclId} {s s₁ s₂ s₃ s' : Session σ} {e? : Option Entry}
    {es own es' : List Entry}
    (hseen : ctx.unit.canonical d ∉ s.seen) (build : buildPending? ctx d s = .ok e? s₁)
    (queue : Flushes ctx s₁.pending.toList { s₁ with pending := ∅ } es s₂)
    (write : WritesOwn ctx d s₂ s₃ e? own) (rest : Flushes ctx ds s₃ es' s') :
    Flushes ctx (d :: ds) s (es ++ (own ++ es')) s'

/-- Writing the queue and then an entry, if there is one, succeeds with the entries `es`. The queue is
emptied first, and what is queued while it is being written is the business of `Flushes`. -/
def Emits (ctx : Context σ) (d : DeclId) (e? : Option Entry) (s : Session σ) (es : List Entry)
    (s' : Session σ) : Prop :=
  ∃ queued own s₁, Flushes ctx s.pending.toList { s with pending := ∅ } queued s₁ ∧
    WritesOwn ctx d s₁ s' e? own ∧ es = queued ++ own

/-- Visiting declarations, at most `n` around each other, succeeds with the entries `es`. The number is
the nesting that is left, as in `visitWithin`; that it is never used up in an acyclic unit is another
matter (`Proofs/Extract/Termination.lean`), and no result that goes by induction on a visit needs it.
The cases are what can become of the first declaration: it is invalid, it makes an entry of its own, or
it is only passed through to its members. -/
inductive Visits (ctx : Context σ) :
    Nat → Option DeclId → List DeclId → Session σ → List Entry → Session σ → Prop where
  | nil {n : Nat} {scope? : Option DeclId} {s : Session σ} : Visits ctx n scope? [] s [] s
  | tooDeep {scope? : Option DeclId} {ds : List DeclId} {s : Session σ} :
    Visits ctx 0 scope? ds s [] s
  | invalid {n : Nat} {scope? : Option DeclId} {d : DeclId} {ds : List DeclId}
    {s s' : Session σ} {es : List Entry} (hinvalid : (ctx.unit.node d).isInvalid)
    (rest : Visits ctx (n + 1) scope? ds
      { s with summary := { s.summary with skippedInvalid := s.summary.skippedInvalid + 1 } } es s') :
    Visits ctx (n + 1) scope? (d :: ds) s es s'
  | written {n : Nat} {scope? : Option DeclId} {d : DeclId} {ds : List DeclId}
    {s s₁ s₂ s₃ s' : Session σ} {e? : Option Entry} {own es es' : List Entry}
    (hvalid : (ctx.unit.node d).isInvalid = false)
    (hkind : (ctx.unit.node d).kind.isWritten)
    (build : build? ctx d { s with scope? } = .ok e? s₁) (emit : Emits ctx d e? s₁ own s₂)
    (members : Visits ctx n (ctx.unit.innerScope scope? d) (ctx.unit.node d).members s₂ es s₃)
    (rest : Visits ctx (n + 1) scope? ds { s₃ with scope? := s.scope? } es' s') :
    Visits ctx (n + 1) scope? (d :: ds) s (own ++ (es ++ es')) s'
  | passed {n : Nat} {scope? : Option DeclId} {d : DeclId} {ds : List DeclId}
    {s s₁ s' : Session σ} {es es' : List Entry}
    (hvalid : (ctx.unit.node d).isInvalid = false)
    (hkind : (ctx.unit.node d).kind.isWritten = false)
    (members : Visits ctx n (ctx.unit.innerScope scope? d) (ctx.unit.node d).members
      { s with scope? } es s₁)
    (rest : Visits ctx (n + 1) scope? ds { s₁ with scope? := s.scope? } es' s') :
    Visits ctx (n + 1) scope? (d :: ds) s (es ++ es') s'

/-! ## What every run leaves -/

/-- The entries `es` were written, and otherwise the session has only grown. Flushing, emitting and
visiting all have this much in common, so results that only speak of what is written need no case
distinction among them. -/
structure Wrote (ctx : Context σ) (es : List Entry) (s s' : Session σ) : Prop where
  writes : Writes ctx.writer es s s'
  scope : s'.scope? = s.scope?
  registry : s.registry.Grows s'.registry
  seen : ∀ c ∈ s.seen, c ∈ s'.seen

namespace Wrote

theorem refl (s : Session σ) : Wrote ctx [] s s :=
  ⟨.nil rfl rfl rfl, rfl, .rfl, fun _ hc => hc⟩

/-- One run after another. The entries append because those of the second run follow on the page
(`Writes.append`). -/
theorem append {es es' : List Entry} {s s' s'' : Session σ} (h : Wrote ctx es s s')
    (h' : Wrote ctx es' s' s'') : Wrote ctx (es ++ es') s s'' :=
  ⟨h.writes.append h'.writes, h'.scope.trans h.scope, h.registry.trans h'.registry,
    fun c hc => h'.seen c (h.seen c hc)⟩

/-- A builder writes nothing and lets the session grow. -/
theorem of_builds {d : DeclId} {s s' : Session σ} (h : Builds ctx.unit d s s') :
    Wrote ctx [] s s' :=
  ⟨.of_builds h, h.scope, h.registry, h.seen⟩

theorem inScope {es : List Entry} {s s' : Session σ} {scope? : Option DeclId}
    (h : Wrote ctx es { s with scope? } s') : Wrote ctx es s { s' with scope? := s.scope? } :=
  ⟨⟨h.writes.page, h.writes.hasEntries, h.writes.emitted⟩, rfl, h.registry, h.seen⟩

theorem of_pending {es : List Entry} {s s' : Session σ} {pending : OrderedSet DeclId}
    (h : Wrote ctx es { s with pending } s') : Wrote ctx es s s' :=
  ⟨⟨h.writes.page, h.writes.hasEntries, h.writes.emitted⟩, h.scope, h.registry, h.seen⟩

end Wrote

/-- Writing one entry. It may register the scope around the declaration and changes nothing else but the
page and its counter. -/
theorem WritesOwn.wrote {d : DeclId} {e? : Option Entry} {own : List Entry} {s s' : Session σ}
    (h : WritesOwn ctx d s s' e? own) : Wrote ctx own s s' := by
  cases e? with
  | none =>
    obtain ⟨rfl, rfl⟩ := h
    exact .refl s
  | some e =>
    obtain ⟨h, rfl⟩ := h
    have hwrites := writes_of_writeEntry h
    obtain ⟨page, _, rfl⟩ := writeEntry_eq_ok.1 h
    exact ⟨hwrites, rfl, s.registry.register_grows _ _, fun _ hc => hc⟩

/-- Writing an entry queues nothing: what its types refer to was queued when they were described. -/
theorem WritesOwn.pending {d : DeclId} {e? : Option Entry} {own : List Entry} {s s' : Session σ}
    (h : WritesOwn ctx d s s' e? own) : s'.pending = s.pending := by
  cases e? with
  | none =>
    obtain ⟨rfl, _⟩ := h
    rfl
  | some e =>
    obtain ⟨page, _, rfl⟩ := writeEntry_eq_ok.1 h.1
    rfl

theorem WritesOwn.seen {d : DeclId} {e? : Option Entry} {own : List Entry} {s s' : Session σ}
    (h : WritesOwn ctx d s s' e? own) : s'.seen = s.seen := by
  cases e? with
  | none =>
    obtain ⟨rfl, _⟩ := h
    rfl
  | some e =>
    obtain ⟨page, _, rfl⟩ := writeEntry_eq_ok.1 h.1
    rfl

/-- By induction on the run. A record that is built grows the session by `Builds` first, then by the
queue it leaves, then by its entry, in the order in which their entries stand. -/
theorem Flushes.wrote {ds : List DeclId} {s s' : Session σ} {es : List Entry}
    (h : Flushes ctx ds s es s') : Wrote ctx es s s' := by
  induction h with
  | nil => exact .refl _
  | seen _ _ ih => exact ih
  | unseen _ build _ write _ ihqueue ihrest =>
    have hbuild : Wrote ctx [] _ _ := .of_builds ((buildPending?_builds _).of_ok build)
    exact (hbuild.append ihqueue.of_pending).append (write.wrote.append ihrest)

/-- The queue is empty again when it was written. -/
theorem Flushes.pending {ds : List DeclId} {s s' : Session σ} {es : List Entry}
    (h : Flushes ctx ds s es s') (hs : s.pending = ∅) : s'.pending = ∅ := by
  induction h with
  | nil => exact hs
  | seen _ _ ih => exact ih hs
  | unseen _ _ _ write _ ihqueue ihrest => exact ihrest (write.pending.trans (ihqueue rfl))

theorem Emits.wrote {d : DeclId} {e? : Option Entry} {s s' : Session σ} {es : List Entry}
    (h : Emits ctx d e? s es s') : Wrote ctx es s s' := by
  obtain ⟨queued, own, s₁, hqueue, hown, rfl⟩ := h
  exact hqueue.wrote.of_pending.append hown.wrote

/-- After an entry was written nothing is queued, whatever was queued before. So between two
declarations the queue is always empty. -/
theorem Emits.pending {d : DeclId} {e? : Option Entry} {s s' : Session σ} {es : List Entry}
    (h : Emits ctx d e? s es s') : s'.pending = ∅ := by
  obtain ⟨queued, own, s₁, hqueue, hown, rfl⟩ := h
  exact hown.pending.trans (hqueue.pending rfl)

/-- By induction on the visit. Going into a scope and out again changes only the scope, which is put
back (`Wrote.inScope`). -/
theorem Visits.wrote {n : Nat} {scope? : Option DeclId} {ds : List DeclId} {s s' : Session σ}
    {es : List Entry} (h : Visits ctx n scope? ds s es s') : Wrote ctx es s s' := by
  induction h with
  | nil => exact .refl _
  | tooDeep => exact .refl _
  | invalid _ _ ih =>
    exact ⟨⟨ih.writes.page, ih.writes.hasEntries, ih.writes.emitted⟩, ih.scope, ih.registry, ih.seen⟩
  | written _ _ build emit _ _ ihmembers ihrest =>
    have hbuild : Wrote ctx [] _ _ := .of_builds ((build?_builds _).of_ok build)
    have hown := ((hbuild.append emit.wrote).append ihmembers).inScope.append ihrest
    simpa using hown
  | passed _ _ _ _ ihmembers ihrest => exact ihmembers.inScope.append ihrest

/-- A visit that starts with an empty queue ends with one. A declaration that makes no entry of its own
queues nothing, and after every other one `Emits.pending` applies. -/
theorem Visits.pending {n : Nat} {scope? : Option DeclId} {ds : List DeclId} {s s' : Session σ}
    {es : List Entry} (h : Visits ctx n scope? ds s es s') (hs : s.pending = ∅) :
    s'.pending = ∅ := by
  induction h with
  | nil => exact hs
  | tooDeep => exact hs
  | invalid _ _ ih => exact ih hs
  | written _ _ _ emit _ _ ihmembers ihrest => exact ihrest (ihmembers emit.pending)
  | passed _ _ _ _ ihmembers ihrest => exact ihrest (ihmembers hs)

/-! ## Runs that end -/

/-- How a step ends that has nothing to give. -/
abbrev Outcome (σ : Type) := EStateM.Result ExtractError (Session σ) Unit

/-- Write the entry of `d`, if there is one, if all went well before. An error that came from the queue
is passed on and the entry is not written. -/
def thenWrite (ctx : Context σ) (d : DeclId) (e? : Option Entry) : Outcome σ → Outcome σ
  | .ok () s =>
    match e? with
    | some e => writeEntry ctx d e s
    | none => .ok () s
  | .error e s => .error e s

/-- Writing a queue of unnamed records comes to an end, well or not. What is queued for a record is
written before its entry, in the same way. The cases are those of `Flushes` with the two places where a
run can stop: the record cannot be built, or its queue or its entry cannot be written. No fuel appears,
so a queue that feeds itself forever has no outcome in this relation. -/
inductive FlushReturns (ctx : Context σ) : List DeclId → Session σ → Outcome σ → Prop where
  | nil {s : Session σ} : FlushReturns ctx [] s (.ok () s)
  | seen {d : DeclId} {ds : List DeclId} {s : Session σ} {r : Outcome σ}
    (hseen : ctx.unit.canonical d ∈ s.seen) (rest : FlushReturns ctx ds s r) :
    FlushReturns ctx (d :: ds) s r
  | refused {d : DeclId} {ds : List DeclId} {s s' : Session σ} {error : ExtractError}
    (hseen : ctx.unit.canonical d ∉ s.seen) (build : buildPending? ctx d s = .error error s') :
    FlushReturns ctx (d :: ds) s (.error error s')
  | stopped {d : DeclId} {ds : List DeclId} {s s₁ s' : Session σ} {e? : Option Entry} {r : Outcome σ}
    {error : ExtractError} (hseen : ctx.unit.canonical d ∉ s.seen)
    (build : buildPending? ctx d s = .ok e? s₁)
    (queue : FlushReturns ctx s₁.pending.toList { s₁ with pending := ∅ } r)
    (write : thenWrite ctx d e? r = .error error s') :
    FlushReturns ctx (d :: ds) s (.error error s')
  | written {d : DeclId} {ds : List DeclId} {s s₁ s₂ : Session σ} {e? : Option Entry} {r r' : Outcome σ}
    (hseen : ctx.unit.canonical d ∉ s.seen) (build : buildPending? ctx d s = .ok e? s₁)
    (queue : FlushReturns ctx s₁.pending.toList { s₁ with pending := ∅ } r)
    (write : thenWrite ctx d e? r = .ok () s₂) (rest : FlushReturns ctx ds s₂ r') :
    FlushReturns ctx (d :: ds) s r'

/-- Writing the queue and then an entry, if there is one, comes to an end, well or not. The queue is
taken out of the session first. What the records in it refer to is queued again, and written before
them, which is the recursion that needs a bound in the program and none here. -/
def EmitReturns (ctx : Context σ) (d : DeclId) (e? : Option Entry) (s : Session σ) (r : Outcome σ) :
    Prop :=
  ∃ queue, FlushReturns ctx s.pending.toList { s with pending := ∅ } queue ∧ r = thenWrite ctx d e? queue

/-- If the entry was written, all went well before it. -/
theorem thenWrite_eq_ok {d : DeclId} {e? : Option Entry} {r : Outcome σ} {s' : Session σ}
    (h : thenWrite ctx d e? r = .ok () s') :
    ∃ s own, r = .ok () s ∧ WritesOwn ctx d s s' e? own := by
  cases r with
  | error error s => cases h
  | ok _ s =>
    cases e? with
    | none =>
      cases h
      exact ⟨_, [], rfl, rfl, rfl⟩
    | some e => exact ⟨s, _, rfl, h, rfl⟩

/-- Writing a queue does not end in two ways. By induction on the first derivation; the second one ends
in the same case, because builders are functions and the three cases with a new record differ in what
building and writing answer. -/
theorem FlushReturns.unique {ds : List DeclId} {s : Session σ} {r r' : Outcome σ}
    (h : FlushReturns ctx ds s r) (h' : FlushReturns ctx ds s r') : r = r' := by
  -- Two derivations agree in the build of the first record, which is computed, and so they use the same
  -- rule; the rest is by induction.
  induction h generalizing r' with
  | nil =>
    cases h' with
    | nil => rfl
  | seen hseen _ ih =>
    cases h' with
    | seen _ rest => exact ih rest
    | refused hnew | stopped hnew | written hnew => exact absurd hseen hnew
  | refused hnew build =>
    cases h' with
    | seen hseen => exact absurd hseen hnew
    | refused _ build' | stopped _ build' | written _ build' =>
      cases build.symm.trans build'
      try rfl
  | stopped hnew build _ write ih =>
    cases h' with
    | seen hseen => exact absurd hseen hnew
    | refused _ build' => cases build.symm.trans build'
    | stopped _ build' queue' write' =>
      cases build.symm.trans build'
      cases ih queue'
      exact write.symm.trans write'
    | written _ build' queue' write' =>
      cases build.symm.trans build'
      cases ih queue'
      cases write.symm.trans write'
  | written hnew build _ write _ ihqueue ihrest =>
    cases h' with
    | seen hseen => exact absurd hseen hnew
    | refused _ build' => cases build.symm.trans build'
    | stopped _ build' queue' write' =>
      cases build.symm.trans build'
      cases ihqueue queue'
      cases write.symm.trans write'
    | written _ build' queue' write' rest' =>
      cases build.symm.trans build'
      cases ihqueue queue'
      cases write.symm.trans write'
      exact ihrest rest'

theorem EmitReturns.unique {d : DeclId} {e? : Option Entry} {s : Session σ} {r r' : Outcome σ}
    (h : EmitReturns ctx d e? s r) (h' : EmitReturns ctx d e? s r') : r = r' := by
  obtain ⟨_, hqueue, rfl⟩ := h
  obtain ⟨_, hqueue', rfl⟩ := h'
  rw [hqueue.unique hqueue']

theorem FlushReturns.flushes {ds : List DeclId} {s s' : Session σ}
    (h : FlushReturns ctx ds s (.ok () s')) : ∃ es, Flushes ctx ds s es s' := by
  generalize hr : EStateM.Result.ok () s' = r at h
  induction h generalizing s' with
  | nil =>
    cases hr
    exact ⟨[], .nil⟩
  | seen hseen _ ih =>
    obtain ⟨es, hes⟩ := ih hr
    exact ⟨es, .seen hseen hes⟩
  | refused => cases hr
  | stopped => cases hr
  | written hseen build _ write _ ihqueue ihrest =>
    obtain ⟨s₂, own, rfl, hown⟩ := thenWrite_eq_ok write
    obtain ⟨queued, hqueue⟩ := ihqueue rfl
    obtain ⟨es, hes⟩ := ihrest hr
    exact ⟨_, .unseen hseen build hqueue hown hes⟩

/-- An entry that is written at the end of it all was written after its queue. -/
theorem EmitReturns.emits {d : DeclId} {e? : Option Entry} {s s' : Session σ}
    (h : EmitReturns ctx d e? s (.ok () s')) : ∃ es, Emits ctx d e? s es s' := by
  obtain ⟨r, hqueue, hr⟩ := h
  obtain ⟨s₁, own, rfl, hown⟩ := thenWrite_eq_ok hr.symm
  obtain ⟨queued, hqueue⟩ := hqueue.flushes
  exact ⟨_, queued, own, s₁, hqueue, hown, rfl⟩

/-! ## The bound on the recursion -/

end Extract

/-- How many declarations are not seen yet. It is the measure of the recursion over the queue: a record
that is built is marked, and only a record that is built can queue others. -/
def Session.unseen (u : TranslationUnit) (s : Session σ) : Nat :=
  ((Finset.range u.nodes.size).filter fun i => u.canonical ⟨i⟩ ∉ s.seen).card

namespace Session

variable {u : TranslationUnit} {s s' : Session σ}

theorem unseen_le_size : s.unseen u ≤ u.nodes.size := TranslationUnit.unmet_le_size

/-- Marks are never taken back, so the measure never goes up. -/
theorem unseen_le (h : ∀ c ∈ s.seen, c ∈ s'.seen) : s'.unseen u ≤ s.unseen u := TranslationUnit.unmet_le h

theorem unseen_lt (h : ∀ c ∈ s.seen, c ∈ s'.seen) {d : DeclId} (hlt : d.index < u.nodes.size)
    (hnew : u.canonical d ∉ s.seen) (hseen : u.canonical d ∈ s'.seen) :
    s'.unseen u < s.unseen u := TranslationUnit.unmet_lt h hlt hnew hseen

end Session

namespace Extract

/-- A queued record that leaves something queued was marked as seen. -/
theorem buildPending?_unseen {d : DeclId} {s s₁ : Session σ} {e? : Option Entry}
    (hnew : ctx.unit.canonical d ∉ s.seen) (h : buildPending? ctx d s = .ok e? s₁)
    (hs : s.pending = ∅) : s₁.pending = ∅ ∨ s₁.unseen ctx.unit < s.unseen ctx.unit := by
  rcases buildPending?_eq_ok h with ⟨_, _, rfl⟩ | ⟨r, _, _, _, hno⟩ | ⟨r, e, _, hr, _, hmakes⟩
  · exact .inl hs
  · exact .inl (hno.pending.trans hs)
  · have hlt : d.index < ctx.unit.nodes.size := by
      -- A handle that was never issued is no record.
      by_contra hge
      have hd : ctx.unit.node d = default := by simp [TranslationUnit.node, Array.getD, hge]
      rw [hd] at hr
      cases hr
    exact .inr (Session.unseen_lt ((buildPending?_builds d).of_ok h).seen hlt hnew hmakes.withEntry.seen)

section Bound

variable {fuel : Nat}

/-- One record of the queue, with the two steps that can fail written out. The proofs below match on
these outcomes, which the text of `flushWith` hides behind `>>=`. -/
theorem flushWith_cons (write : DeclId → Option Entry → Extract σ Unit) (d : DeclId) (ds : List DeclId)
    (s : Session σ) : flushWith ctx write (d :: ds) s =
      if ctx.unit.canonical d ∈ s.seen then flushWith ctx write ds s
      else
        match buildPending? ctx d s with
        | .error e s' => .error e s'
        | .ok e? s₁ =>
          match write d e? s₁ with
          | .error e s' => .error e s'
          | .ok () s₂ => flushWith ctx write ds s₂ := by
  have hcons : flushWith ctx write (d :: ds) s =
      (if ctx.unit.canonical d ∉ s.seen then
        buildPending? ctx d >>= fun e? => write d e? >>= fun _ => flushWith ctx write ds
      else flushWith ctx write ds) s := rfl
  rw [hcons]
  split
  · simp only [bind, EStateM.bind]
    cases buildPending? ctx d s with
    | error e s' => rfl
    | ok e? s₁ =>
      dsimp only
      cases write d e? s₁ <;> rfl
  · next hseen => rw [if_pos (not_not.1 hseen)]

/-- One level of the recursion: empty the queue, write it one level deeper, write the entry. -/
theorem emitWithin_succ (d : DeclId) (e? : Option Entry) (s : Session σ) :
    emitWithin ctx (fuel + 1) d e? s = thenWrite ctx d e?
      (flushWith ctx (emitWithin ctx fuel) s.pending.toList { s with pending := ∅ }) := by
  change (flushWith ctx (emitWithin ctx fuel) s.pending.toList >>= _) { s with pending := ∅ } = _
  simp only [bind, EStateM.bind]
  cases flushWith ctx (emitWithin ctx fuel) s.pending.toList { s with pending := ∅ } with
  | error e s' => rfl
  | ok _ s' => cases e? <;> rfl

/-- What a level of the recursion relies on: with this much fuel the bounded function returns what the
unbounded relation says. The two disjuncts are the two situations a level can meet. With an empty queue
one level is enough; otherwise as many levels as there are unseen declarations, and two for the level
itself and the empty one at the bottom. -/
def Suffices (ctx : Context σ) (fuel : Nat) : Prop :=
  ∀ (d : DeclId) (e? : Option Entry) (s : Session σ),
    (s.pending = ∅ ∧ 1 ≤ fuel) ∨ s.unseen ctx.unit + 2 ≤ fuel →
    EmitReturns ctx d e? s (emitWithin ctx fuel d e? s)

/-- The queue, if one level deeper suffices. By induction on it: the records behind the first one start
with no more unseen declarations than it did. -/
theorem flushReturns_flushWith (hfuel : Suffices ctx fuel) :
    ∀ {ds : List DeclId} {s : Session σ}, s.pending = ∅ → ds = [] ∨ s.unseen ctx.unit + 1 ≤ fuel →
      FlushReturns ctx ds s (flushWith ctx (emitWithin ctx fuel) ds s) := by
  intro ds
  induction ds with
  | nil =>
    intro s _ _
    exact .nil
  | cons d ds ih =>
    intro s hpending hbound
    have hlevel : s.unseen ctx.unit + 1 ≤ fuel := by simpa using hbound
    rw [flushWith_cons]
    split
    · next hseen => exact .seen hseen (ih hpending (.inr hlevel))
    next hnew =>
    cases hbuild : buildPending? ctx d s with
    | error e s' => exact .refused hnew hbuild
    | ok e? s₁ =>
      -- If building the record queued others, it was marked, so fewer are left below.
      have hinner : (s₁.pending = ∅ ∧ 1 ≤ fuel) ∨ s₁.unseen ctx.unit + 2 ≤ fuel := by
        rcases buildPending?_unseen hnew hbuild hpending with hnone | hless
        · exact .inl ⟨hnone, by omega⟩
        · exact .inr (by omega)
      have hemit := hfuel d e? s₁ hinner
      dsimp only
      cases hwrite : emitWithin ctx fuel d e? s₁ with
      | error e s' =>
        rw [hwrite] at hemit
        obtain ⟨r, hqueue, hr⟩ := hemit
        exact .stopped hnew hbuild hqueue hr.symm
      | ok _ s₂ =>
        rw [hwrite] at hemit
        obtain ⟨es, hemits⟩ := hemit.emits
        have hkept : s₂.unseen ctx.unit ≤ s.unseen ctx.unit :=
          Session.unseen_le fun c hc =>
            hemits.wrote.seen c (((buildPending?_builds d).of_ok hbuild).seen c hc)
        obtain ⟨r, hqueue, hr⟩ := hemit
        exact .written hnew hbuild hqueue hr.symm (ih hemits.pending (.inr (by omega)))

/-- **The bound suffices.** With nothing queued one level is enough; otherwise two more than there
are declarations to be seen. -/
theorem suffices_fuel : ∀ fuel : Nat, Suffices ctx fuel
  | 0 => by
    intro d e? s hbound
    omega
  | fuel + 1 => by
    intro d e? s hbound
    have hlevel : s.pending.toList = [] ∨
        ({ s with pending := ∅ } : Session σ).unseen ctx.unit + 1 ≤ fuel := by
      rcases hbound with ⟨hpending, _⟩ | hbound
      · exact .inl (by rw [hpending]; rfl)
      · exact .inr (Nat.le_of_succ_le_succ hbound)
    exact ⟨_, flushReturns_flushWith (suffices_fuel fuel) rfl hlevel, emitWithin_succ d e? s⟩

end Bound

theorem emitReturns_emit (d : DeclId) (e? : Option Entry) (s : Session σ) :
    EmitReturns ctx d e? s (emit ctx d e? s) := by
  have hsize : s.unseen ctx.unit ≤ ctx.unit.nodes.size := Session.unseen_le_size
  exact suffices_fuel _ d e? s (.inr (by omega))

/-- **Writing the queue comes to an end**, however it ends, and `emit` tells how. -/
theorem emitReturns_iff {d : DeclId} {e? : Option Entry} {s : Session σ} {r : Outcome σ} :
    EmitReturns ctx d e? s r ↔ r = emit ctx d e? s := by
  constructor
  · exact fun hr => hr.unique (emitReturns_emit d e? s)
  · rintro rfl
    exact emitReturns_emit d e? s

/-- What a successful `emit` wrote, in the form that inductions on runs start from. -/
theorem emits_of_emit {d : DeclId} {e? : Option Entry} {s s' : Session σ}
    (h : emit ctx d e? s = .ok () s') : ∃ es, Emits ctx d e? s es s' :=
  (emitReturns_iff.2 h.symm).emits

/-! ## Visits -/

/-- Out of fuel nothing is visited. -/
theorem forM_visitWithin_zero {scope? : Option DeclId} {ds : List DeclId} {s s' : Session σ}
    (h : ds.forM (visitWithin ctx 0 scope?) s = .ok () s') : s = s' := by
  induction ds with
  | nil => exact forM_nil_eq_ok.1 h
  | cons d ds ih =>
    obtain ⟨s₁, hd, h⟩ := forM_cons_eq_ok.1 h
    obtain ⟨_, rfl⟩ := pure_eq_ok.1 hd
    exact ih h

/-- What a successful visit of one declaration did: it counted an invalid one, or it wrote the
declaration's own entry inside its scope, visited the members, and put the scope back. -/
theorem visitWithin_succ_eq_ok {n : Nat} {scope? : Option DeclId} {d : DeclId} {s s' : Session σ}
    (h : visitWithin ctx (n + 1) scope? d s = .ok () s') :
    ((ctx.unit.node d).isInvalid ∧ s' =
      { s with summary := { s.summary with skippedInvalid := s.summary.skippedInvalid + 1 } }) ∨
      ∃ s₁ s₂, (ctx.unit.node d).isInvalid = false ∧ writeOwn ctx d { s with scope? } = .ok () s₁ ∧
        (ctx.unit.node d).members.forM (visitWithin ctx n (ctx.unit.innerScope scope? d)) s₁ =
          .ok () s₂ ∧
        s' = { s₂ with scope? := s.scope? } := by
  rw [visitWithin_succ] at h
  split at h
  · next hinvalid =>
    obtain rfl := modify_eq_ok.1 h
    exact .inl ⟨hinvalid, rfl⟩
  · next hvalid =>
    rw [Bool.not_eq_true] at hvalid
    obtain ⟨s₂, hrun, rfl⟩ := inScope_eq_ok.1 h
    obtain ⟨_, s₁, hown, hmembers⟩ := bind_eq_ok.1 hrun
    exact .inr ⟨s₁, s₂, hvalid, hown, hmembers, rfl⟩

/-- **What a visit that succeeds does.** The results about whole documents take their induction from
here. -/
theorem visits_of_forM :
    ∀ (n : Nat) {scope? : Option DeclId} {ds : List DeclId} {s s' : Session σ},
      ds.forM (visitWithin ctx n scope?) s = .ok () s' → ∃ es, Visits ctx n scope? ds s es s' := by
  -- The fuel counts down from a declaration to its members, so it goes first.
  intro n
  induction n with
  | zero =>
    intro scope? ds s s' h
    obtain rfl := forM_visitWithin_zero h
    exact ⟨[], .tooDeep⟩
  | succ n ihdepth =>
    intro scope? ds
    induction ds with
    | nil =>
      intro s s' h
      obtain rfl := forM_nil_eq_ok.1 h
      exact ⟨[], .nil⟩
    | cons d ds ih =>
      intro s s' h
      obtain ⟨s₁, hd, h⟩ := forM_cons_eq_ok.1 h
      obtain ⟨rest, hrest⟩ := ih h
      rcases visitWithin_succ_eq_ok hd with ⟨hinvalid, rfl⟩ | ⟨s₂, s₃, hvalid, hown, hmembers, rfl⟩
      · exact ⟨rest, .invalid hinvalid hrest⟩
      -- Both remaining cases visit the members, one level deeper; they differ in the entry before them.
      · obtain ⟨es, hmembers⟩ := ihdepth hmembers
        unfold writeOwn at hown
        split at hown
        · next hkind =>
          obtain ⟨e?, s₄, hbuild, hemit⟩ := bind_eq_ok.1 hown
          obtain ⟨own, hemit⟩ := emits_of_emit hemit
          exact ⟨_, .written hvalid hkind hbuild hemit hmembers hrest⟩
        · next hkind =>
          obtain ⟨_, rfl⟩ := pure_eq_ok.1 hown
          exact ⟨_, .passed hvalid (by simpa using hkind) hmembers hrest⟩

end Extract

end ForeignDecl
