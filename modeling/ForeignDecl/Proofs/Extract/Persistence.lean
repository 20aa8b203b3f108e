import ForeignDecl.Proofs.Extract.Listing
import ForeignDecl.Proofs.Extract.Separators

/-!
# A session survives failures

A step may fail at any depth: inside a namespace, in the queue of unnamed records, between a separator and
its entry. What matters to the steps after it is the session that it leaves. A visit puts the scope back and
takes nothing back of what the session remembers, however it ends (`visitWithin_scope`, `allows_persists`). So
a declaration that is handed over later is told in the global scope, and numbers in what was written before
still mean the same (`session_persists`).
-/

set_option autoImplicit false

namespace ForeignDecl

variable {σ α β : Type} {ctx : Context σ}

/-- The same context, with a writer that also keeps the calls made to it. The page alone would not do: a
writer may drop what it is given, or write two entries in one form. -/
abbrev Context.recorded (ctx : Context σ) : Context (σ × List Call) where
  unit := ctx.unit
  oracle := ctx.oracle
  writer := ctx.writer.recorded

/-! ## What a session remembers -/

/-- Nothing is taken back: entities keep their numbers and others are registered behind them, what was
seen stays seen, and no counter goes down. The page is not mentioned, since a writer that fails may
leave anything on it. -/
structure Session.Persists (s s' : Session σ) : Prop where
  registry : s.registry.Grows s'.registry
  seen : ∀ c ∈ s.seen, c ∈ s'.seen
  emitted : s.summary.emitted ≤ s'.summary.emitted
  counters : s.summary.Grows s'.summary

namespace Session.Persists

variable {s s' s'' : Session σ}

/-- What a session remembers apart from the page, the scope and the queue. -/
theorem of_eq (hregistry : s'.registry = s.registry) (hseen : s'.seen = s.seen)
    (hsummary : s'.summary = s.summary) : s.Persists s' where
  registry := hregistry ▸ .rfl
  seen _ hc := hseen ▸ hc
  emitted := hsummary ▸ Nat.le_refl _
  counters := hsummary ▸ ⟨Nat.le_refl _, Nat.le_refl _, Nat.le_refl _⟩

theorem trans (h : s.Persists s') (h' : s'.Persists s'') : s.Persists s'' where
  registry := h.registry.trans h'.registry
  seen c hc := h'.seen c (h.seen c hc)
  emitted := Nat.le_trans h.emitted h'.emitted
  counters :=
    ⟨Nat.le_trans h.counters.skippedInvalid h'.counters.skippedInvalid,
      Nat.le_trans h.counters.droppedUnnamed h'.counters.droppedUnnamed,
      Nat.le_trans h.counters.unhandled h'.counters.unhandled⟩

end Session.Persists

instance : IsPreorder (Session σ) Session.Persists where
  refl _ := .of_eq rfl rfl rfl
  trans _ _ _ := .trans

/-- The scope is the same. It is not part of `Persists` because inside of a visit it changes; only a
whole visit puts it back. -/
def Session.KeepsScope (s s' : Session σ) : Prop := s'.scope? = s.scope?

instance : IsPreorder (Session σ) Session.KeepsScope where
  refl _ := rfl
  trans _ _ _ h h' := Eq.trans h' h

namespace Extract

/-! ## Visits, however they end -/

/-- **A visit puts the scope back**, however it ends. -/
theorem visitWithin_scope (fuel : Nat) (scope? : Option DeclId) (d : DeclId) :
    Within Session.KeepsScope (visitWithin ctx fuel scope? d) := by
  cases fuel with
  | zero => exact within_pure _
  | succ fuel =>
    rw [visitWithin_succ]
    split
    · exact within_modify fun _ => rfl
    · intro s
      rw [after_inScope]
      rfl

theorem visitTopLevel_scope (ds : List DeclId) :
    Within Session.KeepsScope (visitTopLevel ctx ds) := .forM fun d _ => visitWithin_scope _ none d

/-- Sending an entry counts it and takes nothing back, whether the writer accepts it or not. -/
theorem sendEntry_persists (e : Entry) : Within Session.Persists (sendEntry ctx e) :=
  within_sendEntry (within_send fun _ _ => .of_eq rfl rfl rfl) (within_send fun _ _ => .of_eq rfl rfl rfl)
    (fun _ => .of_eq rfl rfl rfl) fun _ =>
    ⟨.rfl, fun _ hc => hc, Nat.le_succ _, Nat.le_refl _, Nat.le_refl _, Nat.le_refl _⟩

/-- **Nothing is taken back**, whatever is visited and however it ends. -/
theorem allows_persists : Allows ctx Session.Persists where
  builds h := ⟨h.registry, h.seen, Nat.le_of_eq h.emitted.symm, h.counters⟩
  takes _ := .of_eq rfl rfl rfl
  scopes _ _ := .of_eq rfl rfl rfl
  writes {d e} _ s := by
    rw [after_writeEntry]
    have hregistered : s.Persists { s with registry := (s.registry.register ctx.unit s.scope?).2 } :=
      { Session.Persists.of_eq rfl rfl rfl with registry := s.registry.register_grows _ _ }
    exact hregistered.trans (sendEntry_persists _ _)

/-! ## Groups of declarations -/

/-- What holds of every group holds of many. -/
theorem related_foldl {R : Session σ → Session σ → Prop} [IsPreorder (Session σ) R]
    (h : ∀ ds, Within R (visitTopLevel ctx ds)) (groups : List (List DeclId)) (s : Session σ) :
    R s (groups.foldl (fun s ds => after (visitTopLevel ctx ds) s) s) := by
  induction groups generalizing s with
  | nil => exact refl s
  | cons ds groups ih => exact IsTrans.trans _ _ _ (h ds s) (ih _)

/-- More groups are handed over to the session that the first ones left. -/
theorem sessionAfter_append (namespaceName? : Option String) (groups later : List (List DeclId))
    (s : Session σ) :
    sessionAfter ctx namespaceName? (groups ++ later) s =
      later.foldl (fun s ds => after (visitTopLevel ctx ds) s)
        (sessionAfter ctx namespaceName? groups s) := List.foldl_append

/-- **Between groups the session is in the global scope**, whatever became of the groups before. -/
theorem scope_sessionAfter (namespaceName? : Option String) (groups : List (List DeclId))
    {s : Session σ} (hs : s.scope? = none) : (sessionAfter ctx namespaceName? groups s).scope? = none := by
  have hstart : Within Session.KeepsScope (start ctx namespaceName?) := by
    refine (within_send fun _ _ => rfl).bind fun _ => ?_
    cases namespaceName? with
    | none => exact within_pure _
    | some name => exact within_send fun _ _ => rfl
  exact (related_foldl visitTopLevel_scope groups _).trans ((hstart s).trans hs)

/-- **Numbers that were given stay**, whatever is handed over later. -/
theorem persists_sessionAfter (namespaceName? : Option String) (groups later : List (List DeclId))
    (s : Session σ) :
    (sessionAfter ctx namespaceName? groups s).Persists
      (sessionAfter ctx namespaceName? (groups ++ later) s) := by
  rw [sessionAfter_append]
  exact related_foldl allows_persists.visitTopLevel later _

/-! ## The log of a writer -/

/-- Between `s` and `s'` calls were made, and all entries that they hand over have `P`. The log only
grows, so what was written by an earlier group is a beginning of it. -/
def Logs (P : Entry → Prop) (s s' : Session (σ × List Call)) : Prop :=
  ∃ calls, s'.page.2 = s.page.2 ++ calls ∧ ∀ e ∈ Call.entries calls, P e

theorem Logs.of_eq {P : Entry → Prop} {s s' : Session (σ × List Call)} (h : s'.page = s.page) :
    Logs P s s' := ⟨[], by simp [h], by simp [Call.entries]⟩

instance (P : Entry → Prop) : IsPreorder (Session (σ × List Call)) (Logs P) where
  refl _ := .of_eq rfl
  trans s s' s'' := by
    rintro ⟨calls, hcalls, hP⟩ ⟨calls', hcalls', hP'⟩
    refine ⟨calls ++ calls', by rw [hcalls', hcalls, List.append_assoc], fun e he => ?_⟩
    rw [Call.entries_append] at he
    exact (List.mem_append.1 he).elim (hP e) (hP' e)

/-- A call is kept if it succeeds, and not if it fails. -/
theorem logs_noting {P : Entry → Prop} {c : Call} (x : Emit σ Unit) (hc : ∀ e ∈ c.entry?, P e) :
    Within (Logs P) (send (DocumentWriter.noting c x)) := by
  intro s
  have hcalls : ∀ e ∈ Call.entries [c], P e := by
    intro e he
    obtain ⟨c', hc', hentry⟩ := List.mem_filterMap.1 he
    obtain rfl := List.mem_singleton.1 hc'
    exact hc e hentry
  cases hx : x s.page.1 with
  | ok a p =>
    refine ⟨[c], ?_, hcalls⟩
    simp [after, send, DocumentWriter.noting, hx]
  | error e p =>
    refine ⟨[], ?_, by simp [Call.entries]⟩
    simp [after, send, DocumentWriter.noting, hx]

theorem sendEntry_logs {P : Entry → Prop} {e : Entry} (he : P e) :
    Within (Logs P) (sendEntry ctx.recorded e) :=
  within_sendEntry (logs_noting _ (by simp [Call.entry?]))
    (logs_noting _ fun e' he' => Option.some.inj he' ▸ he) (fun _ => .of_eq rfl) fun _ => .of_eq rfl

/-- Whatever is visited, the log only grows. -/
theorem allows_logs : Allows ctx.recorded (Logs fun _ => True) where
  builds h := .of_eq h.page
  takes _ := .of_eq rfl
  scopes _ _ := .of_eq rfl
  writes {d e} _ s := by
    rw [after_writeEntry]
    exact sendEntry_logs trivial { s with registry := _ }

/-- From the global scope on, the scope stays and all entries carry its number. As a relation from the
global scope only, it is not kept inside of a declaration; it holds of the writing of one
(`allowsOwn_logsGlobally`) and not of visits. -/
def LogsGlobally (s s' : Session (σ × List Call)) : Prop :=
  s.scope? = none → s'.scope? = none ∧ Logs (fun e => e.info.scope = globalScope) s s'

instance : IsPreorder (Session (σ × List Call)) LogsGlobally where
  refl _ hs := ⟨hs, .of_eq rfl⟩
  trans s s' s'' h h' hs := by
    obtain ⟨hs', hlogs⟩ := h hs
    obtain ⟨hs'', hlogs'⟩ := h' hs'
    exact ⟨hs'', IsTrans.trans _ _ _ hlogs hlogs'⟩

/-- Neither the queue nor the declaration itself is written anywhere else. -/
theorem allowsOwn_logsGlobally : AllowsOwn ctx.recorded LogsGlobally where
  builds h hs := ⟨h.scope.trans hs, .of_eq h.page⟩
  takes _ hs := ⟨hs, .of_eq rfl⟩
  writes {d e} _ s hs := by
    have hnumber : (s.registry.register ctx.recorded.unit s.scope?).1 = globalScope := by
      rw [hs]
      rfl
    have hscope : ∀ e, Within Session.KeepsScope (sendEntry ctx.recorded e) := fun _ =>
      within_sendEntry (within_send fun _ _ => rfl) (within_send fun _ _ => rfl) (fun _ => rfl) fun _ => rfl
    rw [after_writeEntry, hnumber]
    exact ⟨(hscope _ _).trans hs, sendEntry_logs (scope_stamp ..) { s with registry := _ }⟩

/-! ## What is written at top level -/

/-- A valid declaration at top level is written in the global scope, then its members are visited. The
log is cut where the members begin, and only the part before is in the global scope. -/
theorem visit_logs {d : DeclId} (hvalid : (ctx.unit.node d).isInvalid = false)
    {s : Session (σ × List Call)} (hs : s.scope? = none) :
    ∃ own more, (after (writeOwn ctx.recorded d) s).page.2 = s.page.2 ++ own ∧
      (after (visit ctx.recorded none d) s).page.2 = s.page.2 ++ own ++ more ∧
      ∀ e ∈ Call.entries own, e.info.scope = globalScope := by
  have hglobally : Within LogsGlobally (writeOwn ctx.recorded d) := allowsOwn_logsGlobally.writeOwn d
  obtain ⟨_, own, hown, hscopes⟩ := hglobally s hs
  have hmembers : ∀ _ : Unit, Within (Logs fun _ => True)
      ((ctx.unit.node d).members.forM
        (visitWithin ctx.recorded ctx.unit.nodes.size (ctx.unit.innerScope none d))) :=
    fun _ => .forM fun m _ => allows_logs.visitWithin _ _ m
  obtain ⟨more, hmore, _⟩ := related_after_bind hmembers s
  have hglobal : { s with scope? := none } = s := by rw [← hs]
  refine ⟨own, more, hown, ?_, hscopes⟩
  rw [visit, visitWithin_succ, if_neg (by simp [hvalid]), after_inScope, hglobal, ← hown]
  exact hmore

/-- The declarations behind others are visited in the session that those leave. -/
theorem after_visitTopLevel_append {before ds : List DeclId} {s s' : Session σ}
    (h : visitTopLevel ctx before s = .ok () s') :
    after (visitTopLevel ctx (before ++ ds)) s = after (visitTopLevel ctx ds) s' := by
  have happend : visitTopLevel ctx (before ++ ds) =
      (visitTopLevel ctx before >>= fun _ => visitTopLevel ctx ds) := List.forM_append
  rw [happend, after_bind h]

/-- A valid declaration that contributes is told last of what is written for it. -/
theorem exists_told {d : DeclId} (hvalid : (ctx.unit.node d).isInvalid = false)
    (hcontributes : ctx.unit.Contributes ctx.oracle d) {s s' : Session (σ × List Call)}
    (hs : s.scope? = none) (h : writeOwn ctx.recorded d s = .ok () s') :
    ∃ own e, s'.page.2 = s.page.2 ++ own ∧ (Call.entries own).getLast? = some e ∧
      Tells ctx.recorded s.registry (none, d) e := by
  have hwritten : (ctx.unit.node d).kind.isWritten := by
    by_contra hnot
    exact contributes_of_not_isWritten (by simpa using hnot) hcontributes
  unfold writeOwn at h
  rw [if_pos hwritten] at h
  obtain ⟨e?, s₁, hbuild, hemit⟩ := bind_eq_ok.1 h
  obtain ⟨es, hemits⟩ := emits_of_emit hemit
  have hsome : e?.isSome ↔ ctx.recorded.unit.Contributes ctx.recorded.oracle d :=
    build?_isSome_iff hvalid hwritten hbuild
  obtain ⟨e, rfl⟩ := Option.isSome_iff_exists.1 (hsome.2 hcontributes)
  have hbuilds : Builds ctx.recorded.unit d s s₁ := (build?_builds d).of_ok hbuild
  have hcalls := hemits.wrote.writes.page.recorded_calls
  obtain ⟨queued, own, s₂, hqueue, ⟨_, rfl⟩, rfl⟩ := hemits
  have hscope : s₂.scope? = none := hqueue.wrote.scope.trans (hbuilds.scope.trans hs)
  refine ⟨_, _, by rw [hcalls, hbuilds.page], ?_, tells_of_build? hbuild⟩
  rw [Call.entries_following, List.getLast?_concat, hscope]
  rfl

/-- **A session goes on as if nothing had failed.** Whatever is visited, in whatever session and however it
ends, the scope is put back and nothing is taken back of what the session remembers. So numbers that were
given stay, whatever is handed over later; and a valid declaration that is handed over at top level is written
in the global scope, with the unnamed records that it needs, whatever became of the groups before. -/
theorem session_persists (ctx : Context σ) (page : σ) (namespaceName? : Option String)
    (groups : List (List DeclId)) :
    let session := fun groups => sessionAfter ctx.recorded namespaceName? groups { page := (page, []) }
    (∀ fuel scope? d (s : Session σ), let s' := after (visitWithin ctx fuel scope? d) s
      s'.scope? = s.scope? ∧ s.Persists s') ∧
    (∀ later x, 0 < (session groups).registry.number ctx.unit x →
      (session (groups ++ later)).registry.number ctx.unit x =
        (session groups).registry.number ctx.unit x) ∧
    ∀ before d rest s, visitTopLevel ctx.recorded before (session groups) = .ok () s →
      (ctx.unit.node d).isInvalid = false →
      ∃ own more, (session (groups ++ [before ++ d :: rest])).page.2 = s.page.2 ++ own ++ more ∧
        (∀ e ∈ Call.entries own, e.info.scope = globalScope) ∧
        (after (writeOwn ctx.recorded d) s).page.2 = s.page.2 ++ own ∧
        (succeeds (writeOwn ctx.recorded d) s → ctx.unit.Contributes ctx.oracle d →
          ∃ e, (Call.entries own).getLast? = some e ∧ Tells ctx.recorded s.registry (none, d) e) := by
  intro session
  refine ⟨fun fuel scope? d s => ⟨visitWithin_scope fuel scope? d s, allows_persists.visitWithin _ _ _ s⟩,
    fun later x hpos => ?_, fun before d rest s hbefore hvalid => ?_⟩
  · exact (persists_sessionAfter namespaceName? groups later _).registry.number_eq hpos
  have hs : s.scope? = none := by
    have hkept : Session.KeepsScope (session groups) s := (visitTopLevel_scope before).of_ok hbefore
    exact hkept.trans (scope_sessionAfter namespaceName? groups rfl)
  obtain ⟨own, inner, hown, hvisit, hscopes⟩ := visit_logs hvalid hs
  have hrest : ∀ _ : Unit, Within (Logs fun _ => True) (visitTopLevel ctx.recorded rest) :=
    fun _ => allows_logs.visitTopLevel rest
  -- Whatever comes behind `d`, in its members or in the rest of the group, only adds to the log.
  obtain ⟨others, hothers, _⟩ := related_after_bind (x := visit ctx.recorded none d) hrest s
  refine ⟨own, inner ++ others, ?_, hscopes, hown, fun hok hcontributes => ?_⟩
  · have hgroup : session (groups ++ [before ++ d :: rest]) =
        after (visitTopLevel ctx.recorded (before ++ d :: rest)) (session groups) :=
      sessionAfter_append namespaceName? groups [before ++ d :: rest] _
    rw [hgroup, after_visitTopLevel_append hbefore, ← List.append_assoc, ← hvisit]
    exact hothers
  · obtain ⟨own', e, hown', hlast, htells⟩ :=
      exists_told hvalid hcontributes hs (ok_after_of_succeeds hok)
    obtain rfl : own = own' := List.append_cancel_left (hown.symm.trans hown')
    exact ⟨e, hlast, htells⟩

/-- A namespace with a typedef of an integer, and a typedef of a record without a name. -/
def interrupted : TranslationUnit where
  file := "a.hpp"
  types := #[.record ⟨0⟩, .builtin .int]
  nodes := #[{ kind := .record {} }, { name := "n", kind := .namespaceBlock [⟨2⟩] },
    { name := "b", kind := .typedef ⟨1⟩ }, { name := "c", kind := .typedef ⟨0⟩ }]

/-- The visit ends inside of the namespace, and what is handed over next is still told outside of it. -/
theorem session_persists_interrupted :
    let ctx : Context Unit := { unit := interrupted, oracle := recordsOnly, writer := .silent }
    let session := fun groups => sessionAfter ctx.recorded none groups { page := ((), []) }
    succeeds (visitTopLevel ctx.recorded [⟨1⟩]) { page := ((), []) } = false ∧
      0 < (session [[⟨1⟩]]).registry.number interrupted ⟨1⟩ ∧
      (session [[⟨1⟩], [⟨3⟩]]).registry.number interrupted ⟨1⟩ =
        (session [[⟨1⟩]]).registry.number interrupted ⟨1⟩ ∧
      ∃ own more, (session [[⟨1⟩], [⟨3⟩]]).page.2 = (session [[⟨1⟩]]).page.2 ++ own ++ more ∧
        (∀ e ∈ Call.entries own, e.info.scope = globalScope) ∧
        ∃ e, (Call.entries own).getLast? = some e ∧ e.name = "c" := by
  intro ctx session
  have hnumber : 0 < (session [[⟨1⟩]]).registry.number interrupted ⟨1⟩ := by decide +kernel
  have hcontributes : ctx.unit.Contributes ctx.oracle ⟨3⟩ :=
    underlyingIsValid_iff.1 (by decide +kernel)
  have hok : succeeds (writeOwn ctx.recorded ⟨3⟩) (session [[⟨1⟩]]) := by decide +kernel
  have hfails : succeeds (visitTopLevel ctx.recorded [⟨1⟩]) { page := ((), []) } = false := by
    decide +kernel
  obtain ⟨-, hnumbers, htold⟩ := session_persists ctx () none [[⟨1⟩]]
  have hnumber' := hnumbers [[⟨3⟩]] ⟨1⟩ hnumber
  obtain ⟨own, more, hlog, hscopes, -, hlast⟩ := htold [] ⟨3⟩ [] (session [[⟨1⟩]]) rfl rfl
  obtain ⟨e, he, htells⟩ := hlast hok hcontributes
  have hname : e.name = "c" := htells.name.trans rfl
  have hgroups : [[⟨1⟩]] ++ [[] ++ (⟨3⟩ : DeclId) :: []] = [[⟨1⟩], [⟨3⟩]] := rfl
  rw [hgroups] at hlog
  refine ⟨hfails, hnumber, hnumber', own, more, ?_, hscopes, e, he, hname⟩
  rw [← hlog]

end Extract

end ForeignDecl
