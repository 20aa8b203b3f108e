import ForeignDecl.Proofs.Document.Calls
import ForeignDecl.Proofs.Extract.Visiting

/-!
# What a step of an extraction may do

Between the builders, which never write, and whole visits there is one place where an entry is
written. `writeEntry_eq_ok` says all that happens there. `Allows` lists what a relation between
sessions has to allow, and then the relation holds of every visit, however deep and however it ends:
this is the only induction over the queue of unnamed records and over nested scopes that relations
need. Growth of the registry, marks that stay, provenance of entries, and what a failing writer can do
are all instances of it.
-/

set_option autoImplicit false

namespace ForeignDecl

variable {σ : Type} {ctx : Context σ}

/-! ## Entries and what they are made from -/

namespace Extract

/-- `e` is an entry that is made of `d`, where `d` is declared or because something refers to it. The
two ways differ for records: where an unnamed one is declared there is no entry of it, and where it is
referred to there is. -/
inductive IsEntryOf (ctx : Context σ) (d : DeclId) (e : Entry) : Prop where
  | declared {s s' : Session σ} (h : build? ctx d s = .ok (some e) s')
  | referred {s s' : Session σ} (h : buildPending? ctx d s = .ok (some e) s')

/-- Writing an entry stamps it with the number of the scope, writes a separator unless it is the
first one, and counts it. -/
theorem writeEntry_eq_ok {source : DeclId} {e : Entry} {s s' : Session σ} :
    writeEntry ctx source e s = .ok () s' ↔
      ∃ page, ctx.writer.Performs
          (Call.following s.hasEntries
            [stamp (s.registry.register ctx.unit s.scope?).1
              (ctx.unit.node source).locationText e]) s.page page ∧
        s' = { s with
          page
          registry := (s.registry.register ctx.unit s.scope?).2
          hasEntries := true
          summary := { s.summary with emitted := s.summary.emitted + 1 } } := by
  unfold writeEntry register
  simp only [bind_eq_ok, get_eq_ok, modifyGet_eq_ok]
  constructor
  · rintro ⟨_, _, ⟨rfl, rfl⟩, _, s₁, h₁, _, _, ⟨rfl, rfl⟩, h⟩
    cases h₁
    dsimp only at h
    split at h
    -- A separator is written first, so the writer is called twice.
    · next hentries =>
      obtain ⟨_, s₂, h₂, _, s₃, h₃, h₄⟩ := by simpa only [bind_eq_ok] using h
      obtain ⟨p₂, hp₂, rfl⟩ := send_eq_ok.1 h₂
      obtain ⟨p₃, hp₃, rfl⟩ := send_eq_ok.1 h₃
      obtain rfl := modify_eq_ok.1 h₄
      refine ⟨p₃, ?_, by simp [hentries]⟩
      rw [hentries]
      exact ⟨p₂, hp₂, p₃, hp₃, rfl⟩
    · next hentries =>
      obtain ⟨_, s₂, h₂, _, s₃, h₃, h₄⟩ := by simpa only [bind_eq_ok] using h
      obtain rfl := modify_eq_ok.1 h₂
      obtain ⟨p₃, hp₃, rfl⟩ := send_eq_ok.1 h₃
      obtain rfl := modify_eq_ok.1 h₄
      refine ⟨p₃, ?_, rfl⟩
      rw [Bool.not_eq_true] at hentries
      rw [hentries]
      exact ⟨p₃, hp₃, rfl⟩
  · rintro ⟨page, hpage, rfl⟩
    refine ⟨_, _, ⟨rfl, rfl⟩, _, _, rfl, _, _, ⟨rfl, rfl⟩, ?_⟩
    dsimp only
    cases hentries : s.hasEntries with
    | true =>
      rw [hentries] at hpage
      obtain ⟨p₂, hp₂, p₃, hp₃, rfl⟩ := hpage
      simp only [bind_eq_ok, if_true]
      exact ⟨⟨⟩, _, send_eq_ok.2 ⟨p₂, hp₂, rfl⟩, ⟨⟩, _, send_eq_ok.2 ⟨p₃, hp₃, rfl⟩, by
        simp [count, modify_eq_ok]⟩
    | false =>
      rw [hentries] at hpage
      obtain ⟨p₃, hp₃, rfl⟩ := hpage
      simp only [bind_eq_ok, Bool.false_eq_true, if_false]
      exact ⟨⟨⟩, _, modify_eq_ok.2 rfl, ⟨⟩, _, send_eq_ok.2 ⟨p₃, hp₃, rfl⟩, modify_eq_ok.2 rfl⟩

/-- What is left to do for an entry once its scope is registered. Separated from `writeEntry` because
the stamped entry is then a fixed value, which nothing that follows can change. -/
def sendEntry (ctx : Context σ) (e : Entry) : Extract σ Unit := do
  if (← get).hasEntries then send ctx.writer.separator
  else modify ({ · with hasEntries := true })
  send (ctx.writer.entry e)
  count fun c => { c with emitted := c.emitted + 1 }

/-- Also when the writer fails, only what it does to the page and to the counters is left to be said. -/
theorem after_writeEntry (d : DeclId) (e : Entry) (s : Session σ) :
    after (writeEntry ctx d e) s =
      after (sendEntry ctx
        (stamp (s.registry.register ctx.unit s.scope?).1 (ctx.unit.node d).locationText e))
        { s with registry := (s.registry.register ctx.unit s.scope?).2 } := rfl

/-- The steps of it, each with what a relation has to allow for it. -/
theorem within_sendEntry {R : Session σ → Session σ → Prop} [IsPreorder (Session σ) R] {e : Entry}
    (hseparator : Within R (send ctx.writer.separator)) (hentry : Within R (send (ctx.writer.entry e)))
    (hfirst : ∀ s : Session σ, R s { s with hasEntries := true })
    (hcount : ∀ s : Session σ,
      R s { s with summary := { s.summary with emitted := s.summary.emitted + 1 } }) :
    Within R (sendEntry ctx e) := by
  refine within_get.bind fun s => ?_
  dsimp only
  split
  · exact hseparator.bind fun _ => hentry.bind fun _ => within_modify hcount
  · exact (within_modify hfirst).bind fun _ => hentry.bind fun _ => within_modify hcount

/-! ## Relations that hold of every visit -/

/-- What a relation has to allow to hold whenever a declaration itself is written: everything a builder
may do, emptying the queue, and writing an entry that a builder made. That the entry was made by a
builder is given to `writes` so that relations can speak of where entries come from. -/
structure AllowsOwn (ctx : Context σ) (R : Session σ → Session σ → Prop) : Prop where
  builds : ∀ {d s s'}, Builds ctx.unit d s s' → R s s'
  takes : ∀ s, R s { s with pending := ∅ }
  writes : ∀ {d e}, IsEntryOf ctx d e → Within R (writeEntry ctx d e)

/-- What a relation has to allow to hold of every visit. Visits also change the scope, which is the one
thing that the writing of a single declaration never does. -/
structure Allows (ctx : Context σ) (R : Session σ → Session σ → Prop) : Prop
    extends AllowsOwn ctx R where
  scopes : ∀ s scope?, R s { s with scope? }

namespace AllowsOwn

variable {R : Session σ → Session σ → Prop} [IsPreorder (Session σ) R]

/-- Writing queued records, if the recursion allows writing one. -/
theorem flushWith (h : AllowsOwn ctx R) {write : DeclId → Option Entry → Extract σ Unit}
    (hwrite : ∀ d e?, (∀ e ∈ e?, IsEntryOf ctx d e) → Within R (write d e?)) :
    ∀ ds, Within R (flushWith ctx write ds)
  | [] => within_pure _
  | d :: ds => by
    -- By recursion on the queue; of the recursion into `write` only `hwrite` is known, which `emitWithin`
    -- below proves at its own fuel.
    have ih := h.flushWith hwrite ds
    refine .bind within_get fun s => ?_
    dsimp only
    split
    · have hbuild : Within R (buildPending? ctx d) := (buildPending?_builds d).mono fun _ _ => h.builds
      refine hbuild.bind_of_ok fun s e? s' hs => .bind (hwrite d e? ?_) fun _ => ih
      rintro e rfl
      exact .referred hs
    · exact ih

/-- By induction on the fuel. Without fuel nothing is written, and any preorder allows that. -/
theorem emitWithin (h : AllowsOwn ctx R) :
    ∀ (fuel : Nat) (d : DeclId) (e? : Option Entry), (∀ e ∈ e?, IsEntryOf ctx d e) →
      Within R (emitWithin ctx fuel d e?)
  | 0, _, _, _ => within_pure _
  | fuel + 1, d, e?, he => by
    refine .bind (within_modifyGet h.takes) fun ds => .bind (h.flushWith (h.emitWithin fuel) ds) ?_
    intro _
    cases e? with
    | none => exact within_pure _
    | some e => exact h.writes (he e rfl)

/-- A declaration that is written at all is built and emitted. -/
theorem writeOwn (h : AllowsOwn ctx R) (d : DeclId) : Within R (writeOwn ctx d) := by
  unfold Extract.writeOwn
  split
  · have hbuild : Within R (build? ctx d) := (build?_builds d).mono fun _ _ => h.builds
    refine hbuild.bind_of_ok fun s e? s' hs => h.emitWithin _ d e? ?_
    rintro e rfl
    exact .declared hs
  · exact within_pure _

end AllowsOwn

namespace Allows

variable {R : Session σ → Session σ → Prop} [IsPreorder (Session σ) R]

/-- By induction on the nesting. An invalid declaration is only counted, which a builder might do as
well, so `Allows.builds` covers it. -/
theorem visitWithin (h : Allows ctx R) :
    ∀ (fuel : Nat) (scope? : Option DeclId) (d : DeclId), Within R (visitWithin ctx fuel scope? d)
  | 0, _, _ => within_pure _
  | fuel + 1, scope?, d => by
    rw [visitWithin_succ]
    split
    · exact (countSkipped_builds (d := d)).mono fun _ _ => h.builds
    · exact .inScope (.bind (h.writeOwn d) fun _ => .forM fun _ _ => h.visitWithin fuel _ _)
        (h.scopes · _) h.scopes

/-- **What is allowed at every place where an entry is written holds of whole visits.** -/
theorem visitTopLevel (h : Allows ctx R) (ds : List DeclId) : Within R (visitTopLevel ctx ds) :=
  .forM fun _ _ => h.visitWithin _ _ _

end Allows

end Extract

/-! ## Entries written between two sessions -/

/-- Between `s` and `s'` the entries `es` were written, and nothing else. The three fields are the three
places of a session that writing shows in; what was written is stated through the calls of the writer,
so that it can be said of every writer at once. -/
structure Writes (w : DocumentWriter σ) (es : List Entry) (s s' : Session σ) : Prop where
  page : w.Performs (Call.following s.hasEntries es) s.page s'.page
  hasEntries : s'.hasEntries = (s.hasEntries || !es.isEmpty)
  emitted : s'.summary.emitted = s.summary.emitted + es.length

namespace Writes

variable {w : DocumentWriter σ} {es es' : List Entry} {s s' s'' : Session σ}

/-- Steps that leave the three places alone have written nothing. -/
theorem nil (hpage : s'.page = s.page) (hentries : s'.hasEntries = s.hasEntries)
    (hemitted : s'.summary.emitted = s.summary.emitted) : Writes w [] s s' :=
  ⟨hpage.symm, by simp [hentries], by simp [hemitted]⟩

/-- Whether the second run begins with a separator depends on whether anything was written before it,
which `hasEntries` keeps; so the calls of the two runs together are the calls for all their entries
(`Call.following_append`). -/
theorem append (h : Writes w es s s') (h' : Writes w es' s' s'') : Writes w (es ++ es') s s'' where
  page := by
    rw [Call.following_append, ← h.hasEntries]
    exact h.page.append h'.page
  hasEntries := by
    rw [h'.hasEntries, h.hasEntries]
    cases es <;> simp
  emitted := by
    rw [h'.emitted, h.emitted, List.length_append, Nat.add_assoc]

theorem of_builds {u : TranslationUnit} {d : DeclId} (h : Builds u d s s') : Writes w [] s s' :=
  nil h.page h.hasEntries h.emitted

end Writes

namespace Extract

/-- The entry that `writeEntry` writes. -/
theorem writes_of_writeEntry {source : DeclId} {e : Entry} {s s' : Session σ}
    (h : writeEntry ctx source e s = .ok () s') :
    Writes ctx.writer
      [stamp (s.registry.register ctx.unit s.scope?).1 (ctx.unit.node source).locationText e]
      s s' := by
  obtain ⟨page, hpage, rfl⟩ := writeEntry_eq_ok.1 h
  exact ⟨hpage, by simp, rfl⟩

/-- A writer that accepts every call accepts every entry. -/
theorem writeEntry_isOk {Fine : σ → Prop} (hw : ctx.writer.Accepts Fine) {s : Session σ}
    (hs : Fine s.page) (source : DeclId) (e : Entry) :
    ∃ s', writeEntry ctx source e s = .ok () s' := by
  obtain ⟨page, hpage, _⟩ := hw.performs (Call.following s.hasEntries
    [stamp (s.registry.register ctx.unit s.scope?).1 (ctx.unit.node source).locationText e]) hs
  exact ⟨_, writeEntry_eq_ok.2 ⟨page, hpage, rfl⟩⟩

/-- From a page that is `Fine` some entries were written, each made by a builder and stamped. The page
stays `Fine`, which makes the relation transitive although a writer is only known to accept calls on
such pages. -/
def Reports (ctx : Context σ) (Fine : σ → Prop) (s s' : Session σ) : Prop :=
  Fine s.page → Fine s'.page ∧ ∃ es, Writes ctx.writer es s s' ∧
    ∀ e ∈ es, ∃ d e₀ scope location, IsEntryOf ctx d e₀ ∧ e = stamp scope location e₀

instance (Fine : σ → Prop) : IsPreorder (Session σ) (Reports ctx Fine) where
  refl s hs := ⟨hs, [], .nil rfl rfl rfl, by simp⟩
  trans s₁ s₂ s₃ h h' hs := by
    obtain ⟨hs₂, es, hes, hmade⟩ := h hs
    obtain ⟨hs₃, es', hes', hmade'⟩ := h' hs₂
    refine ⟨hs₃, es ++ es', hes.append hes', fun e he => ?_⟩
    exact (List.mem_append.1 he).elim (hmade e) (hmade' e)

/-- **Over a writer that accepts every call, a visit writes entries and nothing else**, also one that
ends with an error. -/
theorem allows_reports {Fine : σ → Prop} (hw : ctx.writer.Accepts Fine) :
    Allows ctx (Reports ctx Fine) where
  builds h hs := ⟨h.page ▸ hs, [], .of_builds h, by simp⟩
  takes _ hs := ⟨hs, [], .nil rfl rfl rfl, by simp⟩
  scopes _ _ hs := ⟨hs, [], .nil rfl rfl rfl, by simp⟩
  writes {d e} he s hs := by
    obtain ⟨s', h⟩ := writeEntry_isOk hw hs d e
    rw [after_of_ok h]
    have hwrites := writes_of_writeEntry h
    refine ⟨hw.of_performs hs hwrites.page, _, hwrites, fun e' he' => ?_⟩
    obtain rfl := List.mem_singleton.1 he'
    exact ⟨d, e, _, _, he, rfl⟩

end Extract

end ForeignDecl
