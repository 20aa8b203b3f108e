import Mathlib.Order.Defs.Unbundled
import ForeignDecl.Extract.Session

/-!
# Reasoning about steps of an extraction

A step can end in two ways, and in both it leaves a session. Two kinds of statement are made about
steps, and both compose along `>>=`:

* `Within R x` relates the session a step starts in to the one it leaves, *however it ends*. This is
  what frame conditions and growth are stated with. `R` has to be a preorder, so that a step made of
  steps needs no more than each of its parts.
* `x s = .ok a s'` for a step that succeeds. `bind_eq_ok` takes such an equation apart at `>>=`, and
  the equations of the primitive steps below it end the taking apart.

The first kind is proved once for all builders (`Proofs/Extract/Building.lean`), and then for all
visits (`Proofs/Extract/Writing.lean`); the second one is used where the entry that a builder makes is
looked at. Proofs of both kinds have one line for each step of the text they are about.
-/

set_option autoImplicit false

namespace ForeignDecl

namespace Extract

variable {σ α β : Type}

/-! ## Sessions left behind -/

/-- The session a step leaves, whether it succeeds or not. A step that fails keeps what it did up to
there, so this is a function of the step and not only of its success. -/
def after (x : Extract σ α) (s : Session σ) : Session σ :=
  match x s with
  | .ok _ s' | .error _ s' => s'

/-- Of a step that succeeds it is the session it returns. -/
theorem after_of_ok {x : Extract σ α} {s s' : Session σ} {a : α} (h : x s = .ok a s') :
    after x s = s' := by simp [after, h]

/-- The scope is put back however a step ends. -/
theorem after_inScope (scope? : Option DeclId) (x : Extract σ α) (s : Session σ) :
    after (inScope scope? x) s = { after x { s with scope? } with scope? := s.scope? } := by
  cases h : x { s with scope? } <;> simp [after, inScope, h]

/-- A later step starts in the session that the first one leaves. -/
theorem after_bind {x : Extract σ α} {f : α → Extract σ β} {s s' : Session σ} {a : α}
    (h : x s = .ok a s') : after (x >>= f) s = after (f a) s' := by
  simp [after, Bind.bind, EStateM.bind, h]

theorem after_bind_of_error {x : Extract σ α} {f : α → Extract σ β} {s s' : Session σ}
    {e : ExtractError} (h : x s = .error e s') : after (x >>= f) s = after x s := by
  simp [after, Bind.bind, EStateM.bind, h]

/-- `R` relates every session to the one that the step leaves when started in it. Nothing is asked of
the error or the answer, which is why one lemma for each builder serves runs that succeed and runs that
stop. -/
def Within (R : Session σ → Session σ → Prop) (x : Extract σ α) : Prop := ∀ s, R s (after x s)

/-- How the relation is used where a step is known to succeed. -/
theorem Within.of_ok {R : Session σ → Session σ → Prop} {x : Extract σ α} (h : Within R x)
    {s s' : Session σ} {a : α} (hx : x s = .ok a s') : R s s' := after_of_ok hx ▸ h s

/-- A step that keeps to a stronger relation keeps to a weaker one. The lemmas about builders are stated
for the strongest, `Builds`, and pass to others through this. -/
theorem Within.mono {R R' : Session σ → Session σ → Prop} {x : Extract σ α} (h : Within R x)
    (hR : ∀ s s', R s s' → R' s s') : Within R' x := fun s => hR _ _ (h s)

section Rules

variable {R : Session σ → Session σ → Prop} [IsPreorder (Session σ) R]

theorem within_pure (a : α) : Within R (pure a : Extract σ α) := fun s => refl s

theorem within_throw (e : ExtractError) : Within R (throw e : Extract σ α) := fun s => refl s

theorem within_get : Within R (get : Extract σ (Session σ)) := fun s => refl s

omit [IsPreorder (Session σ) R] in
/-- The writer changes the page, also when it refuses, and nothing else. A relation that does not look
at the page therefore holds of it; one that does has to speak of the writer. -/
theorem within_send {emit : Emit σ α} (h : ∀ (s : Session σ) page, R s { s with page }) :
    Within R (send emit) := by
  intro s
  cases hemit : emit s.page <;> simp only [after, send, hemit] <;> exact h s _

omit [IsPreorder (Session σ) R] in
theorem within_modify {f : Session σ → Session σ} (h : ∀ s, R s (f s)) :
    Within R (modify f : Extract σ PUnit) := h

omit [IsPreorder (Session σ) R] in
theorem within_modifyGet {f : Session σ → α × Session σ} (h : ∀ s, R s (f s).2) :
    Within R (modifyGet f : Extract σ α) := h

/-- Of the answer that goes into the second step it may be used that the first one gave it. -/
theorem Within.bind_of_ok {x : Extract σ α} {f : α → Extract σ β} (hx : Within R x)
    (hf : ∀ s a s', x s = .ok a s' → Within R (f a)) : Within R (x >>= f) := by
  intro s
  cases h : x s with
  | ok a s' =>
    rw [after_bind h]
    exact IsTrans.trans _ _ _ (hx.of_ok h) (hf s a s' h s')
  | error e s' =>
    rw [after_bind_of_error h]
    exact hx s

/-- Two steps in a row, where the second is good whatever the first one answers. Nearly every builder
needs no more. -/
theorem Within.bind {x : Extract σ α} {f : α → Extract σ β} (hx : Within R x)
    (hf : ∀ a, Within R (f a)) : Within R (x >>= f) := hx.bind_of_ok fun _ a _ _ => hf a

/-- What a step leaves is related to what is left when others follow it. -/
theorem related_after_bind {x : Extract σ α} {f : α → Extract σ β} (hf : ∀ a, Within R (f a))
    (s : Session σ) : R (after x s) (after (x >>= f) s) := by
  cases h : x s with
  | ok a s' =>
    rw [after_bind h, after_of_ok h]
    exact hf a s'
  | error e s' =>
    rw [after_bind_of_error h]
    exact refl _

theorem Within.map {x : Extract σ α} (hx : Within R x) (f : α → β) : Within R (f <$> x) := by
  rw [map_eq_pure_bind]
  exact hx.bind fun _ => within_pure _

omit [IsPreorder (Session σ) R] in
theorem Within.ite {c : Prop} [Decidable c] {x y : Extract σ α} (hx : Within R x)
    (hy : Within R y) : Within R (if c then x else y) := by
  split
  · exact hx
  · exact hy

/-- A step for each element, in order. By induction on the list, with the reflexivity and transitivity
of `R` for its two cases. -/
theorem Within.mapM {γ : Type} {f : γ → Extract σ α} :
    ∀ {cs : List γ}, (∀ c ∈ cs, Within R (f c)) → Within R (cs.mapM f)
  | [], _ => by
    rw [List.mapM_nil]
    exact within_pure _
  | c :: cs, h => by
    rw [List.mapM_cons]
    exact (h c (by simp)).bind fun _ =>
      (Within.mapM fun c' hc => h c' (by simp [hc])).bind fun _ => within_pure _

theorem Within.forM {γ : Type} {f : γ → Extract σ PUnit} :
    ∀ {cs : List γ}, (∀ c ∈ cs, Within R (f c)) → Within R (cs.forM f)
  | [], _ => within_pure _
  | c :: cs, h =>
    (h c (by simp)).bind fun _ => Within.forM fun c' hc => h c' (by simp [hc])

/-- A step inside another scope, for relations that do not look at the scope. -/
theorem Within.inScope {scope? : Option DeclId} {x : Extract σ α} (hx : Within R x)
    (hin : ∀ s : Session σ, R s { s with scope? })
    (hout : ∀ (s : Session σ) (outer? : Option DeclId), R s { s with scope? := outer? }) :
    Within R (inScope scope? x) := by
  intro s
  rw [after_inScope]
  exact IsTrans.trans _ _ _ (hin s)
    (IsTrans.trans _ _ _ (hx { s with scope? }) (hout _ s.scope?))

end Rules

/-! ## Answers -/

/-- Every answer of the step has `P`, whatever session it starts in. For facts about what a builder
makes that do not depend on the numbers it finds. -/
def Returns (P : α → Prop) (x : Extract σ α) : Prop := ∀ s a s', x s = .ok a s' → P a

/-! ## Steps that succeed -/

/-- Whether a step succeeds. As a `Bool` it can be evaluated, which is how the hypotheses of a concrete
run are checked. -/
def succeeds (x : Extract σ α) (s : Session σ) : Bool :=
  match x s with
  | .ok _ _ => true
  | .error _ _ => false

theorem exists_of_succeeds {x : Extract σ α} {s : Session σ} (h : succeeds x s) :
    ∃ a s', x s = .ok a s' := by
  unfold succeeds at h
  split at h
  · next a s' hx => exact ⟨a, s', hx⟩
  · simp at h

theorem ok_after_of_succeeds {x : Extract σ Unit} {s : Session σ} (h : succeeds x s) :
    x s = .ok () (after x s) := by
  obtain ⟨_, s', hx⟩ := exists_of_succeeds h
  rw [after_of_ok hx]
  exact hx

/-- Why a step fails, if it does. It too is there to be evaluated. -/
def failure? (x : Extract σ α) (s : Session σ) : Option ExtractError :=
  match x s with
  | .ok _ _ => none
  | .error e _ => some e

theorem failure?_eq_some {x : Extract σ α} {s : Session σ} {e : ExtractError} :
    failure? x s = some e ↔ ∃ s', x s = .error e s' := by
  unfold failure?
  split
  · next a s' hx => simp [hx]
  · next e' s' hx => simp [hx]

/-- An answer without a step before it changes nothing. -/
theorem pure_eq_ok {a b : α} {s s' : Session σ} :
    (pure a : Extract σ α) s = .ok b s' ↔ a = b ∧ s = s' := by
  simp [pure, EStateM.pure]

/-- An error is no success: the branches of a builder that end in one are closed with this. -/
theorem throw_ne_ok {e : ExtractError} {b : α} {s s' : Session σ} :
    (throw e : Extract σ α) s ≠ .ok b s' := by
  intro h
  cases h

/-- A step made of two succeeds if both do, the second from where the first one left off. Taking a
builder apart is a chain of uses of this equivalence. -/
theorem bind_eq_ok {x : Extract σ α} {f : α → Extract σ β} {b : β} {s s'' : Session σ} :
    (x >>= f) s = .ok b s'' ↔ ∃ a s', x s = .ok a s' ∧ f a s' = .ok b s'' := by
  cases h : x s with
  | ok a s' =>
    have hb : (x >>= f) s = f a s' := by simp [Bind.bind, EStateM.bind, h]
    rw [hb]
    exact ⟨fun hf => ⟨a, s', rfl, hf⟩, fun ⟨_, _, heq, hf⟩ => by cases heq; exact hf⟩
  | error e s' => simp [Bind.bind, EStateM.bind, h]

/-- Changing the answer does not change the session. -/
theorem map_eq_ok {x : Extract σ α} {f : α → β} {b : β} {s s' : Session σ} :
    (f <$> x) s = .ok b s' ↔ ∃ a, x s = .ok a s' ∧ f a = b := by
  rw [map_eq_pure_bind, bind_eq_ok]
  simp only [pure_eq_ok]
  exact ⟨fun ⟨a, _, hx, hb, hs⟩ => ⟨a, hs ▸ hx, hb⟩, fun ⟨a, hx, hb⟩ => ⟨a, s', hx, hb, rfl⟩⟩

theorem get_eq_ok {s₀ s s' : Session σ} :
    (get : Extract σ (Session σ)) s = .ok s₀ s' ↔ s = s₀ ∧ s = s' := by
  change EStateM.Result.ok s s = .ok s₀ s' ↔ _
  simp

theorem modify_eq_ok {f : Session σ → Session σ} {a : PUnit} {s s' : Session σ} :
    (modify f : Extract σ PUnit) s = .ok a s' ↔ f s = s' := by
  change EStateM.Result.ok ⟨⟩ (f s) = .ok a s' ↔ _
  simp

theorem modifyGet_eq_ok {f : Session σ → α × Session σ} {a : α} {s s' : Session σ} :
    (modifyGet f : Extract σ α) s = .ok a s' ↔ f s = (a, s') := by
  change EStateM.Result.ok (f s).1 (f s).2 = .ok a s' ↔ _
  simp [Prod.ext_iff]

/-- What the writer did shows in the page alone. -/
theorem send_eq_ok {emit : Emit σ α} {a : α} {s s' : Session σ} :
    send emit s = .ok a s' ↔ ∃ page, emit s.page = .ok a page ∧ { s with page } = s' := by
  unfold send
  cases emit s.page with
  | ok b page =>
    constructor
    · intro h
      cases h
      exact ⟨page, rfl, rfl⟩
    · rintro ⟨_, h, rfl⟩
      cases h
      rfl
  | error e page => simp

/-- A step inside a scope starts with that scope and ends with the old one. -/
theorem inScope_eq_ok {scope? : Option DeclId} {x : Extract σ α} {a : α} {s s' : Session σ} :
    inScope scope? x s = .ok a s' ↔
      ∃ s₁, x { s with scope? } = .ok a s₁ ∧ { s₁ with scope? := s.scope? } = s' := by
  unfold inScope
  cases x { s with scope? } with
  | ok b s₁ =>
    constructor
    · intro h
      cases h
      exact ⟨s₁, rfl, rfl⟩
    · rintro ⟨_, h, rfl⟩
      cases h
      rfl
  | error e s₁ => simp

theorem forM_nil_eq_ok {γ : Type} {f : γ → Extract σ PUnit} {a : PUnit} {s s' : Session σ} :
    ([] : List γ).forM f s = .ok a s' ↔ s = s' :=
  pure_eq_ok.trans ⟨And.right, fun h => ⟨rfl, h⟩⟩

/-- One element of a loop, taken off its front. Inductions over declarations visited in order go by this
and by `forM_nil_eq_ok`. -/
theorem forM_cons_eq_ok {γ : Type} {f : γ → Extract σ PUnit} {c : γ} {cs : List γ} {a : PUnit}
    {s s' : Session σ} :
    (c :: cs).forM f s = .ok a s' ↔ ∃ s₁, f c s = .ok ⟨⟩ s₁ ∧ cs.forM f s₁ = .ok a s' := by
  change (f c >>= fun _ => cs.forM f) s = .ok a s' ↔ _
  rw [bind_eq_ok]
  exact ⟨fun ⟨_, s₁, h⟩ => ⟨s₁, h⟩, fun ⟨s₁, h⟩ => ⟨⟨⟩, s₁, h⟩⟩

theorem returns_pure {P : α → Prop} {a : α} (h : P a) : Returns P (pure a : Extract σ α) := by
  intro s b s' hb
  obtain ⟨rfl, _⟩ := pure_eq_ok.1 hb
  exact h

theorem Returns.bind {P : β → Prop} {x : Extract σ α} {f : α → Extract σ β}
    (h : ∀ a, Returns P (f a)) : Returns P (x >>= f) := by
  intro s b s'' hb
  obtain ⟨a, s', _, hf⟩ := bind_eq_ok.1 hb
  exact h a s' b s'' hf

theorem Returns.map {P : β → Prop} {x : Extract σ α} {f : α → β}
    (h : Returns (fun a => P (f a)) x) : Returns P (f <$> x) := by
  intro s b s' hb
  obtain ⟨a, ha, rfl⟩ := map_eq_ok.1 hb
  exact h s a s' ha

/-- What holds of every answer and is kept by later steps holds of all answers of a list of steps,
in the session that the whole list leaves. -/
theorem mapM_forall {γ : Type} {R : Session σ → Session σ → Prop} [IsPreorder (Session σ) R]
    {Q : α → Session σ → Prop} {f : γ → Extract σ α} (hR : ∀ c, Within R (f c))
    (hmono : ∀ a s s', R s s' → Q a s → Q a s') (hf : ∀ c s a s', f c s = .ok a s' → Q a s') :
    ∀ {cs : List γ} {as : List α} {s s' : Session σ}, cs.mapM f s = .ok as s' →
      ∀ a ∈ as, Q a s'
  | [], as, s, s', h => by
    rw [List.mapM_nil, pure_eq_ok] at h
    obtain ⟨rfl, _⟩ := h
    simp
  | c :: cs, as, s, s', h => by
    rw [List.mapM_cons, bind_eq_ok] at h
    obtain ⟨a, s₁, ha, h⟩ := h
    obtain ⟨as', s₂, has, h⟩ := bind_eq_ok.1 h
    obtain ⟨rfl, rfl⟩ := pure_eq_ok.1 h
    intro b hb
    rcases List.mem_cons.1 hb with rfl | hb
    -- The answer of the first step was good in `s₁`; the rest of the list leads from there to `s'`.
    · have hrest : R s₁ s₂ := (Within.mapM fun c' _ => hR c').of_ok has
      exact hmono b _ _ hrest (hf c _ _ _ ha)
    · exact mapM_forall hR hmono hf has b hb

end Extract

end ForeignDecl
