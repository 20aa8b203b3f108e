import ForeignDecl.Extract.Session
import ForeignDecl.Proofs.Layout.Renumbering

/-!
# Extractions from renumbered units, step by step

Two extractions whose units are equal up to the handles go the same way. Their sessions differ in the
handles that they remember, in the registry, the scope, the queue and what was seen, and in nothing
else. `Mirrors` says so of two steps: from such sessions they come to such sessions, with the same
result or for the same reason. Everything that steps are made of keeps this.

The relation is between two runs and not between the states of one, so the rules for it are proved
here a second time, beside those for `Within` (`Proofs/Extract/Steps.lean`). The names are the same.
-/

set_option autoImplicit false

namespace ForeignDecl

/-! ## Registries and sessions -/

/-- The registry that remembers the renumbered declarations, in the same order. Numbers are positions in
that order, so they stay. -/
def Registry.renumber (ρ : Renumbering) (r : Registry) : Registry :=
  { entities := r.entities.map ρ.decl, classes := r.classes.map ρ.decl }

/-- The session under new handles. The page, the counters and whether anything was written hold none, so
the same session stands for the same text and summary. -/
def Session.renumber {σ : Type} (ρ : Renumbering) (s : Session σ) : Session σ :=
  { s with
    registry := s.registry.renumber ρ
    scope? := s.scope?.map ρ.decl
    seen := s.seen.map ρ.decl
    pending := s.pending.map ρ.decl }

/-- The error without the names and the numbers in its text. Two runs over renumbered units can stop
with messages that differ there: a record without a name is called by its handle. -/
def ExtractError.reason : ExtractError → ExtractError
  | .layout e => .layout e.reason
  | .write e => .write e

namespace Registry

variable {ρ : Renumbering} {u u' : TranslationUnit} (h : IsRenumbering ρ u u') (r : Registry)

include h

/-- A declaration has the number that it had, under its new handle. -/
theorem number_renumber (d : DeclId) : (r.renumber ρ).number u' (ρ.decl d) = r.number u d := by
  unfold number
  rw [h.canonical, renumber, OrderedSet.indexOf?_map]

/-- Registering gives the same number and leaves the renumbered registry. A canonical declaration that
is new on one side is new on the other, since renumbering is injective (`OrderedSet.map_insert`). -/
theorem register_renumber (d? : Option DeclId) :
    (r.renumber ρ).register u' (d?.map ρ.decl) =
      ((r.register u d?).1, (r.register u d?).2.renumber ρ) := by
  cases d? with
  | none => rfl
  | some d =>
    have hinsert : { r.renumber ρ with
        entities := (r.renumber ρ).entities.insert (u'.canonical (ρ.decl d)) } =
          { r with entities := r.entities.insert (u.canonical d) }.renumber ρ := by
      simp only [renumber, h.canonical, OrderedSet.map_insert]
    simp only [register, Option.map_some, hinsert, number_renumber h]

theorem registerClass_renumber (d? : Option DeclId) :
    (r.renumber ρ).registerClass u' (d?.map ρ.decl) =
      ((r.registerClass u d?).1, (r.registerClass u d?).2.renumber ρ) := by
  cases d? with
  | none => rfl
  | some d =>
    have hinsert : { r.renumber ρ with
        classes := (r.renumber ρ).classes.insert (u'.canonical (ρ.decl d)) } =
          { r with classes := r.classes.insert (u.canonical d) }.renumber ρ := by
      simp only [renumber, h.canonical, OrderedSet.map_insert]
    rw [Option.map_some, registerClass, hinsert]
    exact register_renumber h _ (some d)

end Registry

namespace Extract

variable {σ α β γ δ : Type} {ρ : Renumbering}

/-! ## Steps that go the same way -/

/-- The second end is the first one under new handles: the same answer, or an error for the same reason,
and in both cases the renumbered session. Errors are included because a session outlives them. -/
inductive MirroredEnd (ρ : Renumbering) : EStateM.Result ExtractError (Session σ) α →
    EStateM.Result ExtractError (Session σ) α → Prop where
  | ok (a : α) (s : Session σ) : MirroredEnd ρ (.ok a s) (.ok a (s.renumber ρ))
  | error {e e' : ExtractError} (h : e.reason = e'.reason) (s : Session σ) :
    MirroredEnd ρ (.error e s) (.error e' (s.renumber ρ))

theorem MirroredEnd.eq_ok {a : α} {s : Session σ} {r : EStateM.Result ExtractError (Session σ) α}
    (h : MirroredEnd ρ (.ok a s) r) : r = .ok a (s.renumber ρ) := by
  cases h
  rfl

/-- The second step does under the new handles what the first one does under the old ones. The answer is
the same value on both sides, so a step whose answer holds handles is not covered; the only one is
`takePending`, which has a rule of its own. -/
def Mirrors (ρ : Renumbering) (x x' : Extract σ α) : Prop :=
  ∀ s, MirroredEnd ρ (x s) (x' (s.renumber ρ))

/-- The answer must be free of handles. -/
theorem mirrors_pure (a : α) : Mirrors ρ (pure a : Extract σ α) (pure a) := fun s => .ok a s

theorem mirrors_throw {e e' : ExtractError} (h : e.reason = e'.reason) :
    Mirrors ρ (throw e : Extract σ α) (throw e') := fun s => .error h s

/-- A change of the session is mirrored if renumbering can be done before or after it. -/
theorem mirrors_modify {f f' : Session σ → Session σ}
    (h : ∀ s, f' (s.renumber ρ) = (f s).renumber ρ) :
    Mirrors ρ (modify f : Extract σ Unit) (modify f') := by
  intro s
  show MirroredEnd ρ (.ok () (f s)) (.ok () (f' (s.renumber ρ)))
  rw [h]
  exact .ok () (f s)

theorem mirrors_modifyGet {f f' : Session σ → α × Session σ}
    (h : ∀ s, f' (s.renumber ρ) = ((f s).1, (f s).2.renumber ρ)) :
    Mirrors ρ (modifyGet f : Extract σ α) (modifyGet f') := by
  intro s
  show MirroredEnd ρ (.ok (f s).1 (f s).2) (.ok (f' (s.renumber ρ)).1 (f' (s.renumber ρ)).2)
  rw [h]
  exact .ok (f s).1 (f s).2

/-- A step that looks at the session is mirrored where it is for each session. -/
theorem mirrors_get_bind {k k' : Session σ → Extract σ α}
    (h : ∀ s, Mirrors ρ (k s) (k' (s.renumber ρ))) : Mirrors ρ (get >>= k) (get >>= k') :=
  fun s => h s s

namespace Mirrors

variable {x x' y y' : Extract σ α}

/-- Since the answers are equal, the second steps are compared at one answer. -/
theorem bind {k k' : α → Extract σ β} (hx : Mirrors ρ x x') (hk : ∀ a, Mirrors ρ (k a) (k' a)) :
    Mirrors ρ (x >>= k) (x' >>= k') := by
  intro s
  have hs := hx s
  simp only [Bind.bind, EStateM.bind]
  generalize x s = end₁ at hs ⊢
  generalize x' (s.renumber ρ) = end₂ at hs ⊢
  cases hs with
  | ok a s' => exact hk a s'
  | error he s' => exact .error he s'

theorem map (f : α → β) (hx : Mirrors ρ x x') : Mirrors ρ (f <$> x) (f <$> x') := by
  rw [← bind_pure_comp, ← bind_pure_comp]
  exact hx.bind fun a => mirrors_pure (f a)

theorem ite {p p' : Prop} [Decidable p] [Decidable p'] (hp : p' ↔ p) (hx : Mirrors ρ x x')
    (hy : Mirrors ρ y y') : Mirrors ρ (if p then x else y) (if p' then x' else y') := by
  by_cases h : p
  · rw [if_pos h, if_pos (hp.2 h)]
    exact hx
  · rw [if_neg h, if_neg (mt hp.1 h)]
    exact hy

/-- A loop over renumbered things, if each turn is mirrored. `g` is what becomes of the things that are
looped over. -/
theorem mapM {f : γ → Extract σ α} {f' : δ → Extract σ α} {g : γ → δ}
    (h : ∀ c, Mirrors ρ (f c) (f' (g c))) (cs : List γ) :
    Mirrors ρ (cs.mapM f) ((cs.map g).mapM f') := by
  induction cs with
  | nil => exact mirrors_pure []
  | cons c cs ih =>
    rw [List.mapM_cons, List.map_cons, List.mapM_cons]
    exact (h c).bind fun _ => ih.bind fun _ => mirrors_pure _

theorem forM {f : γ → Extract σ Unit} {f' : δ → Extract σ Unit} {g : γ → δ}
    (h : ∀ c, Mirrors ρ (f c) (f' (g c))) (cs : List γ) :
    Mirrors ρ (cs.forM f) ((cs.map g).forM f') := by
  induction cs with
  | nil => exact mirrors_pure ()
  | cons c cs ih => exact (h c).bind fun _ => ih

/-- The scope that is set is the renumbered one, and so is the scope that is put back. -/
theorem inScope (scope? : Option DeclId) (hx : Mirrors ρ x x') :
    Mirrors ρ (inScope scope? x) (inScope (scope?.map ρ.decl) x') := by
  intro s
  have hs : MirroredEnd ρ (x { s with scope? })
      (x' { s.renumber ρ with scope? := scope?.map ρ.decl }) := hx { s with scope? }
  unfold Extract.inScope
  generalize x _ = end₁ at hs ⊢
  generalize x' _ = end₂ at hs ⊢
  cases hs with
  | ok a s' => exact .ok a { s' with scope? := s.scope? }
  | error he s' => exact .error he { s' with scope? := s.scope? }

end Mirrors

/-- The writer sees the page and the entry, and both are the same. -/
theorem send_mirrors (emit : Emit σ α) : Mirrors ρ (send emit) (send emit) := by
  intro s
  unfold send
  rw [show (s.renumber ρ).page = s.page from rfl]
  cases emit s.page with
  | ok a page => exact .ok a { s with page }
  | error e page => exact .error rfl { s with page }

/-- An error of the layout carries its reason into the error of the step. -/
theorem refusal_mirrors {e e' : LayoutError} (h : e.reason = e'.reason) :
    Mirrors ρ (throw (.layout e) : Extract σ α) (throw (.layout e')) :=
  mirrors_throw (congrArg ExtractError.layout h)

/-- Questions that are answered alike are mirrored. -/
theorem ask_mirrors {answer answer' : Except LayoutError α} (h : Layout.Alike id answer answer') :
    Mirrors ρ (ask answer : Extract σ α) (ask answer') := by
  cases h with
  | ok h => exact h ▸ mirrors_pure _
  | error h => exact refusal_mirrors h

theorem count_mirrors (f : Summary → Summary) : Mirrors ρ (count f : Extract σ Unit) (count f) :=
  mirrors_modify fun _ => rfl

end Extract

/-! ## Contexts -/

/-- The same work under new handles: the renumbered unit, an oracle that answers alike, and the same
writer. For natural layout the second follows from the first (`Layout.natural_alike`). -/
structure Context.Mirrors {σ : Type} (ρ : Renumbering) (ctx ctx' : Context σ) : Prop where
  unit : IsRenumbering ρ ctx.unit ctx'.unit
  oracle : ctx.oracle.Alike ρ ctx'.oracle
  writer : ctx'.writer = ctx.writer

namespace Extract

variable {σ : Type} {ρ : Renumbering} {ctx ctx' : Context σ} (h : ctx.Mirrors ρ ctx')

include h

/-- The primitive steps that touch the registry, the marks and the queue. They are where the handles of
a session are read and written, and the only steps whose mirroring needs the renumbering of the unit. -/
theorem register_mirrors (d? : Option DeclId) :
    Mirrors ρ (register ctx d?) (register ctx' (d?.map ρ.decl)) := by
  refine mirrors_modifyGet fun s => ?_
  rw [show (s.renumber ρ).registry = s.registry.renumber ρ from rfl,
    Registry.register_renumber h.unit]
  rfl

theorem registerClass_mirrors (d? : Option DeclId) :
    Mirrors ρ (registerClass ctx d?) (registerClass ctx' (d?.map ρ.decl)) := by
  refine mirrors_modifyGet fun s => ?_
  rw [show (s.renumber ρ).registry = s.registry.renumber ρ from rfl,
    Registry.registerClass_renumber h.unit]
  rfl

theorem markSeen_mirrors (d : DeclId) : Mirrors ρ (markSeen ctx d) (markSeen ctx' (ρ.decl d)) := by
  refine mirrors_modify fun s => ?_
  simp only [Session.renumber, h.unit.canonical, OrderedSet.map_insert]

/-- A declaration was seen if its canonical declaration is in the set, and both are renumbered. -/
theorem seen_renumber_iff (s : Session σ) (d : DeclId) :
    ctx'.unit.canonical (ρ.decl d) ∈ (s.renumber ρ).seen ↔ ctx.unit.canonical d ∈ s.seen := by
  rw [h.unit.canonical]
  exact OrderedSet.mem_map

/-- A record that was seen is left out of both queues. -/
theorem enqueue_mirrors (d : DeclId) : Mirrors ρ (enqueue ctx d) (enqueue ctx' (ρ.decl d)) := by
  refine mirrors_modify fun s => ?_
  have hseen := seen_renumber_iff h s d
  dsimp only
  by_cases hmem : ctx.unit.canonical d ∈ s.seen
  · rw [if_pos hmem, if_pos (hseen.2 hmem)]
  · rw [if_neg hmem, if_neg (mt hseen.1 hmem)]
    simp only [Session.renumber, h.unit.canonical, OrderedSet.map_insert]

end Extract

end ForeignDecl
