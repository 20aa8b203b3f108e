import ForeignDecl.Proofs.Unit.Shape

/-!
# Recursion along chains that end

Much of what is asked about a type or a declaration is answered by recursion, and computed with a bound on
its depth. What is meant is the recursion without a bound: `Recurs` says that it comes to an answer, with
the finite tree of all the answers that it took. Where chains end, it comes to one answer, and a bound that
the chains keep to does not change it (`IsBounded.recurs_iff`).

There are finitely many handles. So where chains end at all, they keep to a bound that is known in advance
(`Ends.endsWithin`).
-/

set_option autoImplicit false

namespace ForeignDecl

variable {α β : Type} {R R' : α → α → Prop} {n m : Nat} {a b : α}

/-! ## Chains that end -/

/-- No chain of `R` goes on forever from `a`. As a statement about each element by itself this allows a
unit to have a loop somewhere else: what is said about a type need only ask for the chains from that
type. -/
abbrev Ends (R : α → α → Prop) (a : α) : Prop := Acc (fun b a => R a b) a

theorem Ends.next (h : Ends R a) (hab : R a b) : Ends R b := h.inv hab

theorem Ends.of_subrelation (h : Ends R a) (hR : ∀ a b, R' a b → R a b) : Ends R' a :=
  Subrelation.accessible (fun {b a} hab => hR a b hab) h

/-- An element from which chains end is on no loop. -/
theorem Ends.not_transGen (h : Ends R a) : ¬ Relation.TransGen R a a := by
  induction h with
  | intro a _ ih =>
    intro hloop
    -- The way back to `a` leads through its first element back to that element.
    obtain ⟨b, hab, hba⟩ := Relation.TransGen.head'_iff.1 hloop
    exact ih b hab (Relation.TransGen.tail' hba hab)

theorem EndsWithin.ends (h : EndsWithin R n a) : Ends R a := by
  induction h with
  | mk _ ih => exact .intro _ ih

theorem EndsWithin.mono (h : EndsWithin R n a) (hnm : n ≤ m) : EndsWithin R m a := by
  induction h generalizing m with
  | @mk n a _ ih =>
    obtain ⟨k, rfl⟩ : ∃ k, m = k + 1 := ⟨m - 1, by omega⟩
    exact .mk fun b hab => ih b hab (by omega)

section Handles

variable {index : α → Nat} {size : Nat} (hinj : ∀ a b, index a = index b → a = b)
  (hlt : ∀ a b, R a b → index a < size)

include hinj hlt

/-- **Chains that end are at most as long as there are elements.** The elements where chains do not end
are cut off first; on the others nothing leads to itself, and the bound for such relations applies. -/
theorem Ends.endsWithin (h : Ends R a) : EndsWithin R (size + 1) a := by
  -- From elements where chains end, nothing leads to itself.
  have hacyclic : ∀ a, ¬ Relation.TransGen (fun a b => R a b ∧ Ends R a) a a := by
    intro a hloop
    obtain ⟨b, ⟨-, ha⟩, -⟩ := Relation.TransGen.head'_iff.1 hloop
    exact ha.not_transGen (hloop.lift id fun _ _ hab => hab.1)
  have hbounded := endsWithin_of_acyclic hinj (fun a b hab => hlt a b hab.1) hacyclic a
  generalize size + 1 = n at hbounded
  induction hbounded with
  | mk _ ih => exact .mk fun b hab => ih b ⟨hab, h⟩ (h.next hab)

/-- Where nothing leads to itself, all chains end. -/
theorem ends_of_acyclic (hacyclic : ∀ a, ¬ Relation.TransGen R a a) (a : α) : Ends R a :=
  (endsWithin_of_acyclic hinj hlt hacyclic a).ends

end Handles

/-- Nothing leads to itself where everything leads to something smaller. For units at hand, this is how
the absence of loops is shown. -/
theorem not_transGen_of_lt {index : α → Nat} (h : ∀ a b, R a b → index b < index a) (a : α) :
    ¬ Relation.TransGen R a a := by
  have hlt : ∀ {a b}, Relation.TransGen R a b → index b < index a := by
    intro a b hab
    induction hab with
    | single hab => exact h _ _ hab
    | tail _ hbc ih => exact Nat.lt_trans (h _ _ hbc) ih
  exact fun hloop => Nat.lt_irrefl _ (hlt hloop)

/-! ## Recursion -/

/-- Recursion along `R` comes to the answer for `a`, by this step from the answers for what `R` leads
to. The function `f` holds these answers. What it says elsewhere does not matter as long as the step
does not look there (`IsLocal`). -/
inductive Recurs (R : α → α → Prop) (step : (α → β) → α → β) : α → β → Prop where
  | mk {a : α} {f : α → β} (inner : ∀ b, R a b → Recurs R step b (f b)) : Recurs R step a (step f a)

/-- The step looks at nothing else but the answers for what `R` leads to. Two recursions with such a
step agree wherever `R` ends, however many levels either of them was given. -/
def IsLocal (R : α → α → Prop) (step : (α → β) → α → β) : Prop :=
  ∀ {f g : α → β} {a : α}, (∀ b, R a b → f b = g b) → step f a = step g a

/-- `run` is recursion along `R` for at most so many levels. What it says without fuel is left open:
where chains end within the bound, that answer is never used. -/
structure IsBounded (R : α → α → Prop) (step : (α → β) → α → β) (run : Nat → α → β) : Prop where
  succ : ∀ fuel a, run (fuel + 1) a = step (run fuel) a
  isLocal : IsLocal R step

section Recursion

variable {step : (α → β) → α → β} {run : Nat → α → β} {x y : β}

/-- Recursion does not come to two answers. -/
theorem Recurs.unique (hlocal : IsLocal R step) (hx : Recurs R step a x) (hy : Recurs R step a y) :
    x = y := by
  induction hx generalizing y with
  | mk _ ih =>
    cases hy with
    | mk inner => exact hlocal fun b hab => ih b hab (inner b hab)

namespace IsBounded

variable (h : IsBounded R step run)

include h

/-- Computed with enough fuel, the answer is one of the recursion. -/
theorem recurs (hends : EndsWithin R n a) : Recurs R step a (run n a) := by
  induction hends with
  | @mk n a _ ih =>
    rw [h.succ]
    exact .mk ih

/-- **A bound that is not exceeded does not matter.** The computed answer is the only one that the
recursion comes to, so fuel may be left out of what is claimed. -/
theorem recurs_iff (hends : EndsWithin R n a) : Recurs R step a x ↔ x = run n a := by
  constructor
  · exact fun hx => hx.unique h.isLocal (h.recurs hends)
  · rintro rfl
    exact h.recurs hends

/-- One level of the recursion, with no bound in sight. -/
theorem eq_step (hends : EndsWithin R n a) : run n a = step (run n) a := by
  rw [← h.succ]
  exact (h.recurs hends).unique h.isLocal (h.recurs (hends.mono (Nat.le_succ n)))

end IsBounded

end Recursion

end ForeignDecl
