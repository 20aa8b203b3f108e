import ForeignDecl.Proofs.Unit.Shape

/-!
# Looking through names

What a type is once sugar, typedefs and aliases are looked through is computed with a bound on the
number of steps. A chain of names that ends cannot pass one type twice, because every type names at
most one other. So the bound is never in the way: `resolve` finds a record exactly when the chain ends
in one (`resolve_eq_record_iff`).
-/

set_option autoImplicit false

namespace ForeignDecl

namespace TranslationUnit

variable {u : TranslationUnit} {t t' t'' : TypeId} {d : DeclId} {n m : Nat}

/-- `t` is another name of `t'`. Sugar counts as a name: it can stand before and behind each typedef, so
the chain has to be followed through both. -/
inductive Names (u : TranslationUnit) (t t' : TypeId) : Prop where
  | elaborated (h : u.type t = .elaborated t')
  | paren (h : u.type t = .paren t')
  | typedef {x : DeclId} (h : u.type t = .typedef x) (halias : (u.node x).aliased? = some t')

/-- `n` names lead from a type to the record `d`. The number of names is kept, as that is what makes the
types on a chain distinct and what the bounds are compared with. -/
inductive LeadsTo (u : TranslationUnit) (d : DeclId) : Nat → TypeId → Prop where
  | here {t : TypeId} (h : u.type t = .record d) : LeadsTo u d 0 t
  | through {n : Nat} {t t' : TypeId} (h : u.Names t t') (rest : LeadsTo u d n t') :
    LeadsTo u d (n + 1) t

/-- Through sugar, typedefs and aliases, `t` is the record `d`. This is what the extraction means by the
record of a type, with no bound in it. -/
def NamesRecord (u : TranslationUnit) (t : TypeId) (d : DeclId) : Prop := ∃ n, u.LeadsTo d n t

/-! ## Chains do not repeat -/

/-- A type is a name of at most one other type. -/
theorem Names.unique (h : u.Names t t') (h' : u.Names t t'') : t' = t'' := by
  cases h <;> cases h' <;> simp_all

theorem Names.not_record (h : u.Names t t') : u.type t ≠ .record d := by
  cases h <;> simp_all

/-- A type is a name of at most one other, so from each there is one way to the end, and its length is
known. -/
theorem LeadsTo.length_unique (h : u.LeadsTo d n t) (h' : u.LeadsTo d m t) : n = m := by
  induction h generalizing m with
  | here h =>
    cases h' with
    | here => rfl
    | through hnames _ => exact absurd h hnames.not_record
  | through hnames _ ih =>
    cases h' with
    | here h => exact absurd h hnames.not_record
    | through hnames' rest =>
      obtain rfl := hnames.unique hnames'
      exact congrArg (· + 1) (ih rest)

/-- A handle that was never issued names nothing. -/
theorem Names.lt_size (h : u.Names t t') : t.index < u.types.size := by
  by_contra hge
  have ht : u.type t = .unsupported "" := by simp [type, Array.getD, hge]
  cases h <;> simp_all

/-- All types on a chain are types of the unit. -/
theorem LeadsTo.lt_size (h : u.LeadsTo d n t) : t.index < u.types.size := by
  cases h with
  | through hnames _ => exact hnames.lt_size
  | here h =>
    by_contra hge
    have ht : u.type t = .unsupported "" := by simp [type, Array.getD, hge]
    rw [ht] at h
    cases h

/-- The types on a chain are distinct, since each is another number of names away from the end. -/
theorem LeadsTo.exists_path (h : u.LeadsTo d n t) :
    ∃ path : List TypeId, path.length = n + 1 ∧ path.Nodup ∧
      ∀ p ∈ path, p.index < u.types.size ∧ ∃ m ≤ n, u.LeadsTo d m p := by
  induction h with
  | @here t h =>
    refine ⟨[t], rfl, by simp, fun p hp => ?_⟩
    obtain rfl := List.mem_singleton.1 hp
    exact ⟨(LeadsTo.here h).lt_size, 0, Nat.le_refl 0, .here h⟩
  | @through n t t' hnames rest ih =>
    obtain ⟨path, hlength, hnodup, hpath⟩ := ih
    have hchain : u.LeadsTo d (n + 1) t := .through hnames rest
    refine ⟨t :: path, by simp [hlength], List.nodup_cons.2 ⟨fun ht => ?_, hnodup⟩, fun p hp => ?_⟩
    -- Further along, `t` would be closer to the end than it is.
    · obtain ⟨_, m, hm, hlead⟩ := hpath t ht
      have := hchain.length_unique hlead
      omega
    · rcases List.mem_cons.1 hp with rfl | hp
      · exact ⟨hchain.lt_size, n + 1, Nat.le_refl _, hchain⟩
      · obtain ⟨hlt, m, hm, hlead⟩ := hpath p hp
        exact ⟨hlt, m, by omega, hlead⟩

/-- A chain to a record is not longer than the bound. -/
theorem LeadsTo.le_budget (h : u.LeadsTo d n t) : n ≤ u.typeBudget := by
  obtain ⟨path, hlength, hnodup, hpath⟩ := h.exists_path
  have := length_le_of_nodup TypeId.index_inj hnodup fun p hp => (hpath p hp).1
  rw [typeBudget]
  omega

/-! ## The bounded search finds the end -/

/-- Stripping sugar goes along the chain, up to a type that is no sugar. It is bounded on its own, and
its bound is asked to hold the whole chain, since all of it may be sugar. -/
theorem LeadsTo.desugarWithin {k : Nat} (h : u.LeadsTo d n t) (hk : n ≤ k) :
    ∃ m ≤ n, u.LeadsTo d m (u.desugarWithin k t) ∧
      ∀ inner, u.type (u.desugarWithin k t) ≠ .elaborated inner ∧
        u.type (u.desugarWithin k t) ≠ .paren inner := by
  induction k generalizing n t with
  | zero =>
    obtain rfl : n = 0 := by omega
    cases h with
    | here h =>
      refine ⟨0, Nat.le_refl 0, .here h, fun inner => ?_⟩
      simp [TranslationUnit.desugarWithin, h]
  | succ k ih =>
    cases h with
    | here h =>
      refine ⟨0, Nat.le_refl 0, ?_⟩
      simp only [TranslationUnit.desugarWithin, h]
      exact ⟨.here h, by simp⟩
    | @through n _ t' hnames rest =>
      have hsugar : (∃ m ≤ n, u.LeadsTo d m (u.desugarWithin k t') ∧
          ∀ inner, u.type (u.desugarWithin k t') ≠ .elaborated inner ∧
            u.type (u.desugarWithin k t') ≠ .paren inner) := ih rest (by omega)
      cases hnames with
      | elaborated h =>
        obtain ⟨m, hm, hrest⟩ := hsugar
        simp only [TranslationUnit.desugarWithin, h]
        exact ⟨m, by omega, hrest⟩
      | paren h =>
        obtain ⟨m, hm, hrest⟩ := hsugar
        simp only [TranslationUnit.desugarWithin, h]
        exact ⟨m, by omega, hrest⟩
      | typedef h halias =>
        -- A typedef is no sugar, so stripping stops here.
        refine ⟨n + 1, Nat.le_refl _, ?_⟩
        simp only [TranslationUnit.desugarWithin, h]
        exact ⟨.through (.typedef h halias) rest, by simp⟩

/-- Looking through typedefs, with the sugar before each of them stripped, gets to the record at the
end. Each round goes along one name at least, so the number of names is fuel enough. -/
theorem LeadsTo.resolveWithin {fuel : Nat} (h : u.LeadsTo d n t) (hfuel : n ≤ fuel) :
    u.resolveWithin fuel t = .record d := by
  induction fuel generalizing n t with
  | zero =>
    obtain rfl : n = 0 := by omega
    cases h with
    | here h => exact h
  | succ fuel ih =>
    obtain ⟨m, hm, hlead, hsugar⟩ := h.desugarWithin h.le_budget
    change u.LeadsTo d m (u.desugar t) at hlead
    unfold TranslationUnit.resolveWithin
    -- Without sugar, what is left is the end or a typedef.
    cases hlead with
    | here h => rw [h]
    | through hnames rest =>
      cases hnames with
      | elaborated h => exact absurd h (hsugar _).1
      | paren h => exact absurd h (hsugar _).2
      | typedef h halias =>
        rw [h]
        simp only [halias]
        exact ih rest (by omega)

/-- What the bounded search finds is there. -/
theorem leadsTo_of_desugarWithin {k : Nat} (h : u.LeadsTo d n (u.desugarWithin k t)) :
    u.NamesRecord t d := by
  induction k generalizing t with
  | zero => exact ⟨n, h⟩
  | succ k ih =>
    unfold TranslationUnit.desugarWithin at h
    split at h
    · next inner hinner =>
      obtain ⟨m, hm⟩ := ih h
      exact ⟨m + 1, .through (.elaborated hinner) hm⟩
    · next inner hinner =>
      obtain ⟨m, hm⟩ := ih h
      exact ⟨m + 1, .through (.paren hinner) hm⟩
    · exact ⟨n, h⟩

/-- What looking through typedefs finds is there as well: the same steps, read backwards. -/
theorem namesRecord_of_resolveWithin {fuel : Nat} (h : u.resolveWithin fuel t = .record d) :
    u.NamesRecord t d := by
  induction fuel generalizing t with
  | zero => exact ⟨0, .here h⟩
  | succ fuel ih =>
    unfold TranslationUnit.resolveWithin at h
    split at h
    · next x hx =>
      split at h
      · next underlying halias =>
        obtain ⟨m, hm⟩ := ih h
        exact leadsTo_of_desugarWithin (LeadsTo.through (.typedef hx halias) hm)
      · cases h
    · exact leadsTo_of_desugarWithin (LeadsTo.here h)

/-- **The bound on the search is never in the way.** A chain of names without an end leads to no record,
and the search does not make one up. -/
theorem resolve_eq_record_iff : u.resolve t = .record d ↔ u.NamesRecord t d := by
  constructor
  · exact namesRecord_of_resolveWithin
  · rintro ⟨n, h⟩
    exact h.resolveWithin h.le_budget

end TranslationUnit

end ForeignDecl
