import Mathlib.Data.Finset.Card
import Mathlib.Data.List.Perm.Subperm
import Mathlib.Logic.Relation
import Mathlib.Tactic.ByContra
import ForeignDecl.Unit.Basic

/-!
# The shape of a unit

What a front end promises about the declarations of a unit, and what the extraction relies on: no
declaration is inside itself, and an entity without a name is declared once. A relation in which nothing
leads to itself has no long chains (`endsWithin_of_acyclic`), so declarations do not nest deeply.
-/

set_option autoImplicit false

namespace ForeignDecl

/-! ## Chains that end -/

/-- Handles below a bound, none of them twice, are at most as many as the bound. All bounds on
recursions come from this one count. -/
theorem length_le_of_nodup {α : Type} {index : α → Nat} (hinj : ∀ a b, index a = index b → a = b)
    {path : List α} {n : Nat} (hnodup : path.Nodup) (hlt : ∀ a ∈ path, index a < n) :
    path.length ≤ n := by
  have hindex : (path.map index).Nodup := by
    refine List.Pairwise.map _ (fun a b hab heq => hab ?_) hnodup
    exact hinj a b heq
  have hsub : path.map index ⊆ List.range n := by
    intro i hi
    obtain ⟨a, ha, rfl⟩ := List.mem_map.1 hi
    exact List.mem_range.2 (hlt a ha)
  simpa using (List.subperm_of_subset hindex hsub).length_le

/-- Chains of `R` have at most `n` elements from `a` on, `a` included. As an inductive predicate it has
the shape of the recursions that are given `n` as fuel, so an induction on it goes along with them. -/
inductive EndsWithin {α : Type} (R : α → α → Prop) : Nat → α → Prop where
  | mk {n : Nat} {a : α} (next : ∀ b, R a b → EndsWithin R n b) : EndsWithin R (n + 1) a

/-- One element further along there is one less to come. -/
theorem EndsWithin.next {α : Type} {R : α → α → Prop} {n : Nat} {a b : α}
    (h : EndsWithin R (n + 1) a) (hab : R a b) : EndsWithin R n b := by
  cases h with
  | mk next => exact next b hab

section Acyclic

variable {α : Type} {R : α → α → Prop} {index : α → Nat} {size : Nat}
  (hinj : ∀ a b, index a = index b → a = b) (hlt : ∀ a b, R a b → index a < size)
  (hacyclic : ∀ a, ¬ Relation.TransGen R a a)

include hinj hlt hacyclic

/-- The way to an element bounds how long a chain can go on from there: the elements on the way are
distinct, so together they are at most as many as there are. -/
theorem endsWithin_of_path : ∀ (n : Nat) (path : List α) (a : α), path.Nodup →
    (∀ p ∈ path, index p < size) → (∀ p ∈ path, Relation.TransGen R p a) →
      path.length + n = size + 1 → EndsWithin R n a := by
  intro n
  induction n with
  | zero =>
    intro path a hnodup hbelow _ hlen
    have := length_le_of_nodup hinj hnodup hbelow
    omega
  | succ n ih =>
    intro path a hnodup hbelow hway hlen
    -- Were `a` on the way already, it would lead to itself.
    refine .mk fun b hab => ih (a :: path) b ?_ ?_ ?_ ?_
    · exact List.nodup_cons.2 ⟨fun ha => hacyclic a (hway a ha), hnodup⟩
    · intro p hp
      rcases List.mem_cons.1 hp with rfl | hp
      · exact hlt p b hab
      · exact hbelow p hp
    · intro p hp
      rcases List.mem_cons.1 hp with rfl | hp
      · exact .single hab
      · exact (hway p hp).tail hab
    · simp only [List.length_cons]
      omega

/-- **Where no element leads to itself, chains are at most as long as there are elements.** The bound is
what the recursions over types and declarations are given. -/
theorem endsWithin_of_acyclic (a : α) : EndsWithin R (size + 1) a :=
  endsWithin_of_path hinj hlt hacyclic _ [] a List.nodup_nil (by simp) (by simp) (by simp)

end Acyclic

/-! ## Nesting -/

/-- What is declared inside a declaration and visited with it, in source order. -/
def Node.members (n : Node) : List DeclId :=
  match n.kind with
  | .namespaceBlock ms | .linkageBlock ms => ms
  | .record r => r.members
  | _ => []

/-- Two ways to say that a declaration is a record. -/
theorem Node.record?_eq_some {n : Node} {r : RecordNode} :
    n.record? = some r ↔ n.kind = .record r := by
  unfold record?
  split
  · next r' hkind => simp [hkind]
  · next hkind =>
    constructor
    · simp
    · exact fun h => absurd h (hkind r)

namespace TranslationUnit

variable {u : TranslationUnit}

/-- `d` is a namespace, linkage block or record and `m` one of its members. -/
def Contains (u : TranslationUnit) (d m : DeclId) : Prop := m ∈ (u.node d).members

/-- No declaration is inside itself, at any depth. The visit of a unit goes into members as deep as they
go; where this fails it would have to be cut off. -/
def Acyclic (u : TranslationUnit) : Prop := ∀ d, ¬ Relation.TransGen u.Contains d d

/-- Declarations nest at most `n` deep from `d` on, `d` included. The same as `EndsWithin` for this
relation, with the members as a list, as the visit has them. -/
inductive DepthWithin (u : TranslationUnit) : Nat → DeclId → Prop where
  | mk {n : Nat} {d : DeclId} (members : ∀ m ∈ (u.node d).members, DepthWithin u n m) :
    DepthWithin u (n + 1) d

/-- A member is one level further down. -/
theorem DepthWithin.member {n : Nat} {d m : DeclId} (h : u.DepthWithin (n + 1) d)
    (hm : m ∈ (u.node d).members) : u.DepthWithin n m := by
  cases h with
  | mk members => exact members m hm

/-- A handle that was never issued leads nowhere. -/
theorem lt_size_of_node {d : DeclId} (h : u.node d ≠ default) : d.index < u.nodes.size := by
  by_contra hge
  exact h (by simp [node, Array.getD, hge])

/-- So a handle that was never issued has no members, and only declarations of the unit nest. -/
theorem lt_size_of_contains {d m : DeclId} (h : u.Contains d m) : d.index < u.nodes.size := by
  refine lt_size_of_node fun hd => ?_
  have hnil : (u.node d).members = [] := by rw [hd]; rfl
  rw [Contains, hnil] at h
  simp at h

theorem DeclId.index_inj (a b : DeclId) (h : a.index = b.index) : a = b := by
  cases a
  cases b
  exact congrArg DeclId.mk h

theorem TypeId.index_inj (a b : TypeId) (h : a.index = b.index) : a = b := by
  cases a
  cases b
  exact congrArg TypeId.mk h

/-- A bound on chains of members is a bound on the depth. -/
theorem depthWithin_of_endsWithin {n : Nat} {d : DeclId} (h : EndsWithin u.Contains n d) :
    u.DepthWithin n d := by
  induction h with
  | mk _ ih => exact .mk ih

/-- **Declarations nest at most as deep as there are declarations.** -/
theorem Acyclic.depthWithin (h : u.Acyclic) (d : DeclId) : u.DepthWithin (u.nodes.size + 1) d :=
  depthWithin_of_endsWithin
    (endsWithin_of_acyclic DeclId.index_inj (fun _ _ => lt_size_of_contains) h d)

/-- In a unit that lists every container before its members, no declaration is inside itself. Units at
hand are checked in this way, by deciding a condition on each declaration. -/
theorem acyclic_of_members_lt
    (h : ∀ i < u.nodes.size, ∀ m ∈ (u.node ⟨i⟩).members, i < m.index) : u.Acyclic := by
  have hlt : ∀ d m, Relation.TransGen u.Contains d m → d.index < m.index := by
    intro d m hdm
    induction hdm with
    | single hcontains => exact h _ (lt_size_of_contains hcontains) _ hcontains
    | tail _ hcontains ih =>
      exact Nat.lt_trans ih (h _ (lt_size_of_contains hcontains) _ hcontains)
  intro d hd
  exact Nat.lt_irrefl _ (hlt d d hd)

/-! ## Declarations not met yet -/

/-- How many declarations are of entities that were not met. It gets smaller whenever something new is
met, which ends the visit of a unit and the search for what a record is made of; `met` is any decidable
property, as different searches keep different lists. -/
def unmet (u : TranslationUnit) (met : DeclId → Prop) [DecidablePred met] : Nat :=
  ((Finset.range u.nodes.size).filter fun i => ¬ met (u.canonical ⟨i⟩)).card

section Unmet

variable {met met' : DeclId → Prop} [DecidablePred met] [DecidablePred met']

theorem unmet_le_size : u.unmet met ≤ u.nodes.size := by
  have h := Finset.card_filter_le (Finset.range u.nodes.size) fun i => ¬ met (u.canonical ⟨i⟩)
  rw [Finset.card_range] at h
  exact h

theorem unmet_le (h : ∀ c, met c → met' c) : u.unmet met' ≤ u.unmet met := by
  refine Finset.card_le_card fun i hi => ?_
  rw [Finset.mem_filter] at hi ⊢
  exact ⟨hi.1, fun hmet => hi.2 (h _ hmet)⟩

/-- One more declaration was met. It must be one of the unit: a handle that leads nowhere can be met
without an end. -/
theorem unmet_lt (h : ∀ c, met c → met' c) {d : DeclId} (hlt : d.index < u.nodes.size)
    (hnew : ¬ met (u.canonical d)) (hmet : met' (u.canonical d)) : u.unmet met' < u.unmet met := by
  refine Finset.card_lt_card ((Finset.ssubset_iff_of_subset fun i hi => ?_).2 ⟨d.index, ?_, ?_⟩)
  · rw [Finset.mem_filter] at hi ⊢
    exact ⟨hi.1, fun hmet => hi.2 (h _ hmet)⟩
  · rw [Finset.mem_filter]
    exact ⟨Finset.mem_range.2 hlt, hnew⟩
  · rw [Finset.mem_filter]
    exact fun hmem => hmem.2 hmet

end Unmet

/-! ## Records without a name -/

/-- A record that has no name. What a record type refers to counts as a record. -/
def IsUnnamedRecord (u : TranslationUnit) (d : DeclId) : Prop :=
  (u.node d).name = "" ∧ ((u.node d).record?.isSome ∨ ∃ t, u.type t = .record d)

/-- An unnamed record is the only declaration of its entity. A front end has no way to declare it again,
since it would have to be named for that; and its number is found by asking for any declaration of it.
-/
structure UnnamedDeclaredOnce (u : TranslationUnit) : Prop where
  canonical_eq : ∀ d, u.IsUnnamedRecord d → u.canonical d = d
  eq_of_canonical : ∀ d d', u.IsUnnamedRecord d → u.canonical d' = d → d' = d

/-- A unit without redeclarations has none of unnamed records. -/
theorem unnamedDeclaredOnce_of_canonical? (h : ∀ n ∈ u.nodes, n.canonical? = none) :
    u.UnnamedDeclaredOnce := by
  have hcanonical : ∀ d, u.canonical d = d := by
    intro d
    have hnone : (u.node d).canonical? = none := by
      unfold node Array.getD
      split
      · exact h _ (Array.getElem_mem _)
      · rfl
    rw [canonical, hnone, Option.getD_none]
  exact ⟨fun d _ => hcanonical d, fun d d' _ hd' => (hcanonical d').symm.trans hd'⟩

end TranslationUnit

end ForeignDecl
