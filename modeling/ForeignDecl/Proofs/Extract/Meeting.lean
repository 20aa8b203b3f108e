import Mathlib.Data.Nat.Find
import ForeignDecl.Proofs.Extract.Visiting
import ForeignDecl.Proofs.Unit.Shape

/-!
# What is met

Handling the top level of a unit meets declarations: those that stand there, and the members of a declaration
that is met. `Meets` says so from the inside out, with the scope, and `MeetsFrom` from the outside in, as a
walk goes, with a bound on how many declarations may be around each other. The bound of the walk is never in
the way: what is met at all is met on a way without detours, which passes no declaration twice
(`Meets.exists_meetsFrom`).
-/

set_option autoImplicit false

namespace ForeignDecl.TranslationUnit

variable {u : TranslationUnit} {scope? inner? : Option DeclId} {ds : List DeclId} {d m : DeclId}
  {n k : Nat}

/-- `d` is valid, and it is met in the scope `scope?`: at top level, or inside a declaration that is
met. -/
inductive Meets (u : TranslationUnit) : Option DeclId → DeclId → Prop where
  | top {d : DeclId} (hd : d ∈ u.topLevel) (hvalid : (u.node d).isInvalid = false) : Meets u none d
  | member {scope? : Option DeclId} {d m : DeclId} (outer : Meets u scope? d)
    (hm : m ∈ (u.node d).members) (hvalid : (u.node m).isInvalid = false) :
    Meets u (u.innerScope scope? d) m

theorem Meets.valid (h : u.Meets scope? d) : (u.node d).isInvalid = false := by
  cases h with
  | top _ hvalid => exact hvalid
  | member _ _ hvalid => exact hvalid

/-! ## From the outside in -/

/-- Handling `ds` in the scope `scope?`, with less than `n` declarations around each other, meets the valid
declaration `d` in the scope `inner?`. -/
inductive MeetsFrom (u : TranslationUnit) :
    Nat → Option DeclId → List DeclId → Option DeclId → DeclId → Prop where
  | here {n : Nat} {scope? : Option DeclId} {ds : List DeclId} {d : DeclId} (hd : d ∈ ds)
    (hvalid : (u.node d).isInvalid = false) : MeetsFrom u (n + 1) scope? ds scope? d
  | inside {n : Nat} {scope? inner? : Option DeclId} {ds : List DeclId} {d m : DeclId} (hd : d ∈ ds)
    (hvalid : (u.node d).isInvalid = false)
    (inner : MeetsFrom u n (u.innerScope scope? d) (u.node d).members inner? m) :
    MeetsFrom u (n + 1) scope? ds inner? m

namespace MeetsFrom

/-- With more room around each other, no less is met. -/
theorem mono (h : u.MeetsFrom n scope? ds inner? d) (hn : n ≤ k) : u.MeetsFrom k scope? ds inner? d := by
  induction h generalizing k with
  | here hd hvalid =>
    obtain ⟨k, rfl⟩ := Nat.exists_eq_add_of_le' hn
    exact .here hd hvalid
  | inside hd hvalid _ ih =>
    obtain ⟨k, rfl⟩ := Nat.exists_eq_add_of_le' hn
    exact .inside hd hvalid (ih (Nat.le_add_left _ k))

/-- What is met from a list is its first element, or met in that, or met from the others. -/
theorem of_cons (h : u.MeetsFrom (n + 1) scope? (d :: ds) inner? m) :
    ((inner? = scope? ∧ m = d) ∧ (u.node d).isInvalid = false) ∨
      ((u.node d).isInvalid = false ∧
        u.MeetsFrom n (u.innerScope scope? d) (u.node d).members inner? m) ∨
      u.MeetsFrom (n + 1) scope? ds inner? m := by
  cases h with
  | here hm hvalid =>
    rcases List.mem_cons.1 hm with rfl | hm
    · exact .inl ⟨⟨rfl, rfl⟩, hvalid⟩
    · exact .inr (.inr (.here hm hvalid))
  | inside hm hvalid inner =>
    rcases List.mem_cons.1 hm with rfl | hm
    · exact .inr (.inl ⟨hvalid, inner⟩)
    · exact .inr (.inr (.inside hm hvalid inner))

/-- The members of what is met are met, one level further in. -/
theorem member (h : u.MeetsFrom n scope? ds inner? d) (hm : m ∈ (u.node d).members)
    (hvalid : (u.node m).isInvalid = false) :
    u.MeetsFrom (n + 1) scope? ds (u.innerScope inner? d) m := by
  induction h with
  | here hd hvalid' => exact .inside hd hvalid' (.here hm hvalid)
  | inside hd hvalid' _ ih => exact .inside hd hvalid' (ih hm)

end MeetsFrom

/-! ## Ways without detours -/

/-- `d` is met with `n` declarations around it, in whatever scope. -/
inductive MetBelow (u : TranslationUnit) : Nat → DeclId → Prop where
  | top {d : DeclId} (hd : d ∈ u.topLevel) (hvalid : (u.node d).isInvalid = false) : MetBelow u 0 d
  | member {n : Nat} {d m : DeclId} (outer : MetBelow u n d) (hm : m ∈ (u.node d).members)
    (hvalid : (u.node m).isInvalid = false) : MetBelow u (n + 1) m

/-- What is met is met at some depth. -/
theorem Meets.exists_metBelow (h : u.Meets scope? d) : ∃ n, u.MetBelow n d := by
  induction h with
  | top hd hvalid => exact ⟨0, .top hd hvalid⟩
  | member _ hm hvalid ih =>
    obtain ⟨n, hn⟩ := ih
    exact ⟨n + 1, hn.member hm hvalid⟩

/-- What is met at a depth is met from the outside in, with one more than that for the declaration
itself. The scope may be another one, as there can be several ways to a declaration. -/
theorem MetBelow.exists_meetsFrom (h : u.MetBelow n d) :
    ∃ scope?, u.MeetsFrom (n + 1) none u.topLevel.toList scope? d := by
  induction h with
  | top hd hvalid => exact ⟨none, .here (by simpa using hd) hvalid⟩
  | member _ hm hvalid ih =>
    obtain ⟨scope?, hscope⟩ := ih
    exact ⟨_, hscope.member hm hvalid⟩

/-- `n` declarations are around `d` on the shortest way to it. -/
def FirstMetBelow (u : TranslationUnit) (n : Nat) (d : DeclId) : Prop :=
  u.MetBelow n d ∧ ∀ k < n, ¬ u.MetBelow k d

theorem FirstMetBelow.unique (h : u.FirstMetBelow n d) (h' : u.FirstMetBelow k d) : n = k :=
  Nat.le_antisymm (Nat.le_of_not_lt fun hlt => h.2 k hlt h'.1)
    (Nat.le_of_not_lt fun hlt => h'.2 n hlt h.1)

/-- The declarations on a shortest way are distinct, since each is first met at another depth. By
induction on the depth; the way to a declaration is the way to the one around it, and that one. -/
theorem FirstMetBelow.exists_path (h : u.FirstMetBelow n d) :
    ∃ path : List DeclId, path.length = n ∧ path.Nodup ∧
      ∀ p ∈ path, p.index < u.nodes.size ∧ ∃ k < n, u.FirstMetBelow k p := by
  induction n generalizing d with
  | zero => exact ⟨[], rfl, List.nodup_nil, by simp⟩
  | succ n ih =>
    obtain ⟨hmet, hleast⟩ := h
    cases hmet with
    | @member _ c _ outer hm hvalid =>
      -- A shorter way to `c` would be the beginning of a shorter way to `d`.
      have hc : u.FirstMetBelow n c :=
        ⟨outer, fun k hk hmet => hleast (k + 1) (by omega) (hmet.member hm hvalid)⟩
      obtain ⟨path, hlength, hnodup, hpath⟩ := ih hc
      refine ⟨c :: path, by simp [hlength], List.nodup_cons.2 ⟨fun hmem => ?_, hnodup⟩,
        fun p hp => ?_⟩
      · obtain ⟨_, k, hk, hfirst⟩ := hpath c hmem
        have := hc.unique hfirst
        omega
      · rcases List.mem_cons.1 hp with rfl | hp
        · exact ⟨lt_size_of_contains hm, n, by omega, hc⟩
        · obtain ⟨hlt, k, hk, hfirst⟩ := hpath p hp
          exact ⟨hlt, k, by omega, hfirst⟩

open Classical in
/-- **What is met at all is met within the bound of a walk**, though maybe in another scope. -/
theorem Meets.exists_meetsFrom (h : u.Meets scope? d) :
    ∃ scope?, u.MeetsFrom (u.nodes.size + 1) none u.topLevel.toList scope? d := by
  have hfirst : u.FirstMetBelow (Nat.find h.exists_metBelow) d :=
    ⟨Nat.find_spec h.exists_metBelow, fun _ hk => Nat.find_min h.exists_metBelow hk⟩
  obtain ⟨path, hlength, hnodup, hpath⟩ := hfirst.exists_path
  -- As many distinct handles as that are all in the table, so the way is no longer than it.
  have hbound := length_le_of_nodup DeclId.index_inj hnodup fun p hp => (hpath p hp).1
  obtain ⟨scope?, hscope⟩ := hfirst.1.exists_meetsFrom
  exact ⟨scope?, hscope.mono (by omega)⟩

end ForeignDecl.TranslationUnit
