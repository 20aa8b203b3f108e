import Mathlib.Order.Defs.Unbundled
import ForeignDecl.Proofs.OrderedSet
import ForeignDecl.Registry

/-!
# Numbers are given once

A number is a position in the list of registered entities, counted from one (`number_eq_succ_iff`),
and that list only grows at its end (`Registry.Grows`). So a number, once given, is never changed
and never given again: it may be written into a document long before the entity it stands for.
-/

set_option autoImplicit false

namespace ForeignDecl

/-! ## Growth -/

namespace Registry

variable {r r₁ r₂ r₃ : Registry} {u : TranslationUnit} {d d' : DeclId}

/-- `r₂` is `r₁` with entities registered behind those of `r₁`. Whatever the extraction does to its
registry is of this kind. -/
structure Grows (r₁ r₂ : Registry) : Prop where
  entities : r₁.entities.toList <+: r₂.entities.toList
  classes : r₁.classes.toList <+: r₂.classes.toList

theorem Grows.rfl : r.Grows r := ⟨List.prefix_rfl, List.prefix_rfl⟩

theorem Grows.trans (h : r₁.Grows r₂) (h' : r₂.Grows r₃) : r₁.Grows r₃ :=
  ⟨h.entities.trans h'.entities, h.classes.trans h'.classes⟩

instance : IsPreorder Registry Grows where
  refl _ := .rfl
  trans _ _ _ := .trans

theorem register_grows (r : Registry) (u : TranslationUnit) (d? : Option DeclId) :
    r.Grows (r.register u d?).2 := by
  cases d? with
  | none => exact .rfl
  | some d => exact ⟨r.entities.prefix_insert _, List.prefix_rfl⟩

theorem registerClass_grows (r : Registry) (u : TranslationUnit) (d? : Option DeclId) :
    r.Grows (r.registerClass u d?).2 := by
  cases d? with
  | none => exact .rfl
  | some d => exact ⟨r.entities.prefix_insert _, r.classes.prefix_insert _⟩

/-! ## What a number stands for -/

/-- A number other than zero is a position, counted from one. -/
theorem number_eq_succ_iff {i : Nat} :
    r.number u d = i + 1 ↔ r.entities.toList[i]? = some (u.canonical d) := by
  rw [← OrderedSet.indexOf?_eq_some_iff, number]
  cases r.entities.indexOf? (u.canonical d) <;> simp [globalScope]

/-- Exactly what is registered has a number other than zero. -/
theorem number_pos_iff : 0 < r.number u d ↔ u.canonical d ∈ r.entities := by
  rw [← OrderedSet.indexOf?_isSome_iff, number]
  cases r.entities.indexOf? (u.canonical d) <;> simp [globalScope]

/-- Two declarations that share a number are declarations of one entity. -/
theorem canonical_eq_of_number_eq (hpos : 0 < r.number u d) (h : r.number u d = r.number u d') :
    u.canonical d = u.canonical d' := by
  obtain ⟨i, hi⟩ : ∃ i, r.number u d = i + 1 := ⟨r.number u d - 1, by omega⟩
  have hd := number_eq_succ_iff.1 hi
  have hd' := number_eq_succ_iff.1 (h ▸ hi)
  exact Option.some.inj (hd.symm.trans hd')

/-- **A number is never changed**, whatever is registered later. -/
theorem Grows.number_eq (h : r₁.Grows r₂) (hpos : 0 < r₁.number u d) :
    r₂.number u d = r₁.number u d := by
  obtain ⟨i, hi⟩ : ∃ i, r₁.number u d = i + 1 := ⟨r₁.number u d - 1, by omega⟩
  rw [hi]
  have hget := number_eq_succ_iff.1 hi
  obtain ⟨later, hlater⟩ := h.entities
  rw [number_eq_succ_iff, ← hlater, List.getElem?_append_left (List.getElem?_eq_some_iff.1 hget).1]
  exact hget

theorem register_pos (r : Registry) (u : TranslationUnit) (d : DeclId) :
    0 < (r.register u (some d)).2.number u d :=
  number_pos_iff.2 (OrderedSet.mem_insert_self _ _)

theorem registerClass_pos (r : Registry) (u : TranslationUnit) (d : DeclId) :
    0 < (r.registerClass u (some d)).2.number u d :=
  number_pos_iff.2 (OrderedSet.mem_insert_self _ _)

/-! ## Scopes -/

/-- The number of a scope, zero for the global one. What is in no scope is written with this number as
well. -/
def scopeNumber (r : Registry) (u : TranslationUnit) : Option DeclId → Nat
  | none => globalScope
  | some d => r.number u d

/-- The number of a scope that was registered is never changed. -/
theorem Grows.scopeNumber_eq {scope? : Option DeclId} (h : (r.register u scope?).2.Grows r₂) :
    r₂.scopeNumber u scope? = (r.register u scope?).1 := by
  cases scope? with
  | none => rfl
  | some d => exact h.number_eq (r.register_pos u d)

end Registry

end ForeignDecl
