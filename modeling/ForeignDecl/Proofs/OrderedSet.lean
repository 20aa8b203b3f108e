import Mathlib.Data.List.Nodup
import Mathlib.Logic.Equiv.Defs
import ForeignDecl.OrderedSet

/-!
# Laws of ordered sets

A set grows at its end only, and the place of an element is the one it has in the list. Exchanging the
elements for others, one for one, exchanges them in the list and nothing else (`OrderedSet.map`).
-/

set_option autoImplicit false

namespace ForeignDecl

namespace OrderedSet

variable {α : Type} [DecidableEq α]

/-- A set keeps its list and grows at the end, if at all. That is why positions can be numbers. -/
theorem prefix_insert (s : OrderedSet α) (a : α) : s.toList <+: (s.insert a).toList := by
  rw [toList_insert]
  split
  · exact List.prefix_rfl
  · exact List.prefix_append _ _

theorem mem_insert_self (s : OrderedSet α) (a : α) : a ∈ s.insert a := mem_insert.2 (.inr rfl)

theorem mem_insert_of_mem {s : OrderedSet α} {a b : α} (h : a ∈ s) : a ∈ s.insert b :=
  mem_insert.2 (.inl h)

omit [DecidableEq α] in
@[simp]
theorem not_mem_empty (a : α) : a ∉ (∅ : OrderedSet α) := by
  simp [mem_def, EmptyCollection.emptyCollection, empty]

/-- The position of an element is where it stands, as it stands in one place only. -/
theorem indexOf?_eq_some_iff {s : OrderedSet α} {a : α} {i : Nat} :
    s.indexOf? a = some i ↔ s.toList[i]? = some a := by
  rw [indexOf?, List.idxOf?_eq_some_iff]
  constructor
  · rintro ⟨hi, rfl, _⟩
    exact List.getElem?_eq_getElem hi
  · intro h
    obtain ⟨hi, rfl⟩ := List.getElem?_eq_some_iff.1 h
    refine ⟨hi, rfl, fun j hj heq => ?_⟩
    exact Nat.ne_of_lt hj ((List.getElem_inj s.nodup).1 heq)

theorem indexOf?_isSome_iff {s : OrderedSet α} {a : α} : (s.indexOf? a).isSome ↔ a ∈ s := by
  rw [indexOf?, List.isSome_idxOf?, mem_def]

end OrderedSet

/-! ## Other elements -/

/-- The set with every element exchanged for another one. It takes an equivalence, as two elements must not
become one. -/
def OrderedSet.map {α β : Type} (f : α ≃ β) (s : OrderedSet α) : OrderedSet β :=
  ⟨s.toList.map f, s.nodup.map f.injective⟩

namespace OrderedSet

section Map

variable {α β : Type} (f : α ≃ β) (s : OrderedSet α)

@[simp]
theorem toList_map : (s.map f).toList = s.toList.map f := rfl

variable {f s}

@[simp]
theorem mem_map {a : α} : f a ∈ s.map f ↔ a ∈ s := by simp [mem_def]

variable (f s) [DecidableEq α] [DecidableEq β]

/-- It makes no difference whether an element is inserted first and then exchanged. -/
theorem map_insert (a : α) : (s.insert a).map f = (s.map f).insert (f a) := by
  by_cases ha : a ∈ s
  · rw [insert, dif_pos ha, insert, dif_pos (mem_map.2 ha)]
  · rw [insert, dif_neg ha, insert, dif_neg (fun hmem => ha (mem_map.1 hmem))]
    simp [map]

theorem map_ofList (as : List α) : (ofList as).map f = ofList (as.map f) := by
  have hfold : ∀ (as : List α) (s : OrderedSet α),
      (as.foldl insert s).map f = (as.map f).foldl insert (s.map f) := by
    intro as
    induction as with
    | nil => exact fun _ => rfl
    | cons a as ih =>
      intro s
      rw [List.foldl_cons, ih, map_insert, List.map_cons, List.foldl_cons]
  exact hfold as ∅

/-- Elements keep their places, so entities that are renamed keep their numbers. -/
@[simp]
theorem indexOf?_map (a : α) : (s.map f).indexOf? (f a) = s.indexOf? a := by
  refine Option.ext fun i => ?_
  rw [indexOf?_eq_some_iff, indexOf?_eq_some_iff, toList_map, List.getElem?_map,
    Option.map_eq_some_iff]
  exact ⟨fun ⟨b, hb, hab⟩ => f.injective hab ▸ hb, fun ha => ⟨a, ha, rfl⟩⟩

end Map

end OrderedSet

end ForeignDecl
