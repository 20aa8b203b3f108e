/-!
# Ordered sets

A finite set that remembers the order in which its elements were first put in. Identities are
numbered in that order, protocols and virtual bases are listed in it, and pending records are
written in it.

The view is `toList`: inserting appends a new element at the end and leaves the list alone when the
element is already there (`toList_insert`), so no element is listed twice.
-/

set_option autoImplicit false

namespace ForeignDecl

/-- A list without repetitions. -/
structure OrderedSet (α : Type) where
  /-- The elements, in the order of their first insertion. -/
  toList : List α
  nodup : toList.Nodup

namespace OrderedSet

variable {α : Type}

/-- The set without elements. -/
def empty : OrderedSet α := ⟨[], List.nodup_nil⟩

instance : EmptyCollection (OrderedSet α) := ⟨empty⟩

instance : Inhabited (OrderedSet α) := ⟨empty⟩

instance : Membership α (OrderedSet α) := ⟨fun s a => a ∈ s.toList⟩

theorem mem_def {s : OrderedSet α} {a : α} : a ∈ s ↔ a ∈ s.toList := Iff.rfl

variable [DecidableEq α]

instance (a : α) (s : OrderedSet α) : Decidable (a ∈ s) := inferInstanceAs (Decidable (a ∈ s.toList))

/-- Put an element in, behind all others when it is new. -/
def insert (s : OrderedSet α) (a : α) : OrderedSet α :=
  if h : a ∈ s then s
  else ⟨s.toList ++ [a], List.nodup_append.2 ⟨s.nodup, by simp, by
    rintro x hx y hy rfl
    exact h (List.mem_singleton.1 hy ▸ hx)⟩⟩

/-- The elements of a list, in the order in which they first occur. -/
def ofList (as : List α) : OrderedSet α := as.foldl insert ∅

/-- The position of an element, counted from zero. -/
def indexOf? (s : OrderedSet α) (a : α) : Option Nat := s.toList.idxOf? a

/-- The number of elements. -/
def size (s : OrderedSet α) : Nat := s.toList.length

/-- There is no element. -/
def isEmpty (s : OrderedSet α) : Bool := s.toList.isEmpty

theorem toList_insert (s : OrderedSet α) (a : α) :
    (s.insert a).toList = if a ∈ s then s.toList else s.toList ++ [a] := by
  rw [insert]
  split <;> rfl

@[simp]
theorem mem_insert {s : OrderedSet α} {a b : α} : b ∈ s.insert a ↔ b ∈ s ∨ b = a := by
  rw [mem_def, toList_insert]
  split
  · next h => exact ⟨.inl, fun hb => hb.elim id (· ▸ h)⟩
  · simp [mem_def]

@[simp]
theorem mem_ofList {as : List α} {a : α} : a ∈ ofList as ↔ a ∈ as := by
  have hfold : ∀ (as : List α) (s : OrderedSet α), a ∈ as.foldl insert s ↔ a ∈ s ∨ a ∈ as := by
    intro as
    induction as with
    | nil => simp
    | cons b as ih =>
      intro s
      rw [List.foldl_cons, ih, mem_insert, List.mem_cons, or_assoc]
  rw [ofList, hfold]
  exact or_iff_right (List.not_mem_nil (a := a))

end OrderedSet

end ForeignDecl
