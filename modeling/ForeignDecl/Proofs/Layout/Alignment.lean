import Mathlib.Order.Nat
import ForeignDecl.Proofs.Layout.Parts
import ForeignDecl.Proofs.Target

/-!
# Where alignments come from

The alignment of a type or a record is never computed: it is that of a byte, or of a builtin type of
the target, and of several the greatest is taken. What holds of these alignments therefore holds of
all (`align_of_typeLayout`, `align_of_placement`). With a target that passes the check, every
alignment is a power of two of at least a byte, so that rounding up to one gives a multiple of it, and
of two alignments the smaller divides the greater.
-/

set_option autoImplicit false

namespace ForeignDecl.Layout

variable {u : TranslationUnit} {t : Target} {d : DeclId} {p : Placement}

/-- The alignments that all others are taken from have `P`. Nothing is asked about sums or products: if
`P` holds here, it holds of every alignment there is, since the greatest of two is one of the two. -/
structure Aligns (t : Target) (P : Nat → Prop) : Prop where
  byte : P 8
  builtin : ∀ {kind : Builtin} {l : TypeLayout}, t.builtin? kind = some l → P l.align

namespace Aligns

variable {P : Nat → Prop}

/-- The null pointer stands among the builtin types, and other pointers and references are laid out like
it. -/
theorem pointer (h : Aligns t P) : P t.pointer.align :=
  h.builtin (show t.builtin? .nullPointer = some t.pointer from rfl)

theorem int (h : Aligns t P) : P t.int.align := h.builtin (show t.builtin? .int = some t.int from rfl)

/-- A record starts with the alignment of a byte, or with that of the pointer in front of its bases. -/
theorem startCursor (h : Aligns t P) (hasOwnPointer : Bool) :
    P (startCursor t hasOwnPointer).align := by
  cases hasOwnPointer
  · exact h.byte
  · exact max_rec' P h.byte h.pointer

end Aligns

section Records

variable {layout : TypeId → Except LayoutError TypeLayout}
  {place : DeclId → Except LayoutError Placement} {r : RecordNode} {x : Sections}

/-! ## Greater alignments -/

/-- Nothing that is placed lowers an alignment, so this bound holds to the end of the record. -/
theorem le_align_startCursor (t : Target) (hasOwnPointer : Bool) :
    8 ≤ (startCursor t hasOwnPointer).align := by
  cases hasOwnPointer
  · exact Nat.le_refl _
  · exact Nat.le_max_left _ _

/-- The fields of a union or a struct only raise the alignment that the bases have left. -/
theorem Lays.fields_align_le (h : Lays u t layout place d r x p) :
    x.behindBases.align ≤ x.behindFields.align := by
  have hfields := h.placedFields
  split at hfields
  · obtain ⟨_, _, _, _, hat⟩ := placeUnionFields_eq hfields
    exact hat.align_le
  · obtain ⟨_, _, _, _, hat⟩ := placeFields_eq hfields
    exact hat.align_le

/-- A record is aligned to a byte at least, and with its virtual bases not less than without. -/
theorem Lays.le_align (h : Lays u t layout place d r x p) :
    8 ≤ p.ownAlign ∧ p.ownAlign ≤ p.align := by
  obtain ⟨_, _, _, hbases⟩ := placeBases_eq h.placedBases
  obtain ⟨_, _, _, hvirtuals⟩ := placeBases_eq h.placedVirtuals
  rw [h.ownAlign, h.align]
  refine ⟨?_, hvirtuals.align_le⟩
  calc 8 ≤ (startCursor t (x.hasOwnPointer r p)).align := le_align_startCursor _ _
    _ ≤ x.behindBases.align := hbases.align_le
    _ ≤ x.behindFields.align := h.fields_align_le

/-! ## One of some alignments -/

variable {P : Nat → Prop}

/-- The step through the bases: the cursor takes the greater of its own alignment and that of a base,
and never another number. -/
theorem align_placeBases : ∀ {ps : List (DeclId × Placement)} {c : Cursor}, P c.align →
    (∀ y ∈ ps, P y.2.ownAlign) → P (placeBases c ps).1.align
  | [], _, hc, _ => hc
  | (id, q) :: ps, c, hc, hps => by
    rw [List.forall_mem_cons] at hps
    have halign : P (max c.align q.ownAlign) := max_rec' P hc hps.1
    unfold placeBases
    dsimp only
    split
    · exact align_placeBases halign hps.2
    · exact align_placeBases halign hps.2

/-- Of the three sorts of fields one has no influence at all: a bitfield of width zero moves the cursor,
but does not align the record. -/
theorem align_placeField? {c c' : Cursor} {f : FieldNode} {l : TypeLayout} {offset : Nat}
    (hc : P c.align) (hl : P l.align) (h : placeField? c f l = some (c', offset)) : P c'.align := by
  have halign : P (max c.align l.align) := max_rec' P hc hl
  unfold placeField? at h
  dsimp only at h
  split at h
  · cases h
    exact hc
  · cases h
    exact halign
  · split at h
    · cases h
      exact halign
    · cases h

theorem align_placeFields {e : LayoutError} (hlayout : ∀ id l, layout id = .ok l → P l.align) :
    ∀ {fs : List FieldNode} {c c' : Cursor} {offsets : List Nat}, P c.align →
      placeFields layout e c fs = .ok (c', offsets) → P c'.align
  | [], c, c', offsets, hc, h => by
    cases h
    exact hc
  | f :: fs, c, c', offsets, hc, h => by
    unfold placeFields at h
    obtain ⟨l, hl, h⟩ := bind_eq_ok.1 h
    split at h
    · cases h
    next c₁ offset hfield =>
    obtain ⟨⟨c₂, offsets'⟩, hfields, h⟩ := bind_eq_ok.1 h
    cases h
    exact align_placeFields hlayout (align_placeField? hc (hlayout _ _ hl) hfield) hfields

theorem align_placeUnionFields (hlayout : ∀ id l, layout id = .ok l → P l.align) :
    ∀ {fs : List FieldNode} {c c' : Cursor} {offsets : List Nat}, P c.align →
      placeUnionFields layout c fs = .ok (c', offsets) → P c'.align
  | [], c, c', offsets, hc, h => by
    cases h
    exact hc
  | f :: fs, c, c', offsets, hc, h => by
    unfold placeUnionFields at h
    obtain ⟨l, hl, h⟩ := bind_eq_ok.1 h
    obtain ⟨⟨c₂, offsets'⟩, hfields, h⟩ := bind_eq_ok.1 h
    cases h
    exact align_placeUnionFields hlayout (max_rec' P hc (hlayout _ _ hl)) hfields

/-- A record takes its alignments from its parts. -/
theorem Lays.align_of (h : Lays u t layout place d r x p) (ht : Aligns t P)
    (hlayout : ∀ id l, layout id = .ok l → P l.align)
    (hplace : ∀ d q, place d = .ok q → P q.ownAlign ∧ P q.align) : P p.ownAlign ∧ P p.align := by
  have hdirect : ∀ y ∈ primaryFirst (directBases x.bases), P y.2.ownAlign := by
    intro y hy
    obtain ⟨b, hb, rfl⟩ := List.mem_map.1 (mem_primaryFirst.1 hy)
    obtain ⟨specifier, _, hbase⟩ := h.exists_specifier (List.mem_of_mem_filter hb)
    exact (hplace _ _ hbase.placement).1
  have hbases : P x.behindBases.align := by
    have halign := align_placeBases (ht.startCursor (x.hasOwnPointer r p)) hdirect
    rwa [h.placedBases] at halign
  have hfields : P x.behindFields.align := by
    have hplaced := h.placedFields
    split at hplaced
    · exact align_placeUnionFields hlayout hbases hplaced
    · exact align_placeFields hlayout hbases hplaced
  have hvirtual : ∀ y ∈ x.virtuals, P y.2.ownAlign := by
    intro y hy
    obtain ⟨id, _, _, hplacement⟩ := exists_right_of_forall₂ h.virtuals.flip y hy
    exact (hplace _ _ hplacement).1
  have hvirtuals : P x.behindVirtuals.align := by
    have halign := align_placeBases hfields hvirtual
    rwa [h.placedVirtuals] at halign
  rw [h.ownAlign, h.align]
  exact ⟨hfields, hvirtuals⟩

/-- A type takes its alignment from the target or from a record. An array has that of its element
whatever its count is, so the recursion follows the type down to one of the two. -/
theorem align_typeLayoutWithin (ht : Aligns t P)
    (hplace : ∀ d p, place d = .ok p → P p.align) :
    ∀ (fuel : Nat) {id : TypeId} {l : TypeLayout},
      typeLayoutWithin u t place fuel id = .ok l → P l.align
  | 0, _, _, h => nomatch h
  | fuel + 1, id, l, h => by
    have ih := fun id l => @align_typeLayoutWithin ht hplace fuel id l
    have hrecord : ∀ {x : DeclId}, (do
        let p ← place x
        Except.ok ⟨p.size, p.align⟩) = Except.ok l → P l.align := by
      intro x h
      obtain ⟨p, hp, h⟩ := bind_eq_ok.1 h
      cases h
      exact hplace x p hp
    -- The three sorts of arrays differ in their sizes only.
    have harray : ∀ {element : TypeId} {f : TypeLayout → Except LayoutError TypeLayout},
        (∀ l l', f l = .ok l' → l'.align = l.align) →
        typeLayoutWithin u t place fuel element >>= f = .ok l → P l.align := by
      intro element f hf h
      obtain ⟨l', hl', h⟩ := bind_eq_ok.1 h
      rw [hf l' l h]
      exact ih element l' hl'
    unfold typeLayoutWithin at h
    split at h
    · split at h
      · next l' hl' =>
        cases h
        exact ht.builtin hl'
      · cases h
    · cases h; exact ht.pointer
    · cases h; exact ht.pointer
    · cases h; exact ht.pointer
    · cases h; exact ht.pointer
    · refine harray (fun l l' h => ?_) h
      split at h
      · cases h; rfl
      · cases h
    · exact harray (fun l l' h => by cases h; rfl) h
    · exact harray (fun l l' h => by cases h; rfl) h
    · exact hrecord h
    · exact hrecord h
    · cases h; exact ht.int
    · split at h
      · exact ih _ _ h
      · cases h
    · exact ih _ _ h
    · exact ih _ _ h
    all_goals cases h

end Records

variable {P : Nat → Prop}

/-- Records inside of records: the induction is on the fuel, and only there do the statements about
types and about records meet. -/
theorem align_placementWithin (ht : Aligns t P) :
    ∀ (fuel : Nat) {visiting : List DeclId} {d : DeclId} {p : Placement},
      placementWithin u t fuel visiting d = .ok p → P p.ownAlign ∧ P p.align
  | 0, _, _, _, h => nomatch h
  | fuel + 1, visiting, d, p, h => by
    unfold placementWithin at h
    dsimp only at h
    split at h
    · cases h
    · obtain ⟨r, x, hlays⟩ := lays_of_placeRecord h
      have hplace := fun y q => @align_placementWithin ht fuel (u.canonical d :: visiting) y q
      exact hlays.align_of ht
        (fun _ _ => align_typeLayoutWithin ht (fun x q hq => (hplace x q hq).2) _) hplace

/-- **The alignments of a record are among those it can be made of.** -/
theorem align_of_placement (ht : Aligns t P) (h : placement u t d = .ok p) :
    P p.ownAlign ∧ P p.align := align_placementWithin ht _ h

/-- **The alignment of a type is among those it can be made of.** -/
theorem align_of_typeLayout (ht : Aligns t P) {id : TypeId} {l : TypeLayout}
    (h : typeLayout u t id = .ok l) : P l.align :=
  align_typeLayoutWithin ht (fun _ _ hp => (align_of_placement ht hp).2) _ h

/-! ## At least a byte -/

/-- This needs no check of the target, since a record starts from a byte. -/
theorem le_align_of_placement (h : placement u t d = .ok p) :
    8 ≤ p.ownAlign ∧ p.ownAlign ≤ p.align := by
  obtain ⟨r, x, hlays⟩ := lays_of_placement h
  exact hlays.le_align

/-- **Every type that has a layout is aligned to a byte at least**, if the target passes its check. So
to round up to an alignment is always to round up to a positive number. -/
theorem le_align_of_typeLayout (ht : t.check = .ok ()) {id : TypeId} {l : TypeLayout}
    (h : typeLayout u t id = .ok l) : 8 ≤ l.align :=
  align_of_typeLayout ⟨Nat.le_refl 8, fun hl => (Target.isFit_of_builtin? ht hl).le_align⟩ h

/-! ## Powers of two -/

/-- Powers of two divide each other in their order, so what is aligned to a greater one is aligned to
the smaller ones too (`dvd_of_isPowerOfTwo`). The sizes of records and the offsets of fields come to be
multiples of alignments by this. -/
theorem aligns_isPowerOfTwo (ht : t.check = .ok ()) : Aligns t Nat.isPowerOfTwo :=
  ⟨⟨3, rfl⟩, fun hl => (Target.isFit_of_builtin? ht hl).isPowerOfTwo_align⟩

/-- Of two powers of two the smaller divides the greater. -/
theorem dvd_of_isPowerOfTwo {a b : Nat} (ha : a.isPowerOfTwo) (hb : b.isPowerOfTwo) (h : a ≤ b) :
    a ∣ b := by
  obtain ⟨i, rfl⟩ := ha
  obtain ⟨j, rfl⟩ := hb
  exact Nat.pow_dvd_pow 2 ((Nat.pow_le_pow_iff_right (by omega)).1 h)

end ForeignDecl.Layout
