import ForeignDecl.Proofs.Layout.Arrangement
import ForeignDecl.Proofs.Layout.Fields

/-!
# Records behind one another

In an array one record follows the other with nothing between them, so all of them are aligned if the
size of a record is a multiple of its alignment. Rounding up sees to that, but for one kind of record:
a C++ record in which nothing takes up room is `Hollow`, and its size is a byte whatever its alignment
is. `natural_aligned` says that no other record is an exception, and that a record is aligned for
everything in it.
-/

set_option autoImplicit false

namespace ForeignDecl.Layout

variable {u : TranslationUnit} {t : Target} {d : DeclId} {r : RecordNode} {p : Placement}

/-- Zero is a multiple of every alignment, and nothing else is rounded up to it. So whether a record
takes up room is seen from any of its cursors, before or after rounding. -/
theorem alignUp_eq_zero_iff {offset align : Nat} : alignUp offset align = 0 ↔ offset = 0 := by
  constructor
  · intro h
    exact Nat.le_zero.1 (h ▸ le_alignUp offset align)
  · rintro rfl
    exact alignUp_zero align

/-! ## Sections without room -/

/-- Base classes end at the start exactly if they begin there and take up no room. -/
theorem placeBases_offset_eq_zero_iff :
    ∀ {ps : List (DeclId × Placement)} {c : Cursor}, (placeBases c ps).1.offset = 0 ↔
      c.offset = 0 ∧ ∀ y ∈ ps, y.2.isEmpty = false → y.2.ownSize = 0
  | [], c => by simp [placeBases]
  | (id, q) :: ps, c => by
    unfold placeBases
    dsimp only
    split
    · next hempty => simp [placeBases_offset_eq_zero_iff, hempty]
    · next hfull =>
      simp [placeBases_offset_eq_zero_iff, hfull, alignUp_eq_zero_iff, and_assoc]

/-- A field leaves the cursor at the start exactly if it has no width. A bitfield of width zero only
rounds up, and the start is a multiple already. -/
theorem placeField?_offset_eq_zero_iff {c c' : Cursor} {f : FieldNode} {l : TypeLayout}
    {offset : Nat} (h : placeField? c f l = some (c', offset)) :
    c'.offset = 0 ↔ c.offset = 0 ∧ unionWidth f l = 0 := by
  unfold placeField? at h
  unfold unionWidth
  dsimp only at h
  cases hwidth : f.width? with
  | none =>
    simp only [hwidth] at h
    split at h
    · cases h
      simp [alignUp_eq_zero_iff]
    · cases h
  | some width =>
    cases width with
    | zero =>
      simp only [hwidth] at h
      cases h
      simp [alignUp_eq_zero_iff]
    | succ width =>
      simp only [hwidth] at h
      cases h
      simp

section Fields

variable {layout : TypeId → Except LayoutError TypeLayout}

/-- The field takes up no room: its type is of size zero, or it is a bitfield of no width. The type
needs a layout for this to be said, which those of a placed record have. -/
def TakesNoRoom (layout : TypeId → Except LayoutError TypeLayout) (f : FieldNode) : Prop :=
  ∃ l, layout f.type = .ok l ∧ unionWidth f l = 0

theorem takesNoRoom_iff {f : FieldNode} {l : TypeLayout} (h : layout f.type = .ok l) :
    TakesNoRoom layout f ↔ unionWidth f l = 0 :=
  ⟨fun ⟨_, hl, hwidth⟩ => by cases h.symm.trans hl; exact hwidth, fun hwidth => ⟨l, h, hwidth⟩⟩

/-- For all fields of a record: none of them may move the cursor. -/
theorem placeFields_offset_eq_zero_iff {e : LayoutError} :
    ∀ {fs : List FieldNode} {c c' : Cursor} {offsets : List Nat},
      placeFields layout e c fs = .ok (c', offsets) →
      (c'.offset = 0 ↔ c.offset = 0 ∧ ∀ f ∈ fs, TakesNoRoom layout f)
  | [], c, c', offsets, h => by
    cases h
    simp
  | f :: fs, c, c', offsets, h => by
    unfold placeFields at h
    obtain ⟨l, hl, h⟩ := bind_eq_ok.1 h
    split at h
    · cases h
    next c₁ offset hfield =>
    obtain ⟨⟨c₂, offsets'⟩, hfields, h⟩ := bind_eq_ok.1 h
    cases h
    rw [placeFields_offset_eq_zero_iff hfields, placeField?_offset_eq_zero_iff hfield,
      List.forall_mem_cons, takesNoRoom_iff hl, and_assoc]

/-- A union ends where its widest field does, so that is at the start if all fields have no width. -/
theorem placeUnionFields_offset_eq_zero_iff :
    ∀ {fs : List FieldNode} {c c' : Cursor} {offsets : List Nat},
      placeUnionFields layout c fs = .ok (c', offsets) →
      (c'.offset = 0 ↔ c.offset = 0 ∧ ∀ f ∈ fs, TakesNoRoom layout f)
  | [], c, c', offsets, h => by
    cases h
    simp
  | f :: fs, c, c', offsets, h => by
    unfold placeUnionFields at h
    obtain ⟨l, hl, h⟩ := bind_eq_ok.1 h
    obtain ⟨⟨c₂, offsets'⟩, hfields, h⟩ := bind_eq_ok.1 h
    cases h
    rw [placeUnionFields_offset_eq_zero_iff hfields, List.forall_mem_cons, takesNoRoom_iff hl,
      ← and_assoc]
    refine and_congr_left' ?_
    dsimp only
    omega

end Fields

/-! ## Hollow records -/

/-- The C++ record `r` that is placed as `p` has nothing in it that takes up room: no pointer of its
own, and only fields and bases of size zero. It is described through the parts of the record and not
through the size, as the size is what follows: it is set to a byte after it was rounded up
(`AlignsParts.size_of_hollow`). -/
structure Hollow (u : TranslationUnit) (t : Target) (r : RecordNode) (p : Placement) : Prop where
  isCxx : r.isCxx
  /-- If the record is dynamic, a direct base lends it a pointer. -/
  pointer : p.isDynamic → ∃ b ∈ r.bases, b.isVirtual = false ∧
    ∃ q, placement u t b.record = .ok q ∧ q.isDynamic
  fields : ∀ f ∈ u.fieldsAmong r.members, TakesNoRoom (typeLayout u t) f.2
  bases : ∀ b ∈ r.bases, b.isVirtual = false → ∃ q, placement u t b.record = .ok q ∧ q.ownSize = 0
  virtuals : ∀ v ∈ p.virtualOrder, ∃ q, placement u t v = .ok q ∧ q.ownSize = 0

namespace Lays

variable {x : Sections} (h : Lays u t (typeLayout u t) (placement u t) d r x p)

include h

/-- The direct bases that are placed are those that the record names. A base that is named twice is
placed twice, so the numbers they are placed under are left open. -/
theorem mem_directBases_iff {q : Placement} : (∃ id, (id, q) ∈ directBases x.bases) ↔
    ∃ b ∈ r.bases, b.isVirtual = false ∧ placement u t b.record = .ok q := by
  constructor
  · rintro ⟨id, hq⟩
    obtain ⟨placed, hplaced, heq⟩ := List.mem_map.1 hq
    cases heq
    obtain ⟨hplaced, hdirect⟩ := List.mem_filter.1 hplaced
    obtain ⟨b, hb, hbase⟩ := h.exists_specifier hplaced
    refine ⟨b, hb, ?_, hbase.placement⟩
    simpa [hbase.isVirtual] using hdirect
  · rintro ⟨b, hb, hdirect, hq⟩
    obtain ⟨placed, hplaced, hbase⟩ := h.exists_placed hb
    cases hbase.placement.symm.trans hq
    refine ⟨placed.id, List.mem_map_of_mem (List.mem_filter.2 ⟨hplaced, ?_⟩)⟩
    simp [hbase.isVirtual, hdirect]

/-- What holds of the placements of all direct bases can be said of the bases that the record names,
which is where `Hollow` and `AlignsParts` say it. -/
theorem forall_directBases_iff {P : Placement → Prop} : (∀ y ∈ directBases x.bases, P y.2) ↔
    ∀ b ∈ r.bases, b.isVirtual = false → ∃ q, placement u t b.record = .ok q ∧ P q := by
  constructor
  · intro hall b hb hdirect
    obtain ⟨placed, _, hbase⟩ := h.exists_placed hb
    obtain ⟨id, hid⟩ := h.mem_directBases_iff.2 ⟨b, hb, hdirect, hbase.placement⟩
    exact ⟨_, hbase.placement, hall _ hid⟩
  · intro hall y hy
    obtain ⟨b, hb, hdirect, hplacement⟩ := h.mem_directBases_iff.1 ⟨_, hy⟩
    obtain ⟨q, hq, hP⟩ := hall b hb hdirect
    cases hplacement.symm.trans hq
    exact hP

/-- And the same for the virtual bases of the hierarchy. -/
theorem forall_virtuals_iff {P : Placement → Prop} :
    (∀ y ∈ x.virtuals, P y.2) ↔ ∀ v ∈ p.virtualOrder, ∃ q, placement u t v = .ok q ∧ P q := by
  rw [h.virtualOrder_eq]
  constructor
  · intro hall v hv
    obtain ⟨y, hy, _, hplacement⟩ := exists_right_of_forall₂ h.virtuals v hv
    exact ⟨_, hplacement, hall y hy⟩
  · intro hall y hy
    obtain ⟨v, hv, _, hplacement⟩ := exists_right_of_forall₂ h.virtuals.flip y hy
    obtain ⟨q, hq, hP⟩ := hall v hv
    cases hplacement.symm.trans hq
    exact hP

/-- The first base or field goes to the start unless a pointer is there: the record is dynamic, and
no direct base lends it one. -/
theorem startCursor_offset_eq_zero_iff (hcxx : r.isCxx) (hpointer : 0 < t.pointer.size) :
    (startCursor t (x.hasOwnPointer r p)).offset = 0 ↔
      (p.isDynamic → ∃ b ∈ r.bases, b.isVirtual = false ∧
        ∃ q, placement u t b.record = .ok q ∧ q.isDynamic) := by
  have hlent : (directBases x.bases).any (·.2.isDynamic) = true ↔
      ∃ b ∈ r.bases, b.isVirtual = false ∧ ∃ q, placement u t b.record = .ok q ∧ q.isDynamic := by
    rw [List.any_eq_true]
    constructor
    · rintro ⟨y, hy, hdynamic⟩
      obtain ⟨b, hb, hdirect, hq⟩ := h.mem_directBases_iff.1 ⟨_, hy⟩
      exact ⟨b, hb, hdirect, _, hq, hdynamic⟩
    · rintro ⟨b, hb, hdirect, q, hq, hdynamic⟩
      obtain ⟨id, hid⟩ := h.mem_directBases_iff.2 ⟨b, hb, hdirect, hq⟩
      exact ⟨_, hid, hdynamic⟩
  have hown : (startCursor t (x.hasOwnPointer r p)).offset = 0 ↔ x.hasOwnPointer r p = false := by
    cases x.hasOwnPointer r p
    · simp [startCursor]
    · simp [startCursor, Nat.ne_of_gt hpointer]
  rw [hown, ← hlent, Sections.hasOwnPointer, hcxx]
  cases p.isDynamic <;> simp

/-- All sections of a record end at the start exactly if it is hollow. From the last section to the
first: each ends at the start if the one before it does, and nothing in it takes up room. -/
theorem hollow_iff (hcxx : r.isCxx) (hpointer : 0 < t.pointer.size) :
    x.behindVirtuals.offset = 0 ↔ Hollow u t r p := by
  -- An empty base is skipped over, and its size is zero anyway.
  have hroom : ∀ d, (∃ q, placement u t d = .ok q ∧ (q.isEmpty = false → q.ownSize = 0)) ↔
      ∃ q, placement u t d = .ok q ∧ q.ownSize = 0 := by
    refine fun d => exists_congr fun q => and_congr_right fun hq => ⟨fun hown => ?_, fun hown _ => hown⟩
    cases hempty : q.isEmpty
    · exact hown hempty
    · exact ownSize_of_isEmpty hq hempty
  have hvirtuals : x.behindVirtuals.offset = 0 ↔ x.behindFields.offset = 0 ∧
      ∀ v ∈ p.virtualOrder, ∃ q, placement u t v = .ok q ∧ q.ownSize = 0 := by
    have hzero := @placeBases_offset_eq_zero_iff x.virtuals x.behindFields
    rw [h.placedVirtuals] at hzero
    rw [hzero, h.forall_virtuals_iff (P := fun q => q.isEmpty = false → q.ownSize = 0)]
    simp only [hroom]
  have hfields : x.behindFields.offset = 0 ↔ x.behindBases.offset = 0 ∧
      ∀ f ∈ u.fieldsAmong r.members, TakesNoRoom (typeLayout u t) f.2 := by
    have hplaced := h.placedFields
    rw [← List.forall_mem_map (l := u.fieldsAmong r.members) (f := (·.2))]
    split at hplaced
    · exact placeUnionFields_offset_eq_zero_iff hplaced
    · exact placeFields_offset_eq_zero_iff hplaced
  have hbases : x.behindBases.offset = 0 ↔
      (startCursor t (x.hasOwnPointer r p)).offset = 0 ∧ ∀ b ∈ r.bases, b.isVirtual = false →
        ∃ q, placement u t b.record = .ok q ∧ q.ownSize = 0 := by
    have hzero := @placeBases_offset_eq_zero_iff (primaryFirst (directBases x.bases))
      (startCursor t (x.hasOwnPointer r p))
    rw [h.placedBases] at hzero
    simp only [mem_primaryFirst] at hzero
    rw [hzero, h.forall_directBases_iff (P := fun q => q.isEmpty = false → q.ownSize = 0)]
    simp only [hroom]
  rw [hvirtuals, hfields, hbases, h.startCursor_offset_eq_zero_iff hcxx hpointer]
  constructor
  · rintro ⟨⟨⟨hpointer, hbases⟩, hfields⟩, hvirtuals⟩
    exact ⟨hcxx, hpointer, hfields, hbases, hvirtuals⟩
  · rintro ⟨_, hpointer, hfields, hbases, hvirtuals⟩
    exact ⟨⟨⟨hpointer, hbases⟩, hfields⟩, hvirtuals⟩

end Lays

/-! ## Alignments of parts -/

/-- Bases only raise the alignment. -/
theorem align_le_placeBases (c : Cursor) (ps : List (DeclId × Placement)) :
    c.align ≤ (placeBases c ps).1.align := by
  obtain ⟨_, _, _, hbases⟩ := @placeBases_eq ps c _ _ rfl
  exact hbases.align_le

/-- A record is aligned for each of its bases, empty ones included. -/
theorem ownAlign_le_placeBases : ∀ {ps : List (DeclId × Placement)} {c : Cursor}, ∀ y ∈ ps,
    y.2.ownAlign ≤ (placeBases c ps).1.align
  | [], _ => by simp
  | (id, q) :: ps, c => by
    have hq : q.ownAlign ≤ max c.align q.ownAlign := Nat.le_max_right _ _
    unfold placeBases
    dsimp only
    split
    · exact List.forall_mem_cons.2
        ⟨Nat.le_trans hq (align_le_placeBases ⟨_, _⟩ ps), ownAlign_le_placeBases⟩
    · exact List.forall_mem_cons.2
        ⟨Nat.le_trans hq (align_le_placeBases ⟨_, _⟩ ps), ownAlign_le_placeBases⟩

/-- The declaration from which a base is laid out: a virtual base is shared by the whole hierarchy, and
laid out from the first declaration of its class. -/
def laidOut (u : TranslationUnit) (b : BaseSpecifier) : DeclId :=
  if b.isVirtual then u.canonical b.record else b.record

section Parts

variable {x : Sections} (h : Lays u t (typeLayout u t) (placement u t) d r x p)

include h

/-- A record is aligned for each field that is no bitfield. -/
theorem Lays.exists_field_align_le {f : DeclId × FieldNode} (hf : f ∈ u.fieldsAmong r.members)
    (hwidth : f.2.width? = none) : ∃ l, typeLayout u t f.2.type = .ok l ∧ l.align ≤ p.align := by
  obtain ⟨fs, hholds⟩ := h.exists_holds
  have hmem : f.2 ∈ fs.map (·.field) := hholds.fields ▸ List.mem_map_of_mem hf
  obtain ⟨g, hg, hfield⟩ := List.mem_map.1 hmem
  rw [← hfield] at hwidth ⊢
  exact ⟨g.layout, hholds.layouts g hg, hholds.le_align g hg hwidth⟩

theorem Lays.exists_virtual_align_le : ∀ v ∈ p.virtualOrder,
    ∃ q, placement u t v = .ok q ∧ q.ownAlign ≤ p.align := by
  rw [← h.forall_virtuals_iff (P := fun q => q.ownAlign ≤ p.align), h.align]
  have hle := @ownAlign_le_placeBases x.virtuals x.behindFields
  rwa [h.placedVirtuals] at hle

/-- A record is aligned for every base that it names, wherever that is placed: a virtual one through the
hierarchy, another one through the direct bases. -/
theorem Lays.exists_base_align_le {b : BaseSpecifier} (hb : b ∈ r.bases) :
    ∃ q, placement u t (laidOut u b) = .ok q ∧ q.ownAlign ≤ p.align := by
  have hdirect : ∀ y ∈ directBases x.bases, y.2.ownAlign ≤ p.align := by
    intro y hy
    have hle := ownAlign_le_placeBases (c := startCursor t (x.hasOwnPointer r p)) y
      (mem_primaryFirst.2 hy)
    rw [h.placedBases] at hle
    calc y.2.ownAlign ≤ x.behindBases.align := hle
      _ ≤ x.behindFields.align := h.fields_align_le
      _ ≤ p.align := h.ownAlign ▸ h.le_align.2
  unfold laidOut
  split
  · next hvirtual =>
    exact h.exists_virtual_align_le _ (h.mem_virtualOrder_iff.2 ⟨b, hb, .inl ⟨hvirtual, rfl⟩⟩)
  · next hvirtual =>
    exact (h.forall_directBases_iff (P := fun q => q.ownAlign ≤ p.align)).1 hdirect b hb
      (by simpa using hvirtual)

end Parts

/-- The record `r` that is placed as `p` is aligned for all its parts; and unless it is hollow, its size
is a multiple of its alignment. So in an array of it every part is at a multiple of its own alignment,
if it is in the first element. The size of a hollow record is stated as well, to leave nothing open
about the exception. -/
structure AlignsParts (u : TranslationUnit) (t : Target) (r : RecordNode) (p : Placement) : Prop where
  le_align : 8 ≤ p.align
  isPowerOfTwo : p.align.isPowerOfTwo
  size : ¬ Hollow u t r p → p.align ∣ p.size
  size_of_hollow : Hollow u t r p → p.size = 8
  fields : ∀ f ∈ u.fieldsAmong r.members, f.2.width? = none →
    ∃ l, typeLayout u t f.2.type = .ok l ∧ l.align ∣ p.align
  bases : ∀ b ∈ r.bases, ∃ q, placement u t (laidOut u b) = .ok q ∧ q.ownAlign ∣ p.align
  virtuals : ∀ v ∈ p.virtualOrder, ∃ q, placement u t v = .ok q ∧ q.ownAlign ∣ p.align

/-- The alignments of parts are bounded by that of the record, and all of them are powers of two, so a
bound is a divisor. The size was rounded up to the alignment, unless it was set. -/
theorem Lays.alignsParts {x : Sections} (ht : t.check = .ok ())
    (h : Lays u t (typeLayout u t) (placement u t) d r x p) : AlignsParts u t r p := by
  have hpower := aligns_isPowerOfTwo ht
  obtain ⟨hownPower, hpowerOfTwo⟩ := h.align_of hpower (fun _ _ => align_of_typeLayout hpower)
    fun _ _ => align_of_placement hpower
  have hpointer : 0 < t.pointer.size :=
    (Target.isFit_of_builtin? ht (show t.builtin? .nullPointer = some t.pointer from rfl)).size_pos
  have hbase : ∀ {v : DeclId}, (∃ q, placement u t v = .ok q ∧ q.ownAlign ≤ p.align) →
      ∃ q, placement u t v = .ok q ∧ q.ownAlign ∣ p.align :=
    fun ⟨q, hq, hle⟩ => ⟨q, hq, dvd_of_isPowerOfTwo (align_of_placement hpower hq).1 hpowerOfTwo hle⟩
  have hle : 8 ≤ p.align := Nat.le_trans h.le_align.1 h.le_align.2
  have hrounded : p.align ∣ alignUp x.behindVirtuals.offset x.behindVirtuals.align :=
    h.align ▸ dvd_alignUp _ (by omega)
  exact {
    le_align := hle
    isPowerOfTwo := hpowerOfTwo
    -- The size is the rounded one unless it was set, and it is set for hollow records only.
    size := fun hhollow => by
      rw [h.size]
      split
      · next hzero =>
        simp only [Bool.and_eq_true, decide_eq_true_eq, alignUp_eq_zero_iff] at hzero
        exact absurd ((h.hollow_iff hzero.2 hpointer).1 hzero.1) hhollow
      · exact hrounded
    size_of_hollow := fun hhollow => by
      have hzero := (h.hollow_iff hhollow.isCxx hpointer).2 hhollow
      rw [h.size, hzero, alignUp_zero]
      simp [hhollow.isCxx]
    fields := fun f hf hwidth =>
      have ⟨l, hl, hle⟩ := h.exists_field_align_le hf hwidth
      ⟨l, hl, dvd_of_isPowerOfTwo (align_of_typeLayout hpower hl) hpowerOfTwo hle⟩
    bases := fun b hb => hbase (h.exists_base_align_le hb)
    virtuals := fun v hv => hbase (h.exists_virtual_align_le v hv) }

/-- **Every type is aligned to a power of two of at least a byte; and a record is aligned for all its
parts, also behind another one of its kind unless it is hollow.** A hollow record of C++ ends where it
begins, and its size is then set to a byte whatever its alignment is. Of a bitfield no alignment is
claimed, as it may begin at any bit. -/
theorem natural_aligned (u : TranslationUnit) (t : Target) (ht : t.check = .ok ()) :
    (∀ id l, (natural u t).type id = .ok l → 8 ≤ l.align ∧ l.align.isPowerOfTwo) ∧
    ∀ d r l, (u.node d).record? = some r → (natural u t).record d = .ok l →
      ∃ p, placement u t d = .ok p ∧ l = ⟨p.size, p.align, p.fieldOffsets⟩ ∧
        AlignsParts u t r p := by
  refine ⟨fun id l h => ⟨le_align_of_typeLayout ht h,
    align_of_typeLayout (aligns_isPowerOfTwo ht) h⟩, fun d r l hr h => ?_⟩
  obtain ⟨p, hp, hl⟩ := natural_record_eq_ok h
  obtain ⟨r', x, hlays⟩ := lays_of_placement hp
  cases hr.symm.trans hlays.record
  exact ⟨p, hp, hl, hlays.alignsParts ht⟩

/-- A record of one field, an array of no elements, and a record that has it for a base, behind a
virtual one. -/
def zeroLength : TranslationUnit where
  file := "a.h"
  types := #[.builtin .int, .array ⟨0⟩ 0, .builtin .short]
  nodes := #[{ name := "Z", kind := .record { members := [⟨1⟩], class? := some {} } },
    { name := "a", kind := .field { type := ⟨1⟩ } },
    { name := "V", kind := .record { members := [⟨3⟩], class? := some {} } },
    { name := "s", kind := .field { type := ⟨2⟩ } },
    { name := "D"
      kind := .record
        { members := [⟨5⟩, ⟨6⟩]
          class? := some { bases := [{ record := ⟨2⟩, isVirtual := true }, { record := ⟨0⟩ }] } } },
    { name := "b", kind := .field { type := ⟨2⟩, width? := some 3 } },
    { name := "z", kind := .field { type := ⟨1⟩ } }]
  topLevel := #[⟨0⟩, ⟨2⟩, ⟨4⟩]

theorem natural_aligned_zeroLength :
    let t := Target.lp64 ""
    let layout : RecordLayout := ⟨128, 64, [64, 96]⟩
    t.check = .ok () ∧ (natural zeroLength t).record ⟨4⟩ = .ok layout ∧
      ∃ r p, (zeroLength.node ⟨4⟩).record? = some r ∧ placement zeroLength t ⟨4⟩ = .ok p ∧
        layout = ⟨p.size, p.align, p.fieldOffsets⟩ ∧ AlignsParts zeroLength t r p := by
  intro t layout
  have ht : t.check = .ok () := by decide +kernel
  have hlayout : (natural zeroLength t).record ⟨4⟩ = .ok layout := by decide +kernel
  obtain ⟨p, hp, hsizes, halign⟩ := (natural_aligned zeroLength t ht).2 ⟨4⟩ _ _ rfl hlayout
  exact ⟨ht, hlayout, _, p, rfl, hp, hsizes, halign⟩

/-- The size of a hollow record need not be a multiple of its alignment. -/
theorem natural_misaligns_hollow :
    let t := Target.lp64 ""
    t.check = .ok () ∧ ∃ l, (natural zeroLength t).record ⟨0⟩ = .ok l ∧ ¬ l.align ∣ l.size := by
  intro t
  have hlayout : (natural zeroLength t).record ⟨0⟩ = .ok ⟨8, 32, [0]⟩ := by decide +kernel
  exact ⟨by decide +kernel, _, hlayout, by decide⟩

end ForeignDecl.Layout
