import ForeignDecl.Proofs.Layout.Sections

/-!
# Parts of a record

A part is a range of bits. Parts that are placed one behind the other, from where a section begins to
where it ends, are `Stacked`: stacks are put on top of each other (`Stacked.append`), no two parts of
one stack overlap, and none sticks out of it. Base classes and fields are placed as stacks
(`placeBases_eq`, `placeFields_eq`), each part at a multiple of its alignment.
-/

set_option autoImplicit false

namespace ForeignDecl.Layout

/-! ## Ranges of bits -/

/-- A range of bits: `width` of them from `offset` on. A range of no bits has an offset too, as the
fields and bases of size zero do. -/
structure Part where
  offset : Nat
  width : Nat
deriving DecidableEq, Repr, Inhabited

namespace Part

/-- The first bit behind the range. -/
def stop (a : Part) : Nat := a.offset + a.width

/-- The bit is one of the range. -/
def Covers (a : Part) (bit : Nat) : Prop := a.offset ≤ bit ∧ bit < a.stop

/-- No bit is in both ranges. The claim about a record is put in terms of bits, as ranges of no bits
overlap nothing wherever they are. -/
def Disjoint (a b : Part) : Prop := ∀ bit, a.Covers bit → ¬ b.Covers bit

/-- `b` starts where `a` ends, or later. This is what placing shows, and it is more than not to overlap.
-/
def Before (a b : Part) : Prop := a.stop ≤ b.offset

variable {a b : Part}

theorem Disjoint.symm (h : a.Disjoint b) : b.Disjoint a := fun bit hb ha => h bit ha hb

theorem Before.disjoint (h : a.Before b) : a.Disjoint b := fun _ ha hb =>
  absurd (Nat.lt_of_lt_of_le ha.2 (Nat.le_trans h hb.1)) (Nat.lt_irrefl _)

end Part

/-! ## Stacks -/

/-- The parts are placed one behind the other between the two offsets. Gaps are allowed, since parts are
aligned. -/
inductive Stacked : Nat → List Part → Nat → Prop where
  | nil {lo hi : Nat} (h : lo ≤ hi) : Stacked lo [] hi
  | cons {lo hi : Nat} {a : Part} {parts : List Part} (h : lo ≤ a.offset)
    (rest : Stacked a.stop parts hi) : Stacked lo (a :: parts) hi

namespace Stacked

variable {lo mid hi : Nat} {as bs : List Part}

theorem single {a : Part} (h : lo ≤ a.offset) (h' : a.stop ≤ hi) : Stacked lo [a] hi :=
  .cons h (.nil h')

/-- A stack does not end before it begins, even if nothing is in it. -/
theorem le (h : Stacked lo as hi) : lo ≤ hi := by
  induction h with
  | nil h => exact h
  | @cons lo hi a parts h _ ih => exact Nat.le_trans h (Nat.le_trans (Nat.le_add_right _ _) ih)

theorem append (h : Stacked lo as mid) (h' : Stacked mid bs hi) : Stacked lo (as ++ bs) hi := by
  induction h with
  | nil h =>
    cases h' with
    | nil h'' => exact .nil (Nat.le_trans h h'')
    | cons h'' rest => exact .cons (Nat.le_trans h h'') rest
  | cons h _ ih => exact .cons h (ih h')

/-- No part begins below the stack or ends above it. -/
theorem within (h : Stacked lo as hi) : ∀ a ∈ as, lo ≤ a.offset ∧ a.stop ≤ hi := by
  induction h with
  | nil => simp
  | @cons lo hi a parts h rest ih =>
    intro b hb
    rcases List.mem_cons.1 hb with rfl | hb
    · exact ⟨h, rest.le⟩
    · obtain ⟨hlo, hhi⟩ := ih b hb
      exact ⟨Nat.le_trans h (Nat.le_trans (Nat.le_add_right _ _) hlo), hhi⟩

/-- **Every part ends before the next begins.** -/
theorem pairwise (h : Stacked lo as hi) : as.Pairwise Part.Before := by
  induction h with
  | nil => exact .nil
  | cons _ rest ih => exact .cons (fun b hb => (rest.within b hb).1) ih

end Stacked

/-- The start of a record is a multiple of every alignment. -/
theorem alignUp_zero (align : Nat) : alignUp 0 align = 0 :=
  Nat.le_zero.1 (alignUp_le (Nat.le_refl 0) (Nat.dvd_zero align))

/-! ## Base classes -/

/-- A base class with its placement and its offset in the record. What is handed to `placeBases` and
what it answers are two lists; here they are one, of which both are read off (`BaseAt.source`,
`BaseAt.place`). -/
structure BaseAt where
  id : DeclId
  placement : Placement
  offset : Nat
deriving DecidableEq, Repr, Inhabited

/-- What was placed. -/
def BaseAt.source (b : BaseAt) : DeclId × Placement := (b.id, b.placement)

/-- Where it was placed. -/
def BaseAt.place (b : BaseAt) : DeclId × Nat := (b.id, b.offset)

/-- The room that a base class takes up, which is its size without the virtual bases: these are placed
once for the whole hierarchy. -/
def BaseAt.part (b : BaseAt) : Part := ⟨b.offset, b.placement.ownSize⟩

/-- The parts of base classes that are not empty. Empty ones take up no room and may lie where anything
else is. -/
def baseParts (bs : List BaseAt) : List Part :=
  (bs.filter (!·.placement.isEmpty)).map BaseAt.part

theorem baseParts_append (bs bs' : List BaseAt) :
    baseParts (bs ++ bs') = baseParts bs ++ baseParts bs' := by
  simp [baseParts]

/-- The base classes are placed from one cursor to the other. The fields are what the step for one base
shows and what putting two lists together keeps, so that `placeBases_eq` is an induction with nothing
but these two. -/
structure BasesAt (c : Cursor) (bs : List BaseAt) (c' : Cursor) : Prop where
  stacked : Stacked c.offset (baseParts bs) c'.offset
  offset_of_isEmpty : ∀ b ∈ bs, b.placement.isEmpty → b.offset = 0
  aligned : ∀ b ∈ bs, 0 < b.placement.ownAlign → b.placement.ownAlign ∣ b.offset
  align_le : c.align ≤ c'.align

namespace BasesAt

variable {c c₁ c' : Cursor} {bs bs' : List BaseAt}

theorem nil : BasesAt c [] c := ⟨.nil (Nat.le_refl _), by simp, by simp, Nat.le_refl _⟩

theorem append (h : BasesAt c bs c₁) (h' : BasesAt c₁ bs' c') : BasesAt c (bs ++ bs') c' where
  stacked := baseParts_append bs bs' ▸ h.stacked.append h'.stacked
  offset_of_isEmpty b hb :=
    (List.mem_append.1 hb).elim (h.offset_of_isEmpty b) (h'.offset_of_isEmpty b)
  aligned b hb := (List.mem_append.1 hb).elim (h.aligned b) (h'.aligned b)
  align_le := Nat.le_trans h.align_le h'.align_le

/-- An empty base class takes no room at the start. -/
theorem empty {id : DeclId} {p : Placement} (hp : p.isEmpty) :
    BasesAt c [⟨id, p, 0⟩] { c with align := max c.align p.ownAlign } where
  stacked := by
    simp only [baseParts, List.filter_cons, hp]
    exact .nil (Nat.le_refl _)
  offset_of_isEmpty := by simp
  aligned := by simp
  align_le := Nat.le_max_left _ _

/-- Any other goes to the next offset that fits its alignment. -/
theorem single {id : DeclId} {p : Placement} (hp : p.isEmpty = false) :
    BasesAt c [⟨id, p, alignUp c.offset p.ownAlign⟩]
      { offset := alignUp c.offset p.ownAlign + p.ownSize, align := max c.align p.ownAlign } where
  stacked := by
    simp only [baseParts, List.filter_cons, hp]
    exact .single (le_alignUp _ _) (Nat.le_refl _)
  offset_of_isEmpty := by simp [hp]
  aligned b hb hpos := by
    rw [List.mem_singleton.1 hb] at hpos ⊢
    exact dvd_alignUp _ hpos
  align_le := Nat.le_max_left _ _

end BasesAt

/-- **Base classes are placed as a stack**, empty ones aside. -/
theorem placeBases_eq :
    ∀ {ps : List (DeclId × Placement)} {c c' : Cursor} {placed : List (DeclId × Nat)},
      placeBases c ps = (c', placed) →
      ∃ bs : List BaseAt, bs.map BaseAt.source = ps ∧ placed = bs.map BaseAt.place ∧
        BasesAt c bs c'
  | [], c, c', placed, h => by
    cases h
    exact ⟨[], rfl, rfl, .nil⟩
  | (id, p) :: ps, c, c', placed, h => by
    unfold placeBases at h
    dsimp only at h
    split at h
    · next hempty =>
      cases h
      obtain ⟨bs, hps, hplaced, hbs⟩ := @placeBases_eq ps _ _ _ rfl
      refine ⟨⟨id, p, 0⟩ :: bs, congrArg _ hps, congrArg _ hplaced, ?_⟩
      exact (BasesAt.empty hempty).append hbs
    · next hfull =>
      cases h
      obtain ⟨bs, hps, hplaced, hbs⟩ := @placeBases_eq ps _ _ _ rfl
      refine ⟨⟨id, p, _⟩ :: bs, congrArg _ hps, congrArg _ hplaced, ?_⟩
      exact (BasesAt.single (Bool.eq_false_iff.2 hfull)).append hbs

/-- From the start on, the first base class is at the start. -/
theorem placeBases_head {c c' : Cursor} {x : DeclId × Placement} {ps : List (DeclId × Placement)}
    {y : DeclId × Nat} {placed : List (DeclId × Nat)} (hc : c.offset = 0)
    (h : placeBases c (x :: ps) = (c', y :: placed)) : y.2 = 0 := by
  obtain ⟨id, p⟩ := x
  unfold placeBases at h
  dsimp only at h
  split at h
  · cases h
    rfl
  · cases h
    change alignUp c.offset p.ownAlign = 0
    rw [hc, alignUp_zero]

/-- Empty base classes leave the offset where it is. -/
theorem placeBases_offset_of_isEmpty :
    ∀ {ps : List (DeclId × Placement)} {c : Cursor}, (∀ x ∈ ps, x.2.isEmpty) →
      (placeBases c ps).1.offset = c.offset
  | [], _, _ => rfl
  | (id, p) :: ps, c, h => by
    have hp : p.isEmpty := h (id, p) (by simp)
    unfold placeBases
    simp only [hp, if_true]
    exact placeBases_offset_of_isEmpty fun x hx => h x (by simp [hx])

/-! ## Fields -/

/-- A field with the layout of its type and its offset in the record. -/
structure FieldAt where
  field : FieldNode
  layout : TypeLayout
  offset : Nat
deriving DecidableEq, Repr, Inhabited

/-- The room that a field takes up: the width of a bitfield, or the size of its type. A bitfield shares
the storage unit of its type with its neighbours, so the unit would not do. -/
def FieldAt.part (f : FieldAt) : Part := ⟨f.offset, f.field.width?.getD f.layout.size⟩

/-- The fields are placed from one cursor to the other. As for base classes, but there is no field that
is skipped over; and a bitfield is neither aligned itself nor bounded by the alignment of the record. -/
structure FieldsAt (c : Cursor) (fs : List FieldAt) (c' : Cursor) : Prop where
  stacked : Stacked c.offset (fs.map FieldAt.part) c'.offset
  aligned : ∀ f ∈ fs, f.field.width? = none → 0 < f.layout.align → f.layout.align ∣ f.offset
  align_le : c.align ≤ c'.align
  le_align : ∀ f ∈ fs, f.field.width? = none → f.layout.align ≤ c'.align

namespace FieldsAt

variable {c c₁ c' : Cursor} {fs fs' : List FieldAt}

theorem nil : FieldsAt c [] c := ⟨.nil (Nat.le_refl _), by simp, Nat.le_refl _, by simp⟩

theorem append (h : FieldsAt c fs c₁) (h' : FieldsAt c₁ fs' c') : FieldsAt c (fs ++ fs') c' where
  stacked := by
    rw [List.map_append]
    exact h.stacked.append h'.stacked
  aligned f hf := (List.mem_append.1 hf).elim (h.aligned f) (h'.aligned f)
  align_le := Nat.le_trans h.align_le h'.align_le
  le_align f hf hwidth := (List.mem_append.1 hf).elim
    (fun hf => Nat.le_trans (h.le_align f hf hwidth) h'.align_le) fun hf => h'.le_align f hf hwidth

end FieldsAt

/-- One field. The three sorts of fields differ in the offset, and in whether they align the record;
what is common to them is proved first. -/
theorem placeField?_eq_some {c c' : Cursor} {f : FieldNode} {l : TypeLayout} {offset : Nat}
    (h : placeField? c f l = some (c', offset)) : FieldsAt c [⟨f, l, offset⟩] c' := by
  -- The facts about an offset from which the field is in place, whatever sort of field it is.
  have hfield : c.offset ≤ offset → c'.offset = offset + f.width?.getD l.size →
      (f.width? = none → offset = alignUp c.offset (max l.align 1)) → c.align ≤ c'.align →
      (f.width? = none → l.align ≤ c'.align) → FieldsAt c [⟨f, l, offset⟩] c' := by
    intro hle hstop haligned halign hown
    refine ⟨.single hle (Nat.le_of_eq hstop.symm), ?_, halign, ?_⟩
    · intro g hg hwidth hpos
      rw [List.mem_singleton.1 hg] at hwidth hpos ⊢
      dsimp only at hwidth hpos ⊢
      rw [haligned hwidth, Nat.max_eq_left hpos]
      exact dvd_alignUp _ hpos
    · intro g hg hwidth
      rw [List.mem_singleton.1 hg] at hwidth ⊢
      exact hown hwidth
  unfold placeField? at h
  dsimp only at h
  cases hwidth : f.width? with
  | none =>
    simp only [hwidth] at h hfield
    split at h
    · cases h
      exact hfield (le_alignUp _ _) rfl (fun _ => rfl) (Nat.le_max_left _ _)
        fun _ => Nat.le_max_right _ _
    · cases h
  | some width =>
    cases width with
    | zero =>
      simp only [hwidth] at h hfield
      cases h
      exact hfield (le_alignUp _ _) rfl (by simp) (Nat.le_refl _) (by simp)
    | succ width =>
      simp only [hwidth] at h hfield
      cases h
      refine hfield ?_ rfl (by simp) (Nat.le_max_left _ _) (by simp)
      split
      · exact le_alignUp _ _
      · exact Nat.le_refl _

/-- **Fields are placed as a stack**, with the layouts found for their types. The list of placed fields
is what the statements about records are about; offsets alone would not say what is there. -/
theorem placeFields_eq {layout : TypeId → Except LayoutError TypeLayout} {e : LayoutError} :
    ∀ {fs : List FieldNode} {c c' : Cursor} {offsets : List Nat},
      placeFields layout e c fs = .ok (c', offsets) →
      ∃ placed : List FieldAt, placed.map (·.field) = fs ∧ offsets = placed.map (·.offset) ∧
        (∀ f ∈ placed, layout f.field.type = .ok f.layout) ∧ FieldsAt c placed c'
  | [], c, c', offsets, h => by
    cases h
    exact ⟨[], rfl, rfl, by simp, .nil⟩
  | f :: fs, c, c', offsets, h => by
    unfold placeFields at h
    obtain ⟨l, hl, h⟩ := bind_eq_ok.1 h
    split at h
    · cases h
    next c₁ offset hfield =>
    obtain ⟨⟨c₂, offsets'⟩, hfields, h⟩ := bind_eq_ok.1 h
    cases h
    obtain ⟨placed, hplaced, hoffsets, hlayouts, hat⟩ := placeFields_eq hfields
    refine ⟨⟨f, l, offset⟩ :: placed, congrArg _ hplaced, congrArg _ hoffsets, ?_, ?_⟩
    · intro g hg
      rcases List.mem_cons.1 hg with rfl | hg
      · exact hl
      · exact hlayouts g hg
    · exact (placeField?_eq_some hfield).append hat

/-- The fields of a union are placed between the cursors, all at the start. They are no stack, and
instead of the order it is kept that none is longer than the union. -/
structure UnionAt (c : Cursor) (fs : List FieldAt) (c' : Cursor) : Prop where
  at_start : ∀ f ∈ fs, f.offset = 0
  fits : ∀ f ∈ fs, f.part.stop ≤ c'.offset
  offset_le : c.offset ≤ c'.offset
  align_le : c.align ≤ c'.align
  le_align : ∀ f ∈ fs, f.layout.align ≤ c'.align

/-- **The fields of a union are placed at the start**, and none sticks out. -/
theorem placeUnionFields_eq {layout : TypeId → Except LayoutError TypeLayout} :
    ∀ {fs : List FieldNode} {c c' : Cursor} {offsets : List Nat},
      placeUnionFields layout c fs = .ok (c', offsets) →
      ∃ placed : List FieldAt, placed.map (·.field) = fs ∧ offsets = placed.map (·.offset) ∧
        (∀ f ∈ placed, layout f.field.type = .ok f.layout) ∧ UnionAt c placed c'
  | [], c, c', offsets, h => by
    cases h
    exact ⟨[], rfl, rfl, by simp, by simp, by simp, Nat.le_refl _, Nat.le_refl _, by simp⟩
  | f :: fs, c, c', offsets, h => by
    unfold placeUnionFields at h
    obtain ⟨l, hl, h⟩ := bind_eq_ok.1 h
    obtain ⟨⟨c₂, offsets'⟩, hfields, h⟩ := bind_eq_ok.1 h
    cases h
    obtain ⟨placed, hplaced, hoffsets, hlayouts, hat⟩ := placeUnionFields_eq hfields
    refine ⟨⟨f, l, 0⟩ :: placed, congrArg _ hplaced, congrArg _ hoffsets, ?_, ?_⟩
    · exact List.forall_mem_cons.2 ⟨hl, hlayouts⟩
    · exact {
        at_start := List.forall_mem_cons.2 ⟨rfl, hat.at_start⟩
        fits := List.forall_mem_cons.2 ⟨by
          have hwidth : unionWidth f l ≤ _ := Nat.le_trans (Nat.le_max_right _ _) hat.offset_le
          simpa [Part.stop, FieldAt.part, unionWidth] using hwidth, hat.fits⟩
        offset_le := Nat.le_trans (Nat.le_max_left _ _) hat.offset_le
        align_le := Nat.le_trans (Nat.le_max_left _ _) hat.align_le
        le_align := List.forall_mem_cons.2
          ⟨Nat.le_trans (Nat.le_max_right _ _) hat.align_le, hat.le_align⟩ }

end ForeignDecl.Layout
