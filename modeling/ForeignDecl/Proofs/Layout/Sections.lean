import ForeignDecl.Proofs.Layout.Answers

/-!
# A record in sections

A record is laid out in sections: perhaps a pointer of its own, then its non-virtual bases, its fields
and the virtual bases of its hierarchy. `Lays` says what a placement is in terms of these sections and
where each of them ends; every placement comes about in this way (`lays_of_placement`).
-/

set_option autoImplicit false

namespace ForeignDecl.Layout

/-- What is placed into a record, and where the sections end. The cursors between the sections are not
part of a placement; they are kept here, so that a statement about a record can be proved section by
section. -/
structure Sections where
  /-- The bases that the record names, in the order of declaration. -/
  bases : List PlacedBase
  /-- The virtual bases of the hierarchy, in the order of placement. -/
  virtuals : List (DeclId × Placement)
  behindBases : Cursor
  behindFields : Cursor
  behindVirtuals : Cursor

/-- There is a pointer to virtual functions, and no base to lend one. Virtual bases do not lend one,
wherever they are placed. -/
def Sections.hasOwnPointer (x : Sections) (r : RecordNode) (p : Placement) : Bool :=
  p.isDynamic && r.isCxx && !(directBases x.bases).any (·.2.isDynamic)

/-- The placed base is what a base specifier stands for. It is known under its canonical declaration,
whereas its placement is that of the declaration which the specifier names: of a class that is declared
and then defined only the latter has one. -/
structure IsBase (u : TranslationUnit) (place : DeclId → Except LayoutError Placement)
    (b : BaseSpecifier) (placed : PlacedBase) : Prop where
  id : placed.id = u.canonical b.record
  isVirtual : placed.isVirtual = b.isVirtual
  placement : place b.record = .ok placed.placement

/-- The record `r` that `d` declares is laid out as `p`, in the sections `x`. Each field of the
structure is one step of `placeRecord` with what it answered, and together they are all that it does:
nothing about records is proved by unfolding it again. -/
structure Lays (u : TranslationUnit) (t : Target) (layout : TypeId → Except LayoutError TypeLayout)
    (place : DeclId → Except LayoutError Placement) (d : DeclId) (r : RecordNode) (x : Sections)
    (p : Placement) : Prop where
  record : (u.node d).record? = some r
  isComplete : r.isComplete
  isDependent : r.isDependent = false
  bases : List.Forall₂ (IsBase u place) r.bases x.bases
  placedBases : placeBases (startCursor t (x.hasOwnPointer r p)) (primaryFirst (directBases x.bases)) =
    (x.behindBases, p.bases)
  placedFields :
    (if r.isUnion then placeUnionFields layout x.behindBases ((u.fieldsAmong r.members).map (·.2))
      else placeFields layout (.tooLarge (u.displayName d)) x.behindBases
        ((u.fieldsAmong r.members).map (·.2))) = .ok (x.behindFields, p.fieldOffsets)
  virtuals : List.Forall₂ (fun id v => v.1 = id ∧ place id = .ok v.2) (virtualIds x.bases) x.virtuals
  placedVirtuals : placeBases x.behindFields x.virtuals = (x.behindVirtuals, p.virtualBases)
  size : p.size =
    if alignUp x.behindVirtuals.offset x.behindVirtuals.align = 0 && r.isCxx then 8
    else alignUp x.behindVirtuals.offset x.behindVirtuals.align
  align : p.align = x.behindVirtuals.align
  ownSize : p.ownSize = alignUp x.behindFields.offset x.behindFields.align
  ownAlign : p.ownAlign = x.behindFields.align
  isDynamic : p.isDynamic = (r.members.any (fun m => (u.node m).isVirtualMethod) ||
    x.bases.any fun b => b.isVirtual || b.placement.isDynamic)
  isEmpty : p.isEmpty = (r.isCxx && (u.fieldsAmong r.members).isEmpty && !p.isDynamic &&
    x.bases.all fun b => b.placement.isEmpty && !b.isVirtual)

section Inversion

variable {u : TranslationUnit} {t : Target} {layout : TypeId → Except LayoutError TypeLayout}
  {place : DeclId → Except LayoutError Placement} {d : DeclId} {p : Placement}

/-- The bases are those that the record names, in the order in which it names them. -/
theorem isBase_of_namedBases {r : RecordNode} {bases : List PlacedBase}
    (h : namedBases u place r = .ok bases) : List.Forall₂ (IsBase u place) r.bases bases :=
  (mapM_eq_ok h).imp fun b placed hb => by
    obtain ⟨q, hq, hb⟩ := bind_eq_ok.1 hb
    cases hb
    exact ⟨rfl, rfl, hq⟩

/-- Each virtual base is laid out on its own, and it is asked for by its canonical declaration. -/
theorem placement_of_virtualsOf {bases : List PlacedBase} {virtuals : List (DeclId × Placement)}
    (h : virtualsOf place bases = .ok virtuals) :
    List.Forall₂ (fun id v => v.1 = id ∧ place id = .ok v.2) (virtualIds bases) virtuals :=
  (mapM_eq_ok h).imp fun id v hv => by
    obtain ⟨q, hq, hv⟩ := bind_eq_ok.1 hv
    cases hv
    exact ⟨rfl, hq⟩

/-- The inversion of `placeRecord`: a record that is placed was placed in sections. With
`placeRecord_of_placement` it can be used for what the oracle answers (`lays_of_placement`). -/
theorem lays_of_placeRecord (h : placeRecord u t layout place d = .ok p) :
    ∃ r x, Lays u t layout place d r x p := by
  obtain ⟨r, hrecord, hcomplete, hdependent, h⟩ := placeRecord_eq_ok h
  obtain ⟨bases, hbases, h⟩ := bind_eq_ok.1 h
  obtain ⟨⟨behindFields, offsets⟩, hfields, h⟩ := bind_eq_ok.1 h
  obtain ⟨virtuals, hvirtuals, h⟩ := bind_eq_ok.1 h
  cases h
  refine ⟨r, ⟨bases, virtuals, (placedDirect u t r bases).1, behindFields,
    (placeBases behindFields virtuals).1⟩, ?_⟩
  exact {
    record := hrecord
    isComplete := hcomplete
    isDependent := hdependent
    bases := isBase_of_namedBases hbases
    placedBases := rfl
    placedFields := hfields
    virtuals := placement_of_virtualsOf hvirtuals
    placedVirtuals := rfl
    size := rfl
    align := rfl
    ownSize := rfl
    ownAlign := rfl
    isDynamic := rfl
    isEmpty := by simp [assemble] }

/-! ## What a record takes over from its bases -/

/-- Placing base classes does not change their order. -/
theorem placeBases_ids : ∀ (ps : List (DeclId × Placement)) (c : Cursor),
    (placeBases c ps).2.map (·.1) = ps.map (·.1)
  | [], _ => rfl
  | y :: ps, c => by
    unfold placeBases
    dsimp only
    split
    · exact congrArg (y.1 :: ·) (placeBases_ids ps _)
    · exact congrArg (y.1 :: ·) (placeBases_ids ps _)

/-- Putting the first dynamic base in front loses none and adds none. -/
theorem primaryFirst_perm (direct : List (DeclId × Placement)) :
    (primaryFirst direct).Perm direct := by
  unfold primaryFirst
  split
  · next primary hprimary =>
    obtain ⟨hdynamic, before, behind, rfl, hbefore⟩ := List.find?_eq_some_iff_append.1 hprimary
    have herase : (before ++ primary :: behind).eraseP (·.2.isDynamic) = before ++ behind := by
      rw [List.eraseP_append_right _ (by simpa using hbefore)]
      simp [hdynamic]
    rw [herase]
    exact List.perm_middle.symm
  · exact .refl _

theorem mem_primaryFirst {direct : List (DeclId × Placement)} {x : DeclId × Placement} :
    x ∈ primaryFirst direct ↔ x ∈ direct := (primaryFirst_perm direct).mem_iff

/-- In two lists of one length, related element by element, what is in the left one has a partner. -/
theorem exists_right_of_forall₂ {α β : Type} {R : α → β → Prop} {as : List α} {bs : List β}
    (h : List.Forall₂ R as bs) : ∀ a ∈ as, ∃ b ∈ bs, R a b := by
  induction h with
  | nil => simp
  | @cons a b as bs hab _ ih =>
    intro a' ha'
    rcases List.mem_cons.1 ha' with rfl | ha'
    · exact ⟨b, by simp, hab⟩
    · obtain ⟨b', hb', h⟩ := ih a' ha'
      exact ⟨b', by simp [hb'], h⟩

namespace Lays

variable {r : RecordNode} {x : Sections} (h : Lays u t layout place d r x p)

include h

/-- From a base that the record names to the placed one, and back. -/
theorem exists_placed {b : BaseSpecifier} (hb : b ∈ r.bases) :
    ∃ placed ∈ x.bases, IsBase u place b placed := exists_right_of_forall₂ h.bases b hb

theorem exists_specifier {placed : PlacedBase} (hplaced : placed ∈ x.bases) :
    ∃ b ∈ r.bases, IsBase u place b placed := exists_right_of_forall₂ h.bases.flip placed hplaced

/-- A record is dynamic if it has a virtual member function or a virtual base, or a base is dynamic. -/
theorem isDynamic_iff : p.isDynamic ↔ (∃ m ∈ r.members, (u.node m).isVirtualMethod) ∨
    ∃ b ∈ r.bases, b.isVirtual ∨ ∃ q, place b.record = .ok q ∧ q.isDynamic := by
  have hbases : (∃ placed ∈ x.bases, placed.isVirtual ∨ placed.placement.isDynamic) ↔
      ∃ b ∈ r.bases, b.isVirtual ∨ ∃ q, place b.record = .ok q ∧ q.isDynamic := by
    constructor
    · rintro ⟨placed, hplaced, hdynamic⟩
      obtain ⟨b, hb, hbase⟩ := h.exists_specifier hplaced
      rw [hbase.isVirtual] at hdynamic
      exact ⟨b, hb, hdynamic.imp id fun hq => ⟨_, hbase.placement, hq⟩⟩
    · rintro ⟨b, hb, hdynamic⟩
      obtain ⟨placed, hplaced, hbase⟩ := h.exists_placed hb
      refine ⟨placed, hplaced, hdynamic.imp (hbase.isVirtual ▸ id) fun ⟨q, hq, hd⟩ => ?_⟩
      cases hbase.placement.symm.trans hq
      exact hd
  rw [← hbases, h.isDynamic]
  simp

/-- A record is empty if it is one of C++ that has no fields, is not dynamic, and has empty bases
only. -/
theorem isEmpty_iff : p.isEmpty ↔ r.isCxx ∧ u.fieldsAmong r.members = [] ∧ p.isDynamic = false ∧
    ∀ b ∈ r.bases, b.isVirtual = false ∧ ∃ q, place b.record = .ok q ∧ q.isEmpty := by
  have hbases : (∀ placed ∈ x.bases, placed.placement.isEmpty ∧ placed.isVirtual = false) ↔
      ∀ b ∈ r.bases, b.isVirtual = false ∧ ∃ q, place b.record = .ok q ∧ q.isEmpty := by
    constructor
    · intro hall b hb
      obtain ⟨placed, hplaced, hbase⟩ := h.exists_placed hb
      obtain ⟨hempty, hvirtual⟩ := hall placed hplaced
      exact ⟨hbase.isVirtual ▸ hvirtual, _, hbase.placement, hempty⟩
    · intro hall placed hplaced
      obtain ⟨b, hb, hbase⟩ := h.exists_specifier hplaced
      obtain ⟨hvirtual, q, hq, hempty⟩ := hall b hb
      cases hbase.placement.symm.trans hq
      exact ⟨hempty, hbase.isVirtual.trans hvirtual⟩
  rw [← hbases, h.isEmpty]
  simp [and_assoc]

/-- A record ends behind its last section. -/
theorem offset_le_size : x.behindVirtuals.offset ≤ p.size := by
  rw [h.size]
  split
  · next hzero =>
    have hle := le_alignUp x.behindVirtuals.offset x.behindVirtuals.align
    simp only [Bool.and_eq_true, decide_eq_true_eq] at hzero
    omega
  · exact le_alignUp _ _

/-- The virtual bases are placed in the order in which they were collected. -/
theorem virtualOrder_eq : p.virtualOrder = virtualIds x.bases := by
  have hvirtuals : List.Forall₂ Eq (virtualIds x.bases) (x.virtuals.map (·.1)) :=
    List.forall₂_map_right_iff.2 (h.virtuals.imp fun _ _ hv => hv.1.symm)
  rw [List.forall₂_eq_eq_eq] at hvirtuals
  rw [Placement.virtualOrder, hvirtuals, ← placeBases_ids x.virtuals x.behindFields, h.placedVirtuals]

theorem nodup_virtualOrder : p.virtualOrder.Nodup := by
  rw [h.virtualOrder_eq]
  exact OrderedSet.nodup _

/-- The virtual bases of a hierarchy are those that the record names and those of its bases. One step of
the hierarchy; the whole is followed in `Layout/Bases.lean`. -/
theorem mem_virtualOrder_iff {id : DeclId} : id ∈ p.virtualOrder ↔ ∃ b ∈ r.bases,
    (b.isVirtual ∧ u.canonical b.record = id) ∨
      ∃ q, place b.record = .ok q ∧ id ∈ q.virtualOrder := by
  have hids : id ∈ virtualIds x.bases ↔ ∃ placed ∈ x.bases,
      (placed.isVirtual ∧ placed.id = id) ∨ id ∈ placed.placement.virtualOrder := by
    rw [virtualIds, ← OrderedSet.mem_def, OrderedSet.mem_ofList, List.mem_flatMap]
    refine exists_congr fun placed => and_congr_right fun _ => ?_
    rw [virtualIdsOf, List.mem_append, or_comm]
    cases placed.isVirtual <;> simp [eq_comm]
  rw [h.virtualOrder_eq, hids]
  constructor
  · rintro ⟨placed, hplaced, hid⟩
    obtain ⟨b, hb, hbase⟩ := h.exists_specifier hplaced
    rw [hbase.isVirtual, hbase.id] at hid
    exact ⟨b, hb, hid.imp (fun hv => hv) fun hid => ⟨_, hbase.placement, hid⟩⟩
  · rintro ⟨b, hb, hid⟩
    obtain ⟨placed, hplaced, hbase⟩ := h.exists_placed hb
    rw [← hbase.isVirtual, ← hbase.id] at hid
    refine ⟨placed, hplaced, hid.imp (fun hv => hv) fun ⟨q, hq, hmem⟩ => ?_⟩
    cases hbase.placement.symm.trans hq
    exact hmem

end Lays

end Inversion

/-- **Every placement comes about in sections**, and the parts are laid out as they are on their own. -/
theorem lays_of_placement {u : TranslationUnit} {t : Target} {d : DeclId} {p : Placement}
    (h : placement u t d = .ok p) : ∃ r x, Lays u t (typeLayout u t) (placement u t) d r x p :=
  lays_of_placeRecord (placeRecord_of_placement h)

end ForeignDecl.Layout
