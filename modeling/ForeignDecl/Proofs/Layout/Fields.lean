import ForeignDecl.Proofs.Layout.Alignment

/-!
# The fields of a record

What the placement of a record says about its fields, in a union or not: there is one offset for each,
their types are laid out inside the record as they are on their own, and the fields fit into the
record and its alignment (`exists_holds_of_placement`).
-/

set_option autoImplicit false

namespace ForeignDecl.Layout

variable {u : TranslationUnit} {t : Target} {d : DeclId} {r : RecordNode} {p : Placement}

/-- The record `r` that is placed as `p` has the fields `fs`, with the layouts of their types. It is
stated over the list `fs` of fields with their places and not over offsets by index, as that is how an
entry tells them; the two come together in `fieldOffsets`. Overlap is excluded by `inOrder`, which a
union does not have, and alignment is claimed for plain fields only, since a bitfield may start
anywhere. -/
structure Holds (u : TranslationUnit) (layout : TypeId → Except LayoutError TypeLayout)
    (r : RecordNode) (p : Placement) (fs : List FieldAt) : Prop where
  fields : fs.map (·.field) = (u.fieldsAmong r.members).map (·.2)
  fieldOffsets : p.fieldOffsets = fs.map (·.offset)
  layouts : ∀ f ∈ fs, layout f.field.type = .ok f.layout
  inside : ∀ f ∈ fs, f.part.stop ≤ p.size
  aligned : ∀ f ∈ fs, f.field.width? = none → 0 < f.layout.align → f.layout.align ∣ f.offset
  le_align : ∀ f ∈ fs, f.field.width? = none → f.layout.align ≤ p.align
  inOrder : r.isUnion = false → (fs.map FieldAt.part).Pairwise Part.Before

/-- There are as many offsets as fields, so an offset asked for by index is never missing. -/
theorem Holds.length_fieldOffsets {layout : TypeId → Except LayoutError TypeLayout}
    {fs : List FieldAt} (h : Holds u layout r p fs) :
    p.fieldOffsets.length = (u.fieldsAmong r.members).length := by
  have hlength := congrArg List.length h.fields
  rw [h.fieldOffsets]
  simpa using hlength

/-- The fields of a union and of a struct are placed by two functions, so there are two proofs; what is
said about the end of the record is the same for both, as virtual bases only come behind the fields. -/
theorem Lays.exists_holds {layout : TypeId → Except LayoutError TypeLayout}
    {place : DeclId → Except LayoutError Placement} {x : Sections}
    (h : Lays u t layout place d r x p) : ∃ fs, Holds u layout r p fs := by
  obtain ⟨_, _, _, hvirtuals⟩ := placeBases_eq h.placedVirtuals
  have hsize : x.behindFields.offset ≤ p.size := Nat.le_trans hvirtuals.stacked.le h.offset_le_size
  have halign : x.behindFields.align ≤ p.align := h.align ▸ hvirtuals.align_le
  have hplaced := h.placedFields
  split at hplaced
  · next hunion =>
    obtain ⟨fs, hfields, hoffsets, hlayouts, hat⟩ := placeUnionFields_eq hplaced
    exact ⟨fs, {
      fields := hfields
      fieldOffsets := hoffsets
      layouts := hlayouts
      inside := fun f hf => Nat.le_trans (hat.fits f hf) hsize
      aligned := fun f hf _ _ => hat.at_start f hf ▸ Nat.dvd_zero _
      le_align := fun f hf _ => Nat.le_trans (hat.le_align f hf) halign
      inOrder := fun hstruct => by simp [hunion] at hstruct }⟩
  · obtain ⟨fs, hfields, hoffsets, hlayouts, hat⟩ := placeFields_eq hplaced
    exact ⟨fs, {
      fields := hfields
      fieldOffsets := hoffsets
      layouts := hlayouts
      inside := fun f hf =>
        Nat.le_trans (hat.stacked.within f.part (List.mem_map_of_mem hf)).2 hsize
      aligned := hat.aligned
      le_align := fun f hf hwidth => Nat.le_trans (hat.le_align f hf hwidth) halign
      inOrder := fun _ => hat.stacked.pairwise }⟩

/-- **A record that is laid out holds its fields**, with layouts found inside of it. They are the
layouts found alone as well (`typeLayoutInside_refines`), unless one leads back into the record. -/
theorem exists_holds_of_placement (hr : (u.node d).record? = some r)
    (h : placement u t d = .ok p) : ∃ fs, Holds u (typeLayoutInside u t d) r p fs := by
  rw [placement_eq_placeRecord] at h
  obtain ⟨r', x, hlays⟩ := lays_of_placeRecord h
  cases hr.symm.trans hlays.record
  exact hlays.exists_holds

end ForeignDecl.Layout
