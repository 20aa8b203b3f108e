import Mathlib.Data.List.Perm.Basic
import ForeignDecl.Proofs.Layout.Alignment

/-!
# How a record is arranged

An `Arrangement` says where the base classes, the fields and the virtual bases of a record are, with
the layouts that they have on their own. A record that is laid out has one unless it is a union
(`Lays.exists_arrangement`), and in it the parts of the record are kept apart: no two of them overlap,
none sticks out of the record, and each is at a multiple of its alignment (`record_arrangement`).
-/

set_option autoImplicit false

namespace ForeignDecl.Layout

variable {u : TranslationUnit} {t : Target} {d : DeclId} {r : RecordNode} {p : Placement}

/-! ## Arrangements -/

/-- Where the parts of a record are. The lists are in the order of declaration, as far as there is one,
and not in that of placement: the first dynamic base is placed in front of the others. -/
structure Arrangement where
  /-- The direct non-virtual bases, in the order of declaration. -/
  bases : List BaseAt
  fields : List FieldAt
  /-- The virtual bases of the hierarchy, in the order of placement. -/
  virtuals : List BaseAt
deriving DecidableEq, Repr, Inhabited

/-- `a` is the arrangement of the record `r` that is placed as `p`: base classes and fields are those of
`r`, with the layouts that they have on their own, and they are where `p` says. Everything in `p` that
is not a number is determined here as well (which virtual bases there are, whether the record is dynamic
or empty), so that an arrangement is not about some other record of the same size. -/
structure Arranges (u : TranslationUnit) (t : Target) (r : RecordNode) (p : Placement)
    (a : Arrangement) : Prop where
  bases : List.Forall₂ (fun b placed => placed.id = u.canonical b.record ∧
    placement u t b.record = .ok placed.placement) (r.bases.filter (!·.isVirtual)) a.bases
  basePlaces : p.bases.Perm (a.bases.map BaseAt.place)
  fields : a.fields.map (·.field) = (u.fieldsAmong r.members).map (·.2)
  layouts : ∀ f ∈ a.fields, typeLayout u t f.field.type = .ok f.layout
  fieldOffsets : p.fieldOffsets = a.fields.map (·.offset)
  virtuals : ∀ b ∈ a.virtuals, placement u t b.id = .ok b.placement
  virtualPlaces : p.virtualBases = a.virtuals.map BaseAt.place
  /-- Each virtual base of the hierarchy is there once. -/
  virtuals_nodup : p.virtualOrder.Nodup
  mem_virtuals : ∀ v, v ∈ p.virtualOrder ↔ ∃ b ∈ r.bases,
    (b.isVirtual ∧ u.canonical b.record = v) ∨
      ∃ q, placement u t b.record = .ok q ∧ v ∈ q.virtualOrder
  isDynamic : p.isDynamic ↔ (∃ m ∈ r.members, (u.node m).isVirtualMethod) ∨
    ∃ b ∈ r.bases, b.isVirtual ∨ ∃ q, placement u t b.record = .ok q ∧ q.isDynamic
  isEmpty : p.isEmpty ↔ r.isCxx ∧ u.fieldsAmong r.members = [] ∧ p.isDynamic = false ∧
    ∀ b ∈ r.bases, b.isVirtual = false ∧ ∃ q, placement u t b.record = .ok q ∧ q.isEmpty

/-- The record's own pointer to virtual functions: a dynamic C++ record has one unless a direct
non-virtual base lends it its own. It is a part like the others, and nothing may be placed onto it. -/
def Arrangement.ownPointer (a : Arrangement) (t : Target) (r : RecordNode) (p : Placement) :
    List Part :=
  if p.isDynamic && r.isCxx && !a.bases.any (·.placement.isDynamic) then [⟨0, t.pointer.size⟩] else []

/-- Everything that takes up room in a record. Empty bases do not, and they are left out: they may be
where another part is. -/
def Arrangement.parts (a : Arrangement) (t : Target) (r : RecordNode) (p : Placement) : List Part :=
  a.ownPointer t r p ++
    (baseParts a.bases ++ (a.fields.map FieldAt.part ++ baseParts a.virtuals))

/-- The parts of a record do not get in each other's way. `disjoint` and `inside` are about all parts
together; the other fields say which part is where, and for which of them alignment is claimed. A
bitfield may begin at any bit, so none is claimed for it here. -/
structure Arrangement.KeepsApart (a : Arrangement) (t : Target) (r : RecordNode) (p : Placement) :
    Prop where
  disjoint : (a.parts t r p).Pairwise Part.Disjoint
  inside : ∀ part ∈ a.parts t r p, part.stop ≤ p.size
  bases_aligned : ∀ b ∈ a.bases ++ a.virtuals, b.placement.ownAlign ∣ b.offset
  fields_aligned : ∀ f ∈ a.fields, f.field.width? = none → f.layout.align ∣ f.offset
  fields_in_order : (a.fields.map FieldAt.part).Pairwise Part.Before
  bases_before_fields : ∀ b ∈ baseParts a.bases, ∀ f ∈ a.fields, b.Before f.part
  fields_before_virtuals : ∀ f ∈ a.fields, ∀ b ∈ baseParts a.virtuals, f.part.Before b
  /-- A record shares the pointer of its first dynamic base. -/
  primary_first : ∀ b, a.bases.find? (·.placement.isDynamic) = some b → b.offset = 0
  empty : ∀ b ∈ a.bases ++ a.virtuals, b.placement.isEmpty → b.placement.ownSize = 0 ∧ b.offset = 0

/-! ## The order of declaration -/

/-- Base classes that were placed with the first dynamic one in front are, in the order of declaration,
those that were declared; and the one in front is the first dynamic one of them. The order of placement
is undone here once, and what is proved about stacks in one order is carried over to the other by the
permutation. -/
theorem exists_declared {direct : List (DeclId × Placement)} {placed : List BaseAt}
    (h : placed.map BaseAt.source = primaryFirst direct) :
    ∃ declared : List BaseAt, declared.Perm placed ∧ declared.map BaseAt.source = direct ∧
      ∀ b, declared.find? (·.placement.isDynamic) = some b → placed.head? = some b := by
  unfold primaryFirst at h
  split at h
  · next primary hprimary =>
    obtain ⟨hdynamic, before, behind, rfl, hbefore⟩ := List.find?_eq_some_iff_append.1 hprimary
    have hstatic : ∀ x ∈ before, ¬ x.2.isDynamic := by simpa using hbefore
    have herase : (before ++ primary :: behind).eraseP (·.2.isDynamic) = before ++ behind := by
      rw [List.eraseP_append_right _ hstatic]
      simp [hdynamic]
    rw [herase] at h
    obtain ⟨b, rest, rfl, rfl, hrest⟩ := List.map_eq_cons_iff.1 h
    obtain ⟨bs, bs', rfl, rfl, rfl⟩ := List.map_eq_append_iff.1 hrest
    refine ⟨bs ++ b :: bs', List.perm_middle, by simp, fun b' hb' => ?_⟩
    have hfind : (bs ++ b :: bs').find? (·.placement.isDynamic) = some b := by
      rw [List.find?_eq_some_iff_append]
      refine ⟨hdynamic, bs, bs', rfl, fun x hx => ?_⟩
      have hx' : ¬ x.placement.isDynamic := hstatic x.source (List.mem_map_of_mem hx)
      simpa using hx'
    rw [hfind] at hb'
    rw [List.head?_cons, hb']
  · next hnone =>
    refine ⟨placed, .refl _, h, fun b hb => ?_⟩
    obtain ⟨hdynamic, _⟩ := List.find?_eq_some_iff_append.1 hb
    have hmem : b.source ∈ direct := h ▸ List.mem_map_of_mem (List.mem_of_find?_eq_some hb)
    exact absurd hdynamic (List.find?_eq_none.1 hnone _ hmem)

/-! ## Empty records -/

/-- **A record with nothing to store takes no room as a base class.** -/
theorem ownSize_of_isEmpty (h : placement u t d = .ok p) (hempty : p.isEmpty) : p.ownSize = 0 := by
  obtain ⟨r, x, hlays⟩ := lays_of_placement h
  rw [hlays.isEmpty] at hempty
  simp only [Bool.and_eq_true, Bool.not_eq_true', List.isEmpty_iff, List.all_eq_true] at hempty
  obtain ⟨⟨⟨_, hfields⟩, hstatic⟩, hbases⟩ := hempty
  -- There is no pointer, and neither the bases nor the fields move the cursor.
  have hpointer : x.hasOwnPointer r p = false := by simp [Sections.hasOwnPointer, hstatic]
  have hdirect : ∀ b ∈ primaryFirst (directBases x.bases), b.2.isEmpty := by
    intro b hb
    obtain ⟨b', hb', rfl⟩ := List.mem_map.1 (mem_primaryFirst.1 hb)
    exact (hbases b' (List.mem_of_mem_filter hb')).1
  have hbehindBases : x.behindBases.offset = 0 := by
    have hoffset := placeBases_offset_of_isEmpty (c := startCursor t (x.hasOwnPointer r p)) hdirect
    rw [hlays.placedBases, hpointer] at hoffset
    exact hoffset
  have hbehindFields : x.behindFields = x.behindBases := by
    have hplaced := hlays.placedFields
    rw [hfields] at hplaced
    split at hplaced
    · exact (Prod.mk.inj (Except.ok.inj hplaced)).1.symm
    · exact (Prod.mk.inj (Except.ok.inj hplaced)).1.symm
  rw [hlays.ownSize, hbehindFields, hbehindBases, alignUp_zero]

/-! ## Arranging a record -/

/-- The sections `x` are filled as `a` says: `placed` are its bases in the order of placement. This is
the link between the way a record is laid out and the way it is told: `KeepsApart` follows from it
without another look at the placement (`Fills.keepsApart`). -/
structure Fills (t : Target) (r : RecordNode) (p : Placement) (x : Sections) (a : Arrangement)
    (placed : List BaseAt) : Prop where
  declared : a.bases.Perm placed
  sources : a.bases.map BaseAt.source = directBases x.bases
  primary_first : ∀ b, a.bases.find? (·.placement.isDynamic) = some b → b.offset = 0
  bases : BasesAt (startCursor t (x.hasOwnPointer r p)) placed x.behindBases
  fields : FieldsAt x.behindBases a.fields x.behindFields
  virtuals : BasesAt x.behindFields a.virtuals x.behindVirtuals

section Filling

variable {x : Sections} {bs placed : List BaseAt}

/-- Which bases are placed tells whether there is a pointer of the record's own. -/
theorem hasOwnPointer_of_sources (h : bs.map BaseAt.source = directBases x.bases) :
    x.hasOwnPointer r p = (p.isDynamic && r.isCxx && !bs.any (·.placement.isDynamic)) := by
  rw [Sections.hasOwnPointer, ← h, List.any_map]
  rfl

/-- Every base has a placement of its own, and the place that its section gives it. -/
theorem Fills.base {a : Arrangement} (h : Fills t r p x a placed) (ha : Arranges u t r p a) :
    ∀ b ∈ a.bases ++ a.virtuals, (∃ d', placement u t d' = .ok b.placement) ∧
      (b.placement.isEmpty → b.offset = 0) ∧
      (0 < b.placement.ownAlign → b.placement.ownAlign ∣ b.offset) := by
  intro b hb
  rcases List.mem_append.1 hb with hb | hb
  · obtain ⟨specifier, _, _, hplacement⟩ := exists_right_of_forall₂ ha.bases.flip b hb
    have hb := h.declared.mem_iff.1 hb
    exact ⟨⟨_, hplacement⟩, h.bases.offset_of_isEmpty b hb, h.bases.aligned b hb⟩
  · exact ⟨⟨_, ha.virtuals b hb⟩, h.virtuals.offset_of_isEmpty b hb, h.virtuals.aligned b hb⟩

variable (hlays : Lays u t (typeLayout u t) (placement u t) d r x p)

include hlays

/-- The direct bases are those that the record names, with their placements. -/
theorem Lays.forall₂_of_sources (h : bs.map BaseAt.source = directBases x.bases) :
    List.Forall₂ (fun b placed => placed.id = u.canonical b.record ∧
      placement u t b.record = .ok placed.placement) (r.bases.filter (!·.isVirtual)) bs := by
  have hnonvirtual : List.Forall₂ (IsBase u (placement u t)) (r.bases.filter (!·.isVirtual))
      (x.bases.filter (!·.isVirtual)) := by
    refine List.rel_filter (fun b placed hb => ?_) hlays.bases
    dsimp only
    rw [hb.isVirtual]
  have hdirect : List.Forall₂ (fun b y => y.1 = u.canonical b.record ∧
      placement u t b.record = .ok y.2) (r.bases.filter (!·.isVirtual)) (directBases x.bases) :=
    List.forall₂_map_right_iff.2 (hnonvirtual.imp fun _ _ hb => ⟨hb.id, hb.placement⟩)
  rw [← h] at hdirect
  exact List.forall₂_map_right_iff.1 hdirect

/-- A dynamic base that is placed first is at the start, where its pointer is shared. -/
theorem Lays.offset_of_primary {b : BaseAt} (hdynamic : b.placement.isDynamic)
    (h : (b :: placed).map BaseAt.source = primaryFirst (directBases x.bases))
    (hplaces : p.bases = (b :: placed).map BaseAt.place) : b.offset = 0 := by
  have hmem : b.source ∈ directBases x.bases := by
    refine mem_primaryFirst.1 (h ▸ ?_)
    exact List.mem_map_of_mem List.mem_cons_self
  have hany : (directBases x.bases).any (·.2.isDynamic) := List.any_eq_true.2 ⟨_, hmem, hdynamic⟩
  have hlent : x.hasOwnPointer r p = false := by simp [Sections.hasOwnPointer, hany]
  have hplaced := hlays.placedBases
  rw [hlent, ← h, hplaces] at hplaced
  exact placeBases_head (by rfl) hplaced

/-- What was placed section by section is an arrangement. Each section gives its list of parts
(`placeBases_eq`, `placeFields_eq`), and the bases are put back into the order of declaration. -/
theorem Lays.exists_arrangement (hunion : r.isUnion = false) :
    ∃ a placed, Arranges u t r p a ∧ Fills t r p x a placed := by
  obtain ⟨placed, hsources, hplaces, hbases⟩ := placeBases_eq hlays.placedBases
  -- The bases were placed with the primary one in front; the arrangement has them as they are declared.
  obtain ⟨declared, hperm, hdeclared, hhead⟩ := exists_declared hsources
  have hplacedFields := hlays.placedFields
  rw [hunion] at hplacedFields
  obtain ⟨fields, hfields, hoffsets, hlayouts, hfieldsAt⟩ := placeFields_eq hplacedFields
  obtain ⟨virtuals, hvirtualSources, hvirtualPlaces, hvirtuals⟩ := placeBases_eq hlays.placedVirtuals
  refine ⟨⟨declared, fields, virtuals⟩, placed, ?_, ?_⟩
  · exact {
      bases := hlays.forall₂_of_sources hdeclared
      basePlaces := hplaces ▸ (hperm.map BaseAt.place).symm
      fields := hfields
      layouts := hlayouts
      fieldOffsets := hoffsets
      virtuals := fun b hb => by
        have hsource : b.source ∈ x.virtuals := hvirtualSources ▸ List.mem_map_of_mem hb
        obtain ⟨_, _, rfl, hplacement⟩ := exists_right_of_forall₂ hlays.virtuals.flip _ hsource
        exact hplacement
      virtualPlaces := hvirtualPlaces
      virtuals_nodup := hlays.nodup_virtualOrder
      mem_virtuals := fun _ => hlays.mem_virtualOrder_iff
      isDynamic := hlays.isDynamic_iff
      isEmpty := hlays.isEmpty_iff }
  · exact {
      declared := hperm
      sources := hdeclared
      primary_first := fun b hb => by
        have hdynamic : b.placement.isDynamic := (List.find?_eq_some_iff_append.1 hb).1
        obtain ⟨rest, rfl⟩ := List.head?_eq_some_iff.1 (hhead b hb)
        exact hlays.offset_of_primary hdynamic hsources hplaces
      bases := hbases
      fields := hfieldsAt
      virtuals := hvirtuals }

variable {a : Arrangement} (h : Fills t r p x a placed)

include h

/-- The parts are a stack, and the record ends above it. The four sections are stacks that begin where
the one before them ends, so they are put on top of each other; rounding the size up only adds to the
top. -/
theorem Fills.stacked : Stacked 0 (a.ownPointer t r p ++
    (baseParts placed ++ (a.fields.map FieldAt.part ++ baseParts a.virtuals))) p.size := by
  have hstart : Stacked 0 (a.ownPointer t r p) (startCursor t (x.hasOwnPointer r p)).offset := by
    rw [Arrangement.ownPointer, ← hasOwnPointer_of_sources h.sources]
    cases x.hasOwnPointer r p
    · exact .nil (Nat.le_refl _)
    · exact .single (Nat.le_refl _) (Nat.le_of_eq (Nat.zero_add _))
  have hall := hstart.append (h.bases.stacked.append (h.fields.stacked.append h.virtuals.stacked))
  simpa using hall.append (.nil hlays.offset_le_size)

/-- All that is claimed about the parts together is read off one stack. That a part is aligned is known
of each section, for alignments that are not zero; here these are at least a byte. -/
theorem Fills.keepsApart (ha : Arranges u t r p a) (ht : t.check = .ok ()) :
    a.KeepsApart t r p := by
  have hstacked := h.stacked hlays
  have hbase := h.base ha
  -- What holds of the parts in the order of placement holds of them in the order of declaration.
  have hparts : (baseParts a.bases).Perm (baseParts placed) := (h.declared.filter _).map _
  have hall : (a.parts t r p).Perm (a.ownPointer t r p ++
      (baseParts placed ++ (a.fields.map FieldAt.part ++ baseParts a.virtuals))) :=
    (hparts.append_right _).append_left _
  obtain ⟨_, hbelow, _⟩ := List.pairwise_append.1 hstacked.pairwise
  obtain ⟨_, hbelow, hbefore⟩ := List.pairwise_append.1 hbelow
  obtain ⟨hinOrder, _, hbehind⟩ := List.pairwise_append.1 hbelow
  exact {
    disjoint := (hall.pairwise_iff Part.Disjoint.symm).2 (hstacked.pairwise.imp Part.Before.disjoint)
    inside := fun part hpart => (hstacked.within part (hall.mem_iff.1 hpart)).2
    bases_aligned := fun b hb => by
      obtain ⟨⟨_, hplacement⟩, _, haligned⟩ := hbase b hb
      have hle := (le_align_of_placement hplacement).1
      exact haligned (by omega)
    fields_aligned := fun f hf hwidth => by
      have hle := le_align_of_typeLayout ht (ha.layouts f hf)
      exact h.fields.aligned f hf hwidth (by omega)
    fields_in_order := hinOrder
    bases_before_fields := fun b hb f hf => hbefore b (hparts.mem_iff.1 hb) _
      (List.mem_append_left _ (List.mem_map_of_mem hf))
    fields_before_virtuals := fun f hf b hb => hbehind _ (List.mem_map_of_mem hf) b hb
    primary_first := h.primary_first
    empty := fun b hb hempty => by
      obtain ⟨⟨_, hplacement⟩, hoffset, _⟩ := hbase b hb
      exact ⟨ownSize_of_isEmpty hplacement hempty, hoffset hempty⟩ }

end Filling

/-- **The parts of a record are kept apart**, in every record that is laid out and is not a union. The
arrangement names each part with its place: the pointer to the virtual table if the record has one of
its own, the bases, the fields and the virtual bases. It is the one that the answer was computed from
(`Arranges`), and what it promises is listed in `Arrangement.KeepsApart`. Nothing is said of the order
of the bases among each other beyond the primary one. -/
theorem record_arrangement (u : TranslationUnit) (t : Target) (ht : t.check = .ok ()) {d : DeclId}
    {r : RecordNode} (hr : (u.node d).record? = some r) (hunion : r.isUnion = false)
    {layout : RecordLayout} (h : (natural u t).record d = .ok layout) :
    ∃ p a, placement u t d = .ok p ∧ layout = ⟨p.size, p.align, p.fieldOffsets⟩ ∧
      Arranges u t r p a ∧ a.KeepsApart t r p := by
  obtain ⟨p, hp, h⟩ := bind_eq_ok.1 h
  cases h
  obtain ⟨r', x, hlays⟩ := lays_of_placement hp
  cases hr.symm.trans hlays.record
  obtain ⟨a, placed, ha, hfills⟩ := hlays.exists_arrangement hunion
  exact ⟨p, a, hp, rfl, ha, hfills.keepsApart hlays ha ht⟩

/-- A class with an empty base, a dynamic base and a virtual base, two bitfields and another field. -/
def mixed : TranslationUnit where
  file := "a.h"
  types := #[.builtin .int, .builtin .char, .builtin .short, .function ⟨0⟩ [] false]
  nodes := #[{ name := "V", kind := .record { members := [⟨1⟩], class? := some {} } },
    { name := "v", kind := .field { type := ⟨0⟩ } },
    { name := "E", kind := .record { class? := some {} } },
    { name := "B", kind := .record { members := [⟨4⟩, ⟨5⟩], class? := some {} } },
    { name := "f", kind := .method { function := { result := ⟨0⟩ }, isVirtual := true } },
    { name := "c", kind := .field { type := ⟨1⟩ } },
    { name := "D"
      kind := .record
        { members := [⟨7⟩, ⟨8⟩, ⟨9⟩]
          class? := some
            { bases := [{ record := ⟨2⟩ }, { record := ⟨3⟩ },
                { record := ⟨0⟩, isVirtual := true }] } } },
    { name := "x", kind := .field { type := ⟨0⟩, width? := some 3 } },
    { name := "y", kind := .field { type := ⟨0⟩, width? := some 31 } },
    { name := "z", kind := .field { type := ⟨2⟩ } }]
  topLevel := #[⟨0⟩, ⟨2⟩, ⟨3⟩, ⟨6⟩]

theorem record_arrangement_mixed :
    let t := Target.lp64 ""
    let layout : RecordLayout := ⟨256, 64, [128, 160, 192]⟩
    t.check = .ok () ∧ (natural mixed t).record ⟨6⟩ = .ok layout ∧
      ∃ r p a, (mixed.node ⟨6⟩).record? = some r ∧ r.isUnion = false ∧
        placement mixed t ⟨6⟩ = .ok p ∧ layout = ⟨p.size, p.align, p.fieldOffsets⟩ ∧
        Arranges mixed t r p a ∧ a.KeepsApart t r p := by
  intro t layout
  have ht : t.check = .ok () := by decide +kernel
  have hlayout : (natural mixed t).record ⟨6⟩ = .ok layout := by decide +kernel
  obtain ⟨p, a, hp, hsizes, ha, hapart⟩ :=
    record_arrangement mixed t ht (d := ⟨6⟩) rfl rfl hlayout
  exact ⟨ht, hlayout, _, p, a, rfl, rfl, hp, hsizes, ha, hapart⟩

end ForeignDecl.Layout
