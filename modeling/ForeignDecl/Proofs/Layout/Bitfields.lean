import ForeignDecl.Proofs.Layout.Alignment
import ForeignDecl.Proofs.Unit.Resolution

/-!
# Bitfields and their units

A storage unit of a type is as large as the type and may begin wherever the type may be put: at any
multiple of its alignment. The bits of a bitfield are in one such unit, whatever was placed before it
(`record_keepsUnits`).

Where integral types are aligned to their size, the units are the cells of a grid, and it is the same to
say that the first and the last bit are in one cell. A `long long` of a 32 bit ABI of the i386 family is
aligned to half its size, so there two units may overlap. A bitfield of more than half a `long long` that
begins in the second half of a cell reaches into the next cell, and `record_keepsUnits` says that no
other one does.

The placement itself looks at the alignment alone: a bitfield stays where it is if it does not cross a
multiple of the alignment, else it goes to the next one (`placeField?_bitfield`). The rest is about what
integral types are aligned to (`align_of_isIntegral`).
-/

set_option autoImplicit false

namespace ForeignDecl

namespace TranslationUnit

/-- Through sugar, typedefs and aliases, `t` is the type `c`. What a record is laid out with is the type
at the end of the chain, whatever names lead to it (`exists_typeLayoutWithin_of_standsFor`). -/
def StandsFor (u : TranslationUnit) (t : TypeId) (c : CType) : Prop :=
  ∃ t', Relation.ReflTransGen u.Names t t' ∧ u.type t' = c

/-- `t` is an integral type or an enumeration: the types that a bitfield may be declared with. -/
def IsIntegral (u : TranslationUnit) (t : TypeId) : Prop :=
  (∃ kind, kind.isIntegral ∧ u.StandsFor t (.builtin kind)) ∨ ∃ d, u.StandsFor t (.enum d)

end TranslationUnit

namespace Layout

variable {u : TranslationUnit} {t : Target}

/-! ## Units -/

/-- The bits of a part are in one unit of a type: in `size` bits that begin at a multiple of `align`.
This is how the layout of a compiler for C sees a storage unit, and the only sense in which a bitfield of
a type that is aligned to less than its size has one (`KeepsUnit`). -/
def Part.HasUnit (a : Part) (size align : Nat) : Prop :=
  ∃ start, align ∣ start ∧ start ≤ a.offset ∧ a.offset + a.width ≤ start + size

/-- The bits of a part are all in one cell, if the record is cut into cells of `size` bits. Where a type
is aligned to its size this is the same as to have a unit; `placeField?` asks it of the alignment. -/
def Part.InUnit (a : Part) (size : Nat) : Prop := a.offset / size = (a.offset + a.width - 1) / size

instance (a : Part) (size : Nat) : Decidable (a.InUnit size) := inferInstanceAs (Decidable (_ = _))

theorem inUnit_of_dvd {a : Part} {size : Nat} (hoffset : size ∣ a.offset) (hpos : 0 < a.width)
    (hwidth : a.width ≤ size) : a.InUnit size := by
  obtain ⟨k, hk⟩ := hoffset
  have hsize : 0 < size := Nat.lt_of_lt_of_le hpos hwidth
  have hlast : a.offset + a.width - 1 = a.width - 1 + size * k := by omega
  rw [Part.InUnit, hlast, hk, Nat.mul_div_cancel_left _ hsize, Nat.add_mul_div_left _ _ hsize,
    Nat.div_eq_of_lt (by omega), Nat.zero_add]

/-- A part that is in one cell of the alignment, or begins one, has a unit of the type if it is not wider
than the type. -/
theorem hasUnit_of_inUnit_or_dvd {a : Part} {size align : Nat} (halign : 0 < align) (hle : align ≤ size)
    (hwidth : a.width ≤ size) (h : a.InUnit align ∨ align ∣ a.offset) : a.HasUnit size align := by
  rcases h with hin | hdvd
  · -- The unit begins with the cell that holds all bits, and the cell is not larger than the unit.
    refine ⟨align * (a.offset / align), Nat.dvd_mul_right _ _, Nat.mul_div_le _ _, ?_⟩
    have hlast : a.offset + a.width - 1 < align * (a.offset / align) + align := by
      rw [Part.InUnit] at hin
      rw [hin]
      exact Nat.lt_mul_div_succ (a.offset + a.width - 1) halign
    omega
  · exact ⟨a.offset, hdvd, Nat.le_refl _, Nat.add_le_add_left hwidth _⟩

/-! ## Where a bitfield goes -/

/-- A bitfield stays in the cell of the alignment in which it would begin, or it begins a new one. -/
theorem placeField?_bitfield {c c' : Cursor} {f : FieldNode} {l : TypeLayout} {offset width : Nat}
    (hwidth : f.width? = some width) (hpos : 0 < width) (halign : 0 < l.align)
    (h : placeField? c f l = some (c', offset)) :
    Part.InUnit ⟨offset, width⟩ l.align ∨ l.align ∣ offset := by
  obtain ⟨width, rfl⟩ := Nat.exists_eq_succ_of_ne_zero (Nat.ne_of_gt hpos)
  unfold placeField? at h
  simp only [hwidth, Nat.max_eq_left halign] at h
  cases h
  split
  · exact .inr (dvd_alignUp _ halign)
  · next hstays => exact .inl (not_not.1 hstays)

/-- What holds of each field that is placed holds of all. -/
theorem forall₂_of_placeFields {layout : TypeId → Except LayoutError TypeLayout} {e : LayoutError}
    {P : FieldNode → Nat → Prop}
    (hP : ∀ {c c' f l offset}, layout f.type = .ok l → placeField? c f l = some (c', offset) →
      P f offset) :
    ∀ {fs : List FieldNode} {c c' : Cursor} {offsets : List Nat},
      placeFields layout e c fs = .ok (c', offsets) → List.Forall₂ P fs offsets
  | [], c, c', offsets, h => by
    cases h
    exact .nil
  | f :: fs, c, c', offsets, h => by
    unfold placeFields at h
    obtain ⟨l, hl, h⟩ := bind_eq_ok.1 h
    split at h
    · cases h
    next c₁ offset hfield =>
    obtain ⟨⟨c₂, offsets'⟩, hfields, h⟩ := bind_eq_ok.1 h
    cases h
    exact .cons (hP hl hfield) (forall₂_of_placeFields hP hfields)

/-! ## Layouts of names -/

/-- A name is laid out as what it names. -/
theorem typeLayoutWithin_of_names {place : DeclId → Except LayoutError Placement} {id id' : TypeId}
    (h : u.Names id id') (fuel : Nat) :
    typeLayoutWithin u t place (fuel + 1) id = typeLayoutWithin u t place fuel id' := by
  cases h with
  | elaborated h => simp only [typeLayoutWithin, h]
  | paren h => simp only [typeLayoutWithin, h]
  | typedef h halias => simp only [typeLayoutWithin, h, halias]

/-- So a type that stands for another one has its layout. Each name on the way costs some fuel, and for
a type that has a layout there was enough. -/
theorem exists_typeLayoutWithin_of_standsFor {place : DeclId → Except LayoutError Placement}
    {id id' : TypeId} (h : Relation.ReflTransGen u.Names id id') {fuel : Nat} {l : TypeLayout}
    (hl : typeLayoutWithin u t place fuel id = .ok l) :
    ∃ fuel', typeLayoutWithin u t place fuel' id' = .ok l := by
  induction h using Relation.ReflTransGen.head_induction_on generalizing fuel with
  | refl => exact ⟨fuel, hl⟩
  | head hnames _ ih =>
    cases fuel with
    | zero => cases hl
    | succ fuel => exact ih (typeLayoutWithin_of_names hnames fuel ▸ hl)

/-- **An integral type is aligned to its size**, but for `long long` where it is packed. -/
theorem align_of_isIntegral {triple : String} (ht : Target.ofTriple? triple = .ok t) {id : TypeId}
    {l : TypeLayout} (hid : u.IsIntegral id) (hl : typeLayout u t id = .ok l) :
    l.align = l.size ∨ Target.PacksLongLong triple ∧ l = ⟨64, 32⟩ := by
  rcases hid with ⟨kind, hkind, id', hnames, htype⟩ | ⟨d, id', hnames, htype⟩
  · obtain ⟨fuel, hlayout⟩ := exists_typeLayoutWithin_of_standsFor hnames hl
    cases fuel with
    | zero => cases hlayout
    | succ fuel =>
      rw [typeLayoutWithin, htype] at hlayout
      dsimp only at hlayout
      split at hlayout
      · next l' hl' =>
        cases hlayout
        exact Target.align_of_isIntegral ht hkind hl'
      · cases hlayout
  · obtain ⟨fuel, hlayout⟩ := exists_typeLayoutWithin_of_standsFor hnames hl
    cases fuel with
    | zero => cases hlayout
    | succ fuel =>
      rw [typeLayoutWithin, htype] at hlayout
      cases hlayout
      exact Target.align_of_isIntegral ht (show Builtin.int.isIntegral from rfl) rfl

/-! ## Bitfields of a record -/

/-- The part begins in the second half of a cell of `long long`, on a target that aligns the type to
half its size, and has more bits than a half. Such a part has a unit, but no cell. It is the only
exception that `KeepsUnit` makes, and the condition can be read off an entry: a width and an offset. -/
structure Outgrows (triple : String) (l : TypeLayout) (a : Part) : Prop where
  packs : Target.PacksLongLong triple
  layout : l = ⟨64, 32⟩
  lt_width : 32 < a.width
  offset_mod : a.offset % 64 = 32

/-- What was placed in one cell of the alignment, or at the start of one, is in one cell of the size unless
it outgrows a packed `long long`. -/
theorem inUnit_iff {triple : String} {l : TypeLayout} {a : Part}
    (halign : l.align = l.size ∨ Target.PacksLongLong triple ∧ l = ⟨64, 32⟩) (hpos : 0 < a.width)
    (hwidth : a.width ≤ l.size) (hplaced : a.InUnit l.align ∨ l.align ∣ a.offset) :
    a.InUnit l.size ↔ ¬ Outgrows triple l a := by
  rcases halign with hsize | ⟨hpacks, rfl⟩
  · have hin : a.InUnit l.size :=
      hplaced.elim (fun hin => hsize ▸ hin) fun hdvd => inUnit_of_dvd (hsize ▸ hdvd) hpos hwidth
    refine iff_of_true hin fun hout => ?_
    rw [hout.layout] at hsize
    cases hsize
  · have hout : Outgrows triple ⟨64, 32⟩ a ↔ 32 < a.width ∧ a.offset % 64 = 32 :=
      ⟨fun h => ⟨h.lt_width, h.offset_mod⟩, fun h => ⟨hpacks, rfl, h.1, h.2⟩⟩
    rw [hout]
    unfold Part.InUnit at hplaced ⊢
    dsimp only at hplaced hwidth ⊢
    omega

/-- The field `f` at `offset` is not a bitfield of an integral type, or its bits are in one unit of that
type, and in one cell of its size unless they outgrow it. -/
def KeepsUnit (u : TranslationUnit) (t : Target) (triple : String) (f : FieldNode) (offset : Nat) :
    Prop :=
  ∃ l, (natural u t).type f.type = .ok l ∧
    ∀ width, f.width? = some width → 0 < width → width ≤ l.size → u.IsIntegral f.type →
      Part.HasUnit ⟨offset, width⟩ l.size l.align ∧
        (Part.InUnit ⟨offset, width⟩ l.size ↔ ¬ Outgrows triple l ⟨offset, width⟩)

/-- What a step of placing does to one bitfield, put together: it is in one cell of the alignment or
begins one (`placeField?_bitfield`), and of an integral type it is known how the alignment is related to
the size (`align_of_isIntegral`). -/
theorem keepsUnit_of_placeField? {triple : String} (ht : Target.ofTriple? triple = .ok t)
    {c c' : Cursor} {f : FieldNode} {l : TypeLayout} {offset : Nat}
    (hl : typeLayout u t f.type = .ok l) (h : placeField? c f l = some (c', offset)) :
    KeepsUnit u t triple f offset := by
  obtain ⟨_, _, _, _, _, _, hcheck⟩ := Target.ofTriple?_eq_ok ht
  have hbyte : 8 ≤ l.align := le_align_of_typeLayout hcheck hl
  refine ⟨l, hl, fun width hwidth hpos hle hintegral => ?_⟩
  have halign := align_of_isIntegral ht hintegral hl
  have hplaced := placeField?_bitfield hwidth hpos (by omega) h
  have hsize : l.align ≤ l.size := by
    rcases halign with heq | ⟨-, rfl⟩
    · exact Nat.le_of_eq heq
    · decide
  exact ⟨hasUnit_of_inUnit_or_dvd (by omega) hsize hle hplaced,
    inUnit_iff halign hpos hle hplaced⟩

/-- **A bitfield of an integral type is in one storage unit of that type**, whatever goes before it. The
unit is a cell of the size of the type, but for a bitfield that outgrows a packed `long long`: that one
is in two cells. -/
theorem record_keepsUnits (u : TranslationUnit) {triple : String} {t : Target}
    (ht : Target.ofTriple? triple = .ok t) {d : DeclId} {r : RecordNode}
    (hr : (u.node d).record? = some r) (hunion : r.isUnion = false) {layout : RecordLayout}
    (h : (natural u t).record d = .ok layout) :
    List.Forall₂ (fun f offset => KeepsUnit u t triple f.2 offset) (u.fieldsAmong r.members)
      layout.fieldOffsets := by
  obtain ⟨p, hp, rfl⟩ := natural_record_eq_ok h
  obtain ⟨r', x, hlays⟩ := lays_of_placement hp
  cases hr.symm.trans hlays.record
  have hplaced := hlays.placedFields
  rw [hunion] at hplaced
  exact List.forall₂_map_left_iff.1
    (forall₂_of_placeFields (keepsUnit_of_placeField? ht) hplaced)

/-- Bitfields of an enumeration, of `bool` and of `long long` under another name, with fields between
them; and a record with a bitfield of `long long` behind an `int`, which has a unit but no cell. -/
def packed : TranslationUnit where
  file := "a.h"
  types := #[.builtin .int, .builtin .longLong, .builtin .bool, .builtin .char, .typedef ⟨0⟩,
    .elaborated ⟨6⟩, .enum ⟨1⟩]
  nodes := #[{ name := "wide", kind := .typedef ⟨1⟩ },
    { name := "E", kind := .enum [] },
    { name := "S", kind := .record { members := [⟨3⟩, ⟨4⟩, ⟨5⟩, ⟨6⟩, ⟨7⟩, ⟨8⟩] } },
    { name := "a", kind := .field { type := ⟨5⟩, width? := some 5 } },
    { name := "b", kind := .field { type := ⟨3⟩ } },
    { name := "c", kind := .field { type := ⟨2⟩, width? := some 1 } },
    { name := "d", kind := .field { type := ⟨4⟩, width? := some 20 } },
    { name := "e", kind := .field { type := ⟨4⟩, width? := some 60 } },
    { name := "f", kind := .field { type := ⟨0⟩ } },
    { name := "T", kind := .record { members := [⟨10⟩, ⟨11⟩] } },
    { name := "a", kind := .field { type := ⟨0⟩ } },
    { name := "b", kind := .field { type := ⟨1⟩, width? := some 33 } }]
  topLevel := #[⟨0⟩, ⟨1⟩, ⟨2⟩, ⟨9⟩]

theorem record_keepsUnits_packed :
    let t := Target.x86Linux
    let r : RecordNode := { members := [⟨3⟩, ⟨4⟩, ⟨5⟩, ⟨6⟩, ⟨7⟩, ⟨8⟩] }
    let r' : RecordNode := { members := [⟨10⟩, ⟨11⟩] }
    Target.ofTriple? "x86-linux" = .ok t ∧
      ((packed.node ⟨2⟩).record? = some r ∧ r.isUnion = false ∧
        (natural packed t).record ⟨2⟩ = .ok ⟨160, 32, [0, 8, 16, 32, 64, 128]⟩ ∧
        List.Forall₂ (fun f offset => KeepsUnit packed t "x86-linux" f.2 offset)
          (packed.fieldsAmong r.members) [0, 8, 16, 32, 64, 128]) ∧
      (packed.node ⟨9⟩).record? = some r' ∧ r'.isUnion = false ∧
        (natural packed t).record ⟨9⟩ = .ok ⟨96, 32, [0, 32]⟩ ∧
        List.Forall₂ (fun f offset => KeepsUnit packed t "x86-linux" f.2 offset)
          (packed.fieldsAmong r'.members) [0, 32] := by
  intro t r r'
  have ht := Target.ofTriple?_x86Linux
  have hr : (packed.node ⟨2⟩).record? = some r := by decide +kernel
  have hlayout : (natural packed t).record ⟨2⟩ = .ok ⟨160, 32, [0, 8, 16, 32, 64, 128]⟩ := by
    decide +kernel
  have hr' : (packed.node ⟨9⟩).record? = some r' := by decide +kernel
  have hlayout' : (natural packed t).record ⟨9⟩ = .ok ⟨96, 32, [0, 32]⟩ := by decide +kernel
  exact ⟨ht, ⟨hr, rfl, hlayout, record_keepsUnits packed ht hr rfl hlayout⟩, hr', rfl, hlayout',
    record_keepsUnits packed ht hr' rfl hlayout'⟩

/-- A bitfield of `long long` that is in two cells of its size: it begins behind an `int`, where a unit of
the type may begin as well. -/
theorem record_straddles_longLong :
    let t := Target.x86Linux
    ∃ r f, Target.ofTriple? "x86-linux" = .ok t ∧ (packed.node ⟨9⟩).record? = some r ∧
      r.isUnion = false ∧ packed.fieldsAmong r.members = [(⟨10⟩, { type := ⟨0⟩ }), (⟨11⟩, f)] ∧
      packed.IsIntegral f.type ∧ f.width? = some 33 ∧
      (natural packed t).record ⟨9⟩ = .ok ⟨96, 32, [0, 32]⟩ ∧
      (natural packed t).type f.type = .ok ⟨64, 32⟩ ∧ ¬ Part.InUnit ⟨32, 33⟩ 64 := by
  intro t
  exact ⟨{ members := [⟨10⟩, ⟨11⟩] }, { type := ⟨1⟩, width? := some 33 }, Target.ofTriple?_x86Linux,
    by decide +kernel, rfl, by decide +kernel, .inl ⟨.longLong, rfl, _, .refl, by decide +kernel⟩, rfl,
    by decide +kernel, by decide +kernel, by decide⟩

end Layout

end ForeignDecl
