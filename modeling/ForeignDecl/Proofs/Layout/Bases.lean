import Mathlib.Data.List.Nodup
import ForeignDecl.Proofs.Layout.Sections
import ForeignDecl.Proofs.Unit.Containment

/-!
# Which bases have a place

A record has a place for each of its direct bases that is not virtual, and one for each virtual base of
its whole hierarchy, on however many ways that base is inherited (`record_bases`). Base classes are
compared by their canonical declarations, but a hierarchy is followed through the declarations that the
base specifiers point to.
-/

set_option autoImplicit false

namespace ForeignDecl.Layout

variable {u : TranslationUnit} {t : Target} {d : DeclId} {p : Placement}

/-! ## Virtual bases of a hierarchy -/

/-- The virtual bases that are placed are some of the hierarchy. Induction on the fuel: a virtual base
was named by the record itself, or it was placed in one of its bases, and then it belongs to the
hierarchy of that base. -/
theorem hasVirtualBase_of_mem_virtualOrder : ∀ {fuel : Nat} {visiting : List DeclId} {d : DeclId}
    {p : Placement}, placementWithin u t fuel visiting d = .ok p →
      ∀ v ∈ p.virtualOrder, u.HasVirtualBase d v
  | 0, _, _, _, h => nomatch h
  | fuel + 1, visiting, d, p, h => by
    intro v hv
    unfold placementWithin at h
    dsimp only at h
    split at h
    · cases h
    obtain ⟨r, x, hlays⟩ := lays_of_placeRecord h
    obtain ⟨b, hb, ⟨hvirtual, hid⟩ | ⟨q, hq, hmem⟩⟩ := hlays.mem_virtualOrder_iff.1 hv
    · exact ⟨d, b, .refl, ⟨r, hlays.record, hb⟩, hvirtual, hid⟩
    · obtain ⟨d', b', hway, hbase⟩ := hasVirtualBase_of_mem_virtualOrder hq v hmem
      exact ⟨d', b', .head ⟨b, ⟨r, hlays.record, hb⟩, rfl⟩ hway, hbase⟩

/-- **The virtual bases that are placed are those of the whole hierarchy.** The way back is by induction
along the hierarchy from the class that names the virtual base down to the record: every class on it is
laid out, since the record is. -/
theorem mem_virtualOrder_iff_hasVirtualBase (h : placement u t d = .ok p) {v : DeclId} :
    v ∈ p.virtualOrder ↔ u.HasVirtualBase d v := by
  refine ⟨hasVirtualBase_of_mem_virtualOrder h v, ?_⟩
  rintro ⟨d', b, hway, ⟨r', hr', hb⟩, hvirtual, hid⟩
  induction hway using Relation.ReflTransGen.head_induction_on generalizing p with
  | refl =>
    obtain ⟨r, x, hlays⟩ := lays_of_placement h
    cases hr'.symm.trans hlays.record
    exact hlays.mem_virtualOrder_iff.2 ⟨b, hb, .inl ⟨hvirtual, hid⟩⟩
  | head hinherits _ ih =>
    obtain ⟨b₁, ⟨r₁, hr₁, hb₁⟩, rfl⟩ := hinherits
    obtain ⟨r, x, hlays⟩ := lays_of_placement h
    cases hr₁.symm.trans hlays.record
    obtain ⟨placed, _, hbase⟩ := hlays.exists_placed hb₁
    exact hlays.mem_virtualOrder_iff.2
      ⟨b₁, hb₁, .inr ⟨placed.placement, hbase.placement, ih hbase.placement⟩⟩

/-! ## Direct bases -/

/-- Which bases are placed is not changed by where they are placed. -/
theorem Lays.bases_ids {layout : TypeId → Except LayoutError TypeLayout}
    {place : DeclId → Except LayoutError Placement} {r : RecordNode} {x : Sections}
    (h : Lays u t layout place d r x p) :
    p.bases.map (·.1) = (primaryFirst (directBases x.bases)).map (·.1) := by
  rw [← placeBases_ids _ (startCursor t (x.hasOwnPointer r p)), h.placedBases]

/-- The direct bases are placed as they are named, and virtual ones are left to the virtual bases. -/
theorem mem_bases_iff_hasDirectBase (h : placement u t d = .ok p) {v : DeclId} :
    v ∈ p.bases.map (·.1) ↔ u.HasDirectBase d v := by
  obtain ⟨r, x, hlays⟩ := lays_of_placement h
  rw [hlays.bases_ids, ((primaryFirst_perm _).map _).mem_iff, directBases, List.map_map, List.mem_map]
  constructor
  · rintro ⟨placed, hplaced, hid⟩
    obtain ⟨hplaced, hdirect⟩ := List.mem_filter.1 hplaced
    obtain ⟨b, hb, hbase⟩ := hlays.exists_specifier hplaced
    exact ⟨b, ⟨r, hlays.record, hb⟩, by simpa [hbase.isVirtual] using hdirect, hbase.id ▸ hid⟩
  · rintro ⟨b, ⟨r', hr', hb⟩, hdirect, hid⟩
    cases hr'.symm.trans hlays.record
    obtain ⟨placed, hplaced, hbase⟩ := hlays.exists_placed hb
    exact ⟨placed, List.mem_filter.2 ⟨hplaced, by simp [hbase.isVirtual, hdirect]⟩, hbase.id.trans hid⟩

/-! ## Asking for a base -/

/-- The offset that is given for a base is that of a place of it, in bytes. A class that is a direct
base through two declarations has two places; the first is given, so only some place is claimed. -/
theorem offsetOf_of_mem (record : DeclId) {base : DeclId} {placed : List (DeclId × Nat)}
    (h : u.canonical base ∈ placed.map (·.1)) :
    ∃ bits, (u.canonical base, bits) ∈ placed ∧ offsetOf u record base placed = .ok (bits / 8) := by
  obtain ⟨y, hy, hid⟩ := List.mem_map.1 h
  have hfind : (placed.find? (·.1 = u.canonical base)).isSome :=
    List.find?_isSome.2 ⟨y, hy, by simpa using hid⟩
  obtain ⟨⟨id, bits⟩, hfound⟩ := Option.isSome_iff_exists.1 hfind
  obtain rfl : id = u.canonical base := by simpa using List.find?_some hfound
  exact ⟨bits, List.mem_of_find?_eq_some hfound, by simp [offsetOf, hfound]⟩

/-- For any other class the answer is that it is no base. -/
theorem offsetOf_of_not_mem (record : DeclId) {base : DeclId} {placed : List (DeclId × Nat)}
    (h : u.canonical base ∉ placed.map (·.1)) :
    offsetOf u record base placed =
      .error (.notABase (u.displayName record) (u.displayName base)) := by
  have hfind : placed.find? (·.1 = u.canonical base) = none := by
    refine List.find?_eq_none.2 fun y hy hid => h (List.mem_map.2 ⟨y, hy, ?_⟩)
    simpa using hid
  simp only [offsetOf, hfind]

/-- What is answered about the bases of the record `d`, which is placed as `p`. Both questions are
settled for every class that may be asked for: the two fields with a negation say that no other one is
given an offset. -/
structure AnswersBases (u : TranslationUnit) (t : Target) (d : DeclId) (p : Placement) : Prop where
  virtual : ∀ base, u.HasVirtualBase d (u.canonical base) → ∃ bits,
    (u.canonical base, bits) ∈ p.virtualBases ∧
      (natural u t).virtualBaseOffset d base = .ok (bits / 8)
  /-- However often it is inherited, a virtual base has one place. -/
  count_virtual : ∀ v, u.HasVirtualBase d v → p.virtualOrder.count v = 1
  not_virtual : ∀ base, ¬ u.HasVirtualBase d (u.canonical base) →
    (natural u t).virtualBaseOffset d base =
      .error (.notABase (u.displayName d) (u.displayName base))
  direct : ∀ base, u.HasDirectBase d (u.canonical base) → ∃ bits,
    (u.canonical base, bits) ∈ p.bases ∧ (natural u t).baseOffset d base = .ok (bits / 8)
  not_direct : ∀ base, ¬ u.HasDirectBase d (u.canonical base) →
    (natural u t).baseOffset d base = .error (.notABase (u.displayName d) (u.displayName base))

/-- **The bases of a record that is laid out have their places**: the direct ones that are not virtual,
and the virtual ones of the whole hierarchy, each of them once. No other class has one. The answers go
by entity, so any declaration of a base may be asked for, and they are in bytes where the placement has
bits. -/
theorem record_bases (u : TranslationUnit) (t : Target) {d : DeclId} {l : RecordLayout}
    (h : (natural u t).record d = .ok l) : ∃ p, placement u t d = .ok p ∧ AnswersBases u t d p := by
  obtain ⟨p, hp, _⟩ := natural_record_eq_ok h
  obtain ⟨_, _, hlays⟩ := lays_of_placement hp
  have hvirtual : ∀ {v}, v ∈ p.virtualOrder ↔ u.HasVirtualBase d v :=
    mem_virtualOrder_iff_hasVirtualBase hp
  have hdirect : ∀ {v}, v ∈ p.bases.map (·.1) ↔ u.HasDirectBase d v :=
    mem_bases_iff_hasDirectBase hp
  refine ⟨p, hp, ?_⟩
  exact {
    virtual := fun base hbase => by
      obtain ⟨bits, hmem, hoffset⟩ := offsetOf_of_mem d (hvirtual.2 hbase)
      exact ⟨bits, hmem, (bind_of_ok hp).trans hoffset⟩
    count_virtual := fun v hv => List.count_eq_one_of_mem hlays.nodup_virtualOrder (hvirtual.2 hv)
    not_virtual := fun base hbase =>
      (bind_of_ok hp).trans (offsetOf_of_not_mem d fun hmem => hbase (hvirtual.1 hmem))
    direct := fun base hbase => by
      obtain ⟨bits, hmem, hoffset⟩ := offsetOf_of_mem d (hdirect.2 hbase)
      exact ⟨bits, hmem, (bind_of_ok hp).trans hoffset⟩
    not_direct := fun base hbase =>
      (bind_of_ok hp).trans (offsetOf_of_not_mem d fun hmem => hbase (hdirect.1 hmem)) }

/-- Two classes with the virtual base `V`, one of them declared before it is defined, and a class `D` that
has both of them for bases; `V` is declared again afterwards. -/
def diamond : TranslationUnit where
  file := "a.h"
  types := #[.builtin .int]
  nodes := #[{ name := "V", kind := .record { members := [⟨1⟩], class? := some {} } },
    { name := "v", kind := .field { type := ⟨0⟩ } },
    { name := "A"
      kind := .record { class? := some { bases := [{ record := ⟨0⟩, isVirtual := true }] } } },
    { name := "B", kind := .record { isComplete := false, class? := some {} } },
    { name := "B", canonical? := some ⟨3⟩
      kind := .record { class? := some { bases := [{ record := ⟨0⟩, isVirtual := true }] } } },
    { name := "D"
      kind := .record { class? := some { bases := [{ record := ⟨2⟩ }, { record := ⟨4⟩ }] } } },
    { name := "V", canonical? := some ⟨0⟩
      kind := .record { isComplete := false, class? := some {} } }]
  topLevel := #[⟨0⟩, ⟨2⟩, ⟨3⟩, ⟨4⟩, ⟨5⟩, ⟨6⟩]

theorem record_bases_diamond :
    let oracle := natural diamond (.lp64 "")
    oracle.record ⟨5⟩ = .ok ⟨192, 64, []⟩ ∧
      (∃ p, placement diamond (.lp64 "") ⟨5⟩ = .ok p ∧ AnswersBases diamond (.lp64 "") ⟨5⟩ p) ∧
      oracle.virtualBaseOffset ⟨5⟩ ⟨6⟩ = .ok 16 ∧ oracle.baseOffset ⟨5⟩ ⟨3⟩ = .ok 8 ∧
      oracle.virtualBaseOffset ⟨5⟩ ⟨2⟩ = .error (.notABase "D" "A") := by
  intro oracle
  have hlayout : oracle.record ⟨5⟩ = .ok ⟨192, 64, []⟩ := by decide +kernel
  exact ⟨hlayout, record_bases diamond (.lp64 "") hlayout, by decide +kernel, by decide +kernel,
    by decide +kernel⟩

end ForeignDecl.Layout
