import ForeignDecl.Proofs.Layout.Bases
import ForeignDecl.Proofs.Layout.Fields

/-!
# Which questions are refused, and why

A type or a record may have no layout, for five reasons (`LayoutError.OfLayout`). Two other reasons to
refuse a question are about the parts of a record that has a layout. These questions are always answered:
the answers of one oracle fit together (`LayoutOracle.Coherent`), and those of the oracle that computes
natural layouts do (`natural_coherent`). The last reason, an overflow, belongs to computations in words, and
numbers that are exact do not overflow.

A run that asks an oracle whose answers fit together can only be stopped by the five reasons, and which of
them stop it is settled in `Extract/Failures.lean`.
-/

set_option autoImplicit false

namespace ForeignDecl

/-- A reason for which a type or a record has no layout. The two reasons that are left out mean that
something was asked which the unit does not have, a base or a field; nothing that is extracted asks for
these. -/
def LayoutError.OfLayout : LayoutError → Prop
  | .noLayout _ | .incomplete _ | .tooLarge _ | .dependent _ | .recursive _ => True
  | .notABase _ _ | .missingField _ _ | .overflow => False

/-- The answers about the types and records of a unit fit together. Nothing is said about the numbers in
them. What an entry needs is that once a record has a layout, no further question about it is refused.
-/
structure LayoutOracle.Coherent (oracle : LayoutOracle) (u : TranslationUnit) : Prop where
  builtin : ∀ {id : TypeId} {kind : Builtin}, u.type id = .builtin kind → kind ≠ .void →
    ∃ l, oracle.type id = .ok l
  type : ∀ {id : TypeId} {e : LayoutError}, oracle.type id = .error e → e.OfLayout
  record : ∀ {d : DeclId} {e : LayoutError}, oracle.record d = .error e → e.OfLayout
  /-- There is one offset for each field. -/
  fieldOffsets : ∀ {d : DeclId} {r : RecordNode} {l : RecordLayout},
    (u.node d).record? = some r → oracle.record d = .ok l →
      l.fieldOffsets.length = (u.fieldsAmong r.members).length
  /-- There is an offset for each base. -/
  base : ∀ {d : DeclId} {r : RecordNode} {l : RecordLayout} {b : BaseSpecifier},
    (u.node d).record? = some r → oracle.record d = .ok l → b ∈ r.bases →
      ∃ offset, (if b.isVirtual then oracle.virtualBaseOffset d b.record
        else oracle.baseOffset d b.record) = .ok offset

namespace Layout

variable {u : TranslationUnit} {t : Target}

/-! ## Refusals -/

/-- If the question is refused, the reason has `P`. As with `Refines`, the steps of a placement are gone
through once, and each keeps the property. -/
def RefusesWith {α : Type} (P : LayoutError → Prop) (x : Except LayoutError α) : Prop :=
  ∀ e, x = .error e → P e

namespace RefusesWith

variable {α β γ : Type} {P : LayoutError → Prop}

theorem of_ok (a : α) : RefusesWith P (.ok a) := fun _ h => nomatch h

theorem of_error {e : LayoutError} (h : P e) : RefusesWith P (.error e : Except LayoutError α) := by
  rintro _ ⟨⟩
  exact h

theorem bind {x : Except LayoutError α} {f : α → Except LayoutError β} (hx : RefusesWith P x)
    (hf : ∀ a, RefusesWith P (f a)) : RefusesWith P (x >>= f) := by
  cases x with
  | error e => exact of_error (hx e rfl)
  | ok a => exact hf a

theorem mapM {f : γ → Except LayoutError α} (h : ∀ c, RefusesWith P (f c)) :
    ∀ cs : List γ, RefusesWith P (cs.mapM f)
  | [] => of_ok _
  | c :: cs => by
    rw [List.mapM_cons]
    exact (h c).bind fun _ => (mapM h cs).bind fun _ => of_ok _

end RefusesWith

open RefusesWith

section Steps

variable {P : LayoutError → Prop} {layout : TypeId → Except LayoutError TypeLayout}
  {place : DeclId → Except LayoutError Placement}

/-- A field is refused for its type, or since it does not fit, with the reason `e` that is handed in. -/
theorem placeFields_refusesWith (hlayout : ∀ id, RefusesWith P (layout id)) {e : LayoutError}
    (he : P e) : ∀ (fs : List FieldNode) (c : Cursor), RefusesWith P (placeFields layout e c fs)
  | [], _ => of_ok _
  | f :: fs, c => by
    unfold placeFields
    refine .bind (hlayout _) fun l => ?_
    split
    · exact of_error he
    · exact .bind (placeFields_refusesWith hlayout he fs _) fun _ => of_ok _

theorem placeUnionFields_refusesWith (hlayout : ∀ id, RefusesWith P (layout id)) :
    ∀ (fs : List FieldNode) (c : Cursor), RefusesWith P (placeUnionFields layout c fs)
  | [], _ => of_ok _
  | _ :: fs, _ => .bind (hlayout _) fun _ =>
    .bind (placeUnionFields_refusesWith hlayout fs _) fun _ => of_ok _

theorem placeInSteps_refusesWith (hlayout : ∀ id, RefusesWith LayoutError.OfLayout (layout id))
    (hplace : ∀ d, RefusesWith LayoutError.OfLayout (place d)) (d : DeclId) (r : RecordNode) :
    RefusesWith LayoutError.OfLayout (placeInSteps u t layout place d r) := by
  have hbases : RefusesWith LayoutError.OfLayout (namedBases u place r) := by
    unfold namedBases
    exact .mapM (fun b => .bind (hplace b.record) fun _ => of_ok _) r.bases
  have hfields : ∀ c, RefusesWith LayoutError.OfLayout (placedFields u layout d r c) := by
    intro c
    have htooLarge : (LayoutError.tooLarge (u.displayName d)).OfLayout := trivial
    dsimp only [placedFields]
    split
    · exact placeUnionFields_refusesWith hlayout _ c
    · exact placeFields_refusesWith hlayout htooLarge _ c
  have hvirtuals : ∀ bases, RefusesWith LayoutError.OfLayout (virtualsOf place bases) := by
    intro bases
    unfold virtualsOf
    exact .mapM (fun id => .bind (hplace id) fun _ => of_ok _) (virtualIds bases)
  exact .bind hbases fun bases => .bind (hfields _) fun _ => .bind (hvirtuals bases) fun _ => of_ok _

theorem placeRecord_refusesWith (hlayout : ∀ id, RefusesWith LayoutError.OfLayout (layout id))
    (hplace : ∀ d, RefusesWith LayoutError.OfLayout (place d)) (d : DeclId) :
    RefusesWith LayoutError.OfLayout (placeRecord u t layout place d) := by
  rw [placeRecord_eq]
  cases (u.node d).record? with
  | none => exact of_error trivial
  | some r =>
    dsimp only
    split
    · exact of_error trivial
    split
    · exact of_error trivial
    exact placeInSteps_refusesWith hlayout hplace d r

/-- The reasons that a type is refused for are named where it is laid out, and all of them are reasons
of layout. -/
theorem typeLayoutWithin_refusesWith (hplace : ∀ d, RefusesWith LayoutError.OfLayout (place d)) :
    ∀ (fuel : Nat) (id : TypeId),
      RefusesWith LayoutError.OfLayout (typeLayoutWithin u t place fuel id)
  | 0, _ => of_error trivial
  | fuel + 1, id => by
    have ih := typeLayoutWithin_refusesWith hplace fuel
    -- One case for each layer of types, in the order of the definition.
    unfold typeLayoutWithin
    split
    · split
      · exact of_ok _
      · exact of_error trivial
    · exact of_ok _
    · exact of_ok _
    · exact of_ok _
    · exact of_ok _
    · refine .bind (ih _) fun _ => ?_
      split
      · exact of_ok _
      · exact of_error trivial
    · exact .bind (ih _) fun _ => of_ok _
    · exact .bind (ih _) fun _ => of_ok _
    · exact .bind (hplace _) fun _ => of_ok _
    · exact .bind (hplace _) fun _ => of_ok _
    · exact of_ok _
    · split
      · exact ih _
      · exact of_error trivial
    · exact ih _
    · exact ih _
    all_goals exact of_error trivial

end Steps

/-- Without fuel the answer is that the record is inside of itself, which is a reason of layout too. -/
theorem placementWithin_refusesWith : ∀ (fuel : Nat) (visiting : List DeclId) (d : DeclId),
    RefusesWith LayoutError.OfLayout (placementWithin u t fuel visiting d)
  | 0, _, _ => of_error trivial
  | fuel + 1, visiting, d => by
    have ih := placementWithin_refusesWith fuel (u.canonical d :: visiting)
    unfold placementWithin
    dsimp only
    split
    · exact of_error trivial
    · exact placeRecord_refusesWith (typeLayoutWithin_refusesWith ih _) ih d

/-! ## The oracle of natural layouts -/

/-- **What the oracle says about one record fits together**: also the questions that are asked one by
one, each laid out anew, are answered once the record has a size. -/
theorem natural_coherent (u : TranslationUnit) (t : Target) : (natural u t).Coherent u where
  builtin {id kind} hid hvoid := by
    have hlayout : ∃ l, t.builtin? kind = some l := by
      cases kind
      case void => exact absurd rfl hvoid
      -- Every builtin type but `void` has a layout on every target.
      all_goals exact ⟨_, rfl⟩
    obtain ⟨l, hl⟩ := hlayout
    refine ⟨l, ?_⟩
    change typeLayoutWithin u t (placement u t) (u.types.size + 1) id = .ok l
    rw [typeLayoutWithin, hid]
    simp [hl]
  type := typeLayoutWithin_refusesWith (placementWithin_refusesWith _ _) _ _ _
  record := (placementWithin_refusesWith _ _ _).bind (fun _ => of_ok _) _
  fieldOffsets hr h := by
    obtain ⟨p, hp, rfl⟩ := natural_record_eq_ok h
    obtain ⟨fs, hfs⟩ := exists_holds_of_placement hr hp
    exact hfs.length_fieldOffsets
  base {d r l b} hr h hb := by
    obtain ⟨p, hp, rfl⟩ := natural_record_eq_ok h
    split
    · next hvirtual =>
      obtain ⟨bits, _, hoffset⟩ := offsetOf_of_mem d
        ((mem_virtualOrder_iff_hasVirtualBase hp).2 ⟨d, b, .refl, ⟨r, hr, hb⟩, hvirtual, rfl⟩)
      exact ⟨bits / 8, bind_eq_ok.2 ⟨p, hp, hoffset⟩⟩
    · next hvirtual =>
      obtain ⟨bits, _, hoffset⟩ := offsetOf_of_mem d
        ((mem_bases_iff_hasDirectBase hp).2 ⟨b, ⟨r, hr, hb⟩, by simpa using hvirtual, rfl⟩)
      exact ⟨bits / 8, bind_eq_ok.2 ⟨p, hp, hoffset⟩⟩

end Layout

end ForeignDecl
