import Mathlib.Data.List.Forall2
import ForeignDecl.Proofs.Layout.Steps

/-!
# Answers do not depend on the way

A record is laid out with the records around it in mind: these are refused, and the fuel that is left
is what they have not used up. Both can only turn an answer into a refusal. So an answer that was given
inside other records is the answer on its own (`placementWithin_refines`), and a placement can be read
as one step with all parts of the record laid out on their own (`placeRecord_of_placement`).
-/

set_option autoImplicit false

namespace ForeignDecl.Layout

/-! ## Questions made of questions -/

section Questions

variable {ε α β γ : Type}

/-- If a sequence of questions is answered, so was the first one, and the rest was asked about its
answer. The proofs about layouts take the steps of a placement apart with this lemma and do not unfold
them further. -/
theorem bind_eq_ok {x : Except ε α} {f : α → Except ε β} {b : β} :
    x >>= f = .ok b ↔ ∃ a, x = .ok a ∧ f a = .ok b := by
  cases x with
  | error e => exact ⟨fun h => (nomatch h), fun ⟨_, h, _⟩ => (nomatch h)⟩
  | ok a => exact ⟨fun h => ⟨a, rfl, h⟩, fun ⟨_, h, hf⟩ => by cases h; exact hf⟩

theorem bind_of_ok {x : Except ε α} {a : α} {g : α → Except ε β} (h : x = .ok a) :
    x >>= g = g a := by
  rw [h]
  rfl

theorem bind_of_error {x : Except ε α} {e : ε} {g : α → Except ε β} (h : x = .error e) :
    x >>= g = .error e := by
  rw [h]
  rfl

/-- Of questions about all of a list there is one answer for each, in the order of the list. -/
theorem mapM_eq_ok {f : γ → Except ε α} :
    ∀ {cs : List γ} {as : List α}, cs.mapM f = .ok as →
      List.Forall₂ (fun c a => f c = .ok a) cs as
  | [], as, h => by
    rw [List.mapM_nil] at h
    cases h
    exact .nil
  | c :: cs, as, h => by
    rw [List.mapM_cons] at h
    obtain ⟨a, ha, h⟩ := bind_eq_ok.1 h
    obtain ⟨as', has, h⟩ := bind_eq_ok.1 h
    cases h
    exact .cons ha (mapM_eq_ok has)

end Questions

/-! ## More answers -/

/-- The second question is answered as the first one, if that is answered at all. Refusals are not
compared, since what is refused inside of other records may be answered outside of them. -/
def Refines {ε α : Type} (x y : Except ε α) : Prop := ∀ a, x = .ok a → y = .ok a

namespace Refines

variable {ε α β : Type}

theorem refl (x : Except ε α) : Refines x x := fun _ h => h

/-- A refusal is refined by anything, which is what happens when the fuel runs out or a record is met
again. -/
theorem of_error (e : ε) (y : Except ε α) : Refines (.error e) y := fun _ h => nomatch h

theorem bind {x y : Except ε α} {f g : α → Except ε β} (hxy : Refines x y)
    (hfg : ∀ a, Refines (f a) (g a)) : Refines (x >>= f) (y >>= g) := by
  intro b h
  obtain ⟨a, hx, hf⟩ := bind_eq_ok.1 h
  exact bind_eq_ok.2 ⟨a, hxy a hx, hfg a b hf⟩

theorem mapM {γ : Type} {f g : γ → Except ε α} :
    ∀ {cs : List γ}, (∀ c ∈ cs, Refines (f c) (g c)) → Refines (cs.mapM f) (cs.mapM g)
  | [], _ => by
    rw [List.mapM_nil, List.mapM_nil]
    exact refl _
  | c :: cs, h => by
    rw [List.mapM_cons, List.mapM_cons]
    refine bind (h c (by simp)) fun a => bind (mapM fun c' hc => h c' (by simp [hc])) fun as => ?_
    exact refl _

end Refines

variable {u : TranslationUnit} {t : Target}

/-! ## One record -/

section Steps

variable {layout layout' : TypeId → Except LayoutError TypeLayout}
  {place place' : DeclId → Except LayoutError Placement}

/-- Whether the field fits is decided by its layout, so it is decided in the same way once the layout is
found. -/
theorem placeFields_refines (hlayout : ∀ t, Refines (layout t) (layout' t)) (e : LayoutError) :
    ∀ (fs : List FieldNode) (c : Cursor),
      Refines (placeFields layout e c fs) (placeFields layout' e c fs)
  | [], _ => .refl _
  | f :: fs, c => by
    unfold placeFields
    refine .bind (hlayout _) fun l => ?_
    split
    · exact .refl _
    · exact .bind (placeFields_refines hlayout e fs _) fun _ => .refl _

theorem placeUnionFields_refines (hlayout : ∀ t, Refines (layout t) (layout' t)) :
    ∀ (fs : List FieldNode) (c : Cursor),
      Refines (placeUnionFields layout c fs) (placeUnionFields layout' c fs)
  | [], _ => .refl _
  | f :: fs, c => by
    unfold placeUnionFields
    exact .bind (hlayout _) fun l => .bind (placeUnionFields_refines hlayout fs _) fun _ => .refl _

/-- Each of the three steps refines on its own. What is assembled from them is the same on both sides.
-/
theorem placeInSteps_refines (hlayout : ∀ t, Refines (layout t) (layout' t))
    (hplace : ∀ d, Refines (place d) (place' d)) (d : DeclId) (r : RecordNode) :
    Refines (placeInSteps u t layout place d r) (placeInSteps u t layout' place' d r) := by
  have hbases : Refines (namedBases u place r) (namedBases u place' r) :=
    .mapM fun b _ => .bind (hplace b.record) fun _ => .refl _
  have hfields : ∀ c, Refines (placedFields u layout d r c) (placedFields u layout' d r c) := by
    intro c
    dsimp only [placedFields]
    split
    · exact placeUnionFields_refines hlayout _ c
    · exact placeFields_refines hlayout _ _ c
  have hvirtuals : ∀ bases, Refines (virtualsOf place bases) (virtualsOf place' bases) :=
    fun bases => .mapM fun id _ => .bind (hplace id) fun _ => .refl _
  exact .bind hbases fun bases => .bind (hfields _) fun _ => .bind (hvirtuals bases) fun _ => .refl _

theorem placeRecord_refines (hlayout : ∀ t, Refines (layout t) (layout' t))
    (hplace : ∀ d, Refines (place d) (place' d)) (d : DeclId) :
    Refines (placeRecord u t layout place d) (placeRecord u t layout' place' d) := by
  rw [placeRecord_eq, placeRecord_eq]
  cases (u.node d).record? with
  | none => exact .refl _
  | some r =>
    dsimp only
    split
    · exact .refl _
    split
    · exact .refl _
    exact placeInSteps_refines hlayout hplace d r

/-- A type is laid out with the same fuel on both sides; only the records in it are asked for elsewhere.
-/
theorem typeLayoutWithin_refines (hplace : ∀ d, Refines (place d) (place' d)) :
    ∀ (fuel : Nat) (id : TypeId),
      Refines (typeLayoutWithin u t place fuel id) (typeLayoutWithin u t place' fuel id)
  | 0, _ => .refl _
  | fuel + 1, id => by
    have ih := typeLayoutWithin_refines hplace fuel
    unfold typeLayoutWithin
    split
    · exact .refl _
    · exact .refl _
    · exact .refl _
    · exact .refl _
    · exact .refl _
    · exact .bind (ih _) fun _ => .refl _
    · exact .bind (ih _) fun _ => .refl _
    · exact .bind (ih _) fun _ => .refl _
    · exact .bind (hplace _) fun _ => .refl _
    · exact .bind (hplace _) fun _ => .refl _
    · exact .refl _
    · split
      · exact ih _
      · exact .refl _
    · exact ih _
    · exact ih _
    all_goals exact .refl _

end Steps

/-! ## Inside other records -/

/-- **More fuel and fewer records around keep every answer.** -/
theorem placementWithin_refines :
    ∀ {fuel fuel' : Nat} {visiting visiting' : List DeclId}, fuel ≤ fuel' →
      (∀ d ∈ visiting', d ∈ visiting) →
      ∀ d, Refines (placementWithin u t fuel visiting d) (placementWithin u t fuel' visiting' d)
  -- Without fuel nothing is answered, and with fuel on the left there is some on the right.
  | 0, _, _, _, _, _, _ => .of_error _ _
  | fuel + 1, 0, _, _, hfuel, _, _ => absurd hfuel (by omega)
  | fuel + 1, fuel' + 1, visiting, visiting', hfuel, hvisiting, d => by
    unfold placementWithin
    dsimp only
    split
    · exact .of_error _ _
    · next hnew =>
      -- A record that is not met again inside of more records is not met again inside of fewer.
      rw [if_neg fun hd => hnew (hvisiting _ hd)]
      have hplace : ∀ x, Refines (placementWithin u t fuel (u.canonical d :: visiting) x)
          (placementWithin u t fuel' (u.canonical d :: visiting') x) := by
        refine placementWithin_refines (by omega) fun x hx => ?_
        rcases List.mem_cons.1 hx with rfl | hx
        · exact List.mem_cons_self
        · exact List.mem_cons_of_mem _ (hvisiting x hx)
      exact placeRecord_refines (typeLayoutWithin_refines hplace _) hplace d

/-- The layout of a type inside the record that `d` declares: what contains that record is refused. This
is how the types of the fields of `d` are laid out, and where a statement about a record has to speak of
layouts that may be refused, it speaks of these. -/
def typeLayoutInside (u : TranslationUnit) (t : Target) (d : DeclId) :
    TypeId → Except LayoutError TypeLayout :=
  typeLayoutWithin u t (placementWithin u t u.nodes.size [u.canonical d]) u.typeBudget

/-- A record on its own is laid out with nothing but itself in mind. -/
theorem placement_eq_placeRecord (d : DeclId) :
    placement u t d = placeRecord u t (typeLayoutInside u t d)
      (placementWithin u t u.nodes.size [u.canonical d]) d := by
  rw [placement, placementWithin]
  exact if_neg (by simp)

/-- A record inside of others has what it would have on its own, if it has a layout there. -/
theorem placementWithin_refines_placement {fuel : Nat} (hfuel : fuel ≤ u.nodes.size + 1)
    (visiting : List DeclId) (d : DeclId) :
    Refines (placementWithin u t fuel visiting d) (placement u t d) :=
  placementWithin_refines hfuel (by simp) d

/-- **Whatever records a type is laid out inside of, an answer is the one it gets on its own.** -/
theorem typeLayoutWithin_refines_typeLayout {fuel : Nat} (hfuel : fuel ≤ u.nodes.size + 1)
    (visiting : List DeclId) (id : TypeId) :
    Refines (typeLayoutWithin u t (placementWithin u t fuel visiting) u.typeBudget id)
      (typeLayout u t id) :=
  typeLayoutWithin_refines (placementWithin_refines_placement hfuel visiting) _ id

/-- In particular the types of the fields of a record are laid out as the oracle answers for them. -/
theorem typeLayoutInside_refines (d : DeclId) (id : TypeId) :
    Refines (typeLayoutInside u t d id) (typeLayout u t id) :=
  typeLayoutWithin_refines_typeLayout (Nat.le_succ _) _ id

/-- The oracle answers with the placement, of which it tells the size, the alignment and the offsets of
the fields. Everything that is claimed about an answer is proved about that placement. -/
theorem natural_record_eq_ok {d : DeclId} {l : RecordLayout} (h : (natural u t).record d = .ok l) :
    ∃ p, placement u t d = .ok p ∧ l = ⟨p.size, p.align, p.fieldOffsets⟩ := by
  obtain ⟨p, hp, h⟩ := bind_eq_ok.1 h
  cases h
  exact ⟨p, hp, rfl⟩

/-- **The parts of a record are laid out as they are on their own.** The step is the same, but with
`typeLayout` and `placement` in the place of what is asked for inside of the record. So a statement
about a placed record can speak of its parts without the records around them. -/
theorem placeRecord_of_placement {d : DeclId} {p : Placement} (h : placement u t d = .ok p) :
    placeRecord u t (typeLayout u t) (placement u t) d = .ok p := by
  rw [placement_eq_placeRecord] at h
  exact placeRecord_refines (typeLayoutInside_refines d)
    (placementWithin_refines_placement (Nat.le_succ _) _) d p h

end ForeignDecl.Layout
