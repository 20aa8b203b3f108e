import ForeignDecl.Proofs.Layout.Sections

/-!
# Which hierarchies are laid out

A class is laid out once all its parts are: its fields and the bases that it names. The bases are not
the only parts, though. A virtual base is placed from the first declaration of its class, whichever
declaration the record names, so it is laid out a second time, and that layout may be refused. This can
happen only to a virtual base that the record names itself (`record_answers`): the others were laid out
in this way inside of the base that brings them along (`Lays.inherited`).
-/

set_option autoImplicit false

namespace ForeignDecl.Layout

variable {u : TranslationUnit} {t : Target} {d : DeclId} {r : RecordNode}

/-! ## Questions about all of a list -/

section Questions

variable {ε α γ : Type} {f : γ → Except ε α}

theorem exists_of_isOk {x : Except ε α} (h : x.isOk) : ∃ a, x = .ok a := by
  cases x with
  | error e => cases h
  | ok a => exact ⟨a, rfl⟩

/-- If each question of a list has an answer, the list has. -/
theorem mapM_isOk : ∀ {cs : List γ}, (∀ c ∈ cs, ∃ a, f c = .ok a) → ∃ as, cs.mapM f = .ok as
  | [], _ => ⟨[], List.mapM_nil⟩
  | c :: cs, h => by
    obtain ⟨⟨a, ha⟩, h⟩ := List.forall_mem_cons.1 h
    obtain ⟨as, has⟩ := mapM_isOk h
    exact ⟨a :: as, by rw [List.mapM_cons, ha, has]; rfl⟩

/-- If the questions are not all answered, the first refusal is that of one of them. -/
theorem exists_of_mapM_eq_error {e : ε} : ∀ {cs : List γ}, cs.mapM f = .error e →
    ∃ c ∈ cs, f c = .error e
  | [], h => nomatch h
  | c :: cs, h => by
    rw [List.mapM_cons] at h
    cases hc : f c with
    | error e' =>
      rw [bind_of_error hc] at h
      cases h
      exact ⟨c, List.mem_cons_self, hc⟩
    | ok a =>
      rw [bind_of_ok hc] at h
      cases hcs : cs.mapM f with
      | error e' =>
        rw [bind_of_error hcs] at h
        cases h
        obtain ⟨c', hc', he⟩ := exists_of_mapM_eq_error hcs
        exact ⟨c', List.mem_cons_of_mem _ hc', he⟩
      | ok as =>
        rw [bind_of_ok hcs] at h
        cases h

end Questions

/-! ## Fields -/

section Fields

variable {layout : TypeId → Except LayoutError TypeLayout} {e : LayoutError}

/-- Placed one behind the other from the cursor on, one of the fields ends beyond the greatest size.
Bitfields are not among these: where one of them ends is not compared with the greatest size. -/
def EndsBeyond (layout : TypeId → Except LayoutError TypeLayout) (c : Cursor)
    (fs : List FieldNode) : Prop :=
  ∃ before f behind, fs = before ++ f :: behind ∧ f.width? = none ∧
    ∃ e c' offsets l, placeFields layout e c before = .ok (c', offsets) ∧
      layout f.type = .ok l ∧ sizeBound ≤ alignUp c'.offset (max l.align 1) + l.size

/-- The guard of the step, read backwards. -/
theorem placeField?_eq_none {c : Cursor} {f : FieldNode} {l : TypeLayout}
    (h : placeField? c f l = none) :
    f.width? = none ∧ sizeBound ≤ alignUp c.offset (max l.align 1) + l.size := by
  unfold placeField? at h
  dsimp only at h
  split at h
  · cases h
  · cases h
  · next hwidth =>
    split at h
    · cases h
    · next hbeyond => exact ⟨hwidth, Nat.le_of_not_lt hbeyond⟩

/-- Fields are refused only if one of their types is, or one ends beyond the greatest size. The fields
in front of the one that is too large are placed, which is what `EndsBeyond` says about them. -/
theorem placeFields_answers : ∀ {fs : List FieldNode} {c : Cursor},
    (∀ f ∈ fs, ∃ l, layout f.type = .ok l) →
      (∃ y, placeFields layout e c fs = .ok y) ∨
      (EndsBeyond layout c fs ∧ placeFields layout e c fs = .error e)
  | [], c, _ => .inl ⟨_, rfl⟩
  | f :: fs, c, h => by
    obtain ⟨⟨l, hl⟩, h⟩ := List.forall_mem_cons.1 h
    cases hfield : placeField? c f l with
    | none =>
      obtain ⟨hwidth, hbeyond⟩ := placeField?_eq_none hfield
      refine .inr ⟨⟨[], f, fs, rfl, hwidth, e, c, [], l, rfl, hl, hbeyond⟩, ?_⟩
      simp only [placeFields, hl, hfield, bind, Except.bind]
    | some y =>
      obtain ⟨c', offset⟩ := y
      -- One step from `c` to `c'`, for any fields behind this one: it is used for the fields up to the one
      -- that is too large, and for all of them.
      have hstep : ∀ e fs, placeFields layout e c (f :: fs) =
          placeFields layout e c' fs >>= fun y => .ok (y.1, offset :: y.2) := by
        intro e fs
        simp only [placeFields, hl, hfield, bind, Except.bind]
      rw [hstep]
      rcases placeFields_answers (c := c') h with ⟨y, hy⟩ | ⟨hbeyond, hy⟩
      · exact .inl ⟨_, by rw [hy]; rfl⟩
      · obtain ⟨before, g, behind, rfl, hwidth, e', c'', offsets, l', hbefore, hrest⟩ := hbeyond
        refine .inr ⟨⟨f :: before, g, behind, rfl, hwidth, e', c'', offset :: offsets, l', ?_, hrest⟩,
          by rw [hy]; rfl⟩
        rw [hstep, hbefore]
        rfl

/-- The fields of a union all begin at the start, and no sum is made that could be refused. -/
theorem placeUnionFields_isOk : ∀ {fs : List FieldNode} {c : Cursor},
    (∀ f ∈ fs, ∃ l, layout f.type = .ok l) → ∃ y, placeUnionFields layout c fs = .ok y
  | [], c, _ => ⟨_, rfl⟩
  | f :: fs, c, h => by
    obtain ⟨⟨l, hl⟩, h⟩ := List.forall_mem_cons.1 h
    obtain ⟨y, hy⟩ := placeUnionFields_isOk
      (c := ⟨max c.offset (unionWidth f l), max c.align l.align⟩) h
    exact ⟨(y.1, 0 :: y.2), by simp only [placeUnionFields, hl, hy, bind, Except.bind]⟩

end Fields

/-! ## Virtual bases -/

/-- The virtual bases of a base were laid out inside of it, so they are laid out wherever it is. This is
why only a virtual base that the record names itself can be refused: the others come with a base whose
layout is assumed. -/
theorem inherited {n : Nat} {visiting : List DeclId} {b v : DeclId} {q : Placement}
    (h : placementWithin u t n visiting b = .ok q) (hv : v ∈ q.virtualOrder) :
    ∃ q', placementWithin u t n visiting v = .ok q' := by
  cases n with
  | zero => cases h
  | succ n =>
    unfold placementWithin at h
    dsimp only at h
    split at h
    · cases h
    obtain ⟨r, x, hlays⟩ := lays_of_placeRecord h
    obtain ⟨y, _, _, hplacement⟩ :=
      exists_right_of_forall₂ hlays.virtuals v (hlays.virtualOrder_eq ▸ hv)
    -- Inside of the base there was less fuel, and one record more to avoid.
    exact ⟨y.2, placementWithin_refines (Nat.le_succ n) (fun _ => List.mem_cons_of_mem _) v _
      hplacement⟩

/-! ## Records -/

/-- One of the fields of the record `r` ends beyond the greatest size. The cursor from which they are
placed is that behind the bases, so the bases must be laid out for this to be said. -/
def Overruns (u : TranslationUnit) (t : Target) (layout : TypeId → Except LayoutError TypeLayout)
    (place : DeclId → Except LayoutError Placement) (r : RecordNode) : Prop :=
  r.isUnion = false ∧ ∃ bases, namedBases u place r = .ok bases ∧
    EndsBeyond layout (placedDirect u t r bases).1 ((u.fieldsAmong r.members).map (·.2))

/-- The three steps one after the other, for a record that may be laid out. The bases are answered by
assumption, the fields are answered or one ends too far, and of the virtual bases nothing is known yet:
a refusal among them is named. -/
theorem placeRecord_answers {layout : TypeId → Except LayoutError TypeLayout}
    {place : DeclId → Except LayoutError Placement} (hr : (u.node d).record? = some r)
    (hcomplete : r.isComplete) (hdependent : r.isDependent = false)
    (hfields : ∀ f ∈ u.fieldsAmong r.members, ∃ l, layout f.2.type = .ok l)
    (hbases : ∀ b ∈ r.bases, ∃ q, place b.record = .ok q) :
    (∃ p, placeRecord u t layout place d = .ok p) ∨
    (Overruns u t layout place r ∧
      placeRecord u t layout place d = .error (.tooLarge (u.displayName d))) ∨
    ∃ bases, namedBases u place r = .ok bases ∧ ∃ v ∈ virtualIds bases, ∃ e,
      place v = .error e ∧ placeRecord u t layout place d = .error e := by
  obtain ⟨bases, hnamed⟩ : ∃ bases, namedBases u place r = .ok bases := mapM_isOk fun b hb => by
    obtain ⟨q, hq⟩ := hbases b hb
    exact ⟨_, by rw [hq]; rfl⟩
  rw [placeRecord_of_complete hr hcomplete hdependent, placeInSteps, bind_of_ok hnamed]
  have hplaced : (∃ y, placedFields u layout d r (placedDirect u t r bases).1 = .ok y) ∨
      (Overruns u t layout place r ∧ placedFields u layout d r (placedDirect u t r bases).1 =
        .error (.tooLarge (u.displayName d))) := by
    have htypes : ∀ f ∈ (u.fieldsAmong r.members).map (·.2), ∃ l, layout f.type = .ok l :=
      List.forall_mem_map.2 hfields
    dsimp only [placedFields]
    split
    · exact .inl (placeUnionFields_isOk htypes)
    · next hunion =>
      exact (placeFields_answers htypes).imp_right fun ⟨hbeyond, he⟩ =>
        ⟨⟨by simpa using hunion, bases, hnamed, hbeyond⟩, he⟩
  -- The virtual bases are placed last, so one of them is to blame only if the fields have their places.
  rcases hplaced with ⟨y, hy⟩ | ⟨hover, he⟩
  · rw [bind_of_ok hy]
    cases hvirtuals : virtualsOf place bases with
    | ok virtuals => exact .inl ⟨_, rfl⟩
    | error e =>
      obtain ⟨v, hv, he⟩ := exists_of_mapM_eq_error hvirtuals
      refine .inr (.inr ⟨bases, hnamed, v, hv, e, ?_, rfl⟩)
      cases hplace : place v with
      | ok q => rw [bind_of_ok hplace] at he; cases he
      | error e' => rw [bind_of_error hplace] at he; cases he; rfl
  · exact .inr (.inl ⟨hover, bind_of_error he⟩)

/-- The placement of a record inside the record that `d` declares: what contains that record is refused.
The bases of `d` are laid out in this way. -/
def placementInside (u : TranslationUnit) (t : Target) (d : DeclId) :
    DeclId → Except LayoutError Placement :=
  placementWithin u t u.nodes.size [u.canonical d]

/-- **A record whose fields and bases are laid out is laid out itself**, unless a field ends beyond the
greatest size, or a virtual base that the record names is refused when it is laid out from the first
declaration of its class. -/
theorem record_answers (u : TranslationUnit) (t : Target) {d : DeclId} {r : RecordNode}
    (hr : (u.node d).record? = some r) (hcomplete : r.isComplete)
    (hdependent : r.isDependent = false)
    (hfields : ∀ f ∈ u.fieldsAmong r.members, ∃ l, typeLayoutInside u t d f.2.type = .ok l)
    (hbases : ∀ b ∈ r.bases, ∃ q, placementInside u t d b.record = .ok q) :
    (∃ l, (natural u t).record d = .ok l) ∨
    (Overruns u t (typeLayoutInside u t d) (placementInside u t d) r ∧
      (natural u t).record d = .error (.tooLarge (u.displayName d))) ∨
    ∃ b ∈ r.bases, b.isVirtual ∧ u.canonical b.record ≠ b.record ∧ ∃ e,
      placementInside u t d (u.canonical b.record) = .error e ∧ (natural u t).record d = .error e := by
  have hanswers := placeRecord_answers (t := t) hr hcomplete hdependent hfields hbases
  have hplacement : placement u t d = placeRecord u t (typeLayoutInside u t d)
    (placementInside u t d) d := placement_eq_placeRecord d
  rw [← hplacement] at hanswers
  rcases hanswers with ⟨p, hp⟩ | ⟨hover, he⟩ | ⟨bases, hnamed, v, hv, e, hrefused, he⟩
  · exact .inl ⟨_, bind_of_ok hp⟩
  · exact .inr (.inl ⟨hover, bind_of_error he⟩)
  · -- A virtual base that is refused cannot come from a base, so the record names it.
    rw [virtualIds, ← OrderedSet.mem_def, OrderedSet.mem_ofList, List.mem_flatMap] at hv
    obtain ⟨placed, hmem, hv⟩ := hv
    obtain ⟨b, hb, hbase⟩ :=
      exists_right_of_forall₂ (isBase_of_namedBases hnamed).flip placed hmem
    rcases List.mem_append.1 hv with hv | hv
    · obtain ⟨q, hq⟩ := inherited hbase.placement hv
      cases hrefused.symm.trans hq
    · split at hv
      · next hvirtual =>
        rw [List.mem_singleton.1 hv, hbase.id] at hrefused
        refine .inr (.inr ⟨b, hb, hbase.isVirtual ▸ hvirtual, ?_, e, hrefused, bind_of_error he⟩)
        intro hfirst
        rw [hfirst] at hrefused
        cases hrefused.symm.trans hbase.placement
      · cases hv

/-- Classes that are declared before they are defined: a base `B`, a virtual base `V`, and classes that
name them, through a base and directly. -/
def redeclared : TranslationUnit where
  file := "a.h"
  types := #[.builtin .int, .builtin .char]
  nodes := #[{ name := "B", kind := .record { isComplete := false, class? := some {} } },
    { name := "B", canonical? := some ⟨0⟩
      kind := .record { members := [⟨2⟩], class? := some {} } },
    { name := "b", kind := .field { type := ⟨0⟩ } },
    { name := "W", kind := .record { members := [⟨4⟩], class? := some {} } },
    { name := "w", kind := .field { type := ⟨1⟩ } },
    { name := "M"
      kind := .record { class? := some { bases := [{ record := ⟨3⟩, isVirtual := true }] } } },
    { name := "R"
      kind := .record
        { members := [⟨7⟩]
          class? := some { bases := [{ record := ⟨1⟩ }, { record := ⟨5⟩ }] } } },
    { name := "r", kind := .field { type := ⟨1⟩ } },
    { name := "V", kind := .record { isComplete := false, class? := some {} } },
    { name := "V", canonical? := some ⟨8⟩
      kind := .record { members := [⟨2⟩], class? := some {} } },
    { name := "S"
      kind := .record { class? := some { bases := [{ record := ⟨9⟩, isVirtual := true }] } } }]
  topLevel := #[⟨0⟩, ⟨1⟩, ⟨3⟩, ⟨5⟩, ⟨6⟩, ⟨8⟩, ⟨9⟩, ⟨10⟩]

theorem record_answers_redeclared :
    let t := Target.lp64 ""
    ∃ r l, (redeclared.node ⟨6⟩).record? = some r ∧ r.isComplete ∧ r.isDependent = false ∧
      (∀ f ∈ redeclared.fieldsAmong r.members,
        ∃ l, typeLayoutInside redeclared t ⟨6⟩ f.2.type = .ok l) ∧
      (∀ b ∈ r.bases, ∃ q, placementInside redeclared t ⟨6⟩ b.record = .ok q) ∧
      (natural redeclared t).record ⟨6⟩ = .ok l := by
  intro t
  let r : RecordNode :=
    { members := [⟨7⟩]
      class? := some { bases := [{ record := ⟨1⟩ }, { record := ⟨5⟩ }] } }
  have hr : (redeclared.node ⟨6⟩).record? = some r := by decide +kernel
  have hfields : ∀ f ∈ redeclared.fieldsAmong r.members,
      (typeLayoutInside redeclared t ⟨6⟩ f.2.type).isOk := by decide +kernel
  have hbases : ∀ b ∈ r.bases, (placementInside redeclared t ⟨6⟩ b.record).isOk := by
    decide +kernel
  have hfits : (natural redeclared t).record ⟨6⟩ ≠ .error (.tooLarge "R") := by decide +kernel
  have hfields := fun f hf => exists_of_isOk (hfields f hf)
  have hbases := fun b hb => exists_of_isOk (hbases b hb)
  rcases record_answers redeclared t hr rfl rfl hfields hbases with
    ⟨l, hl⟩ | ⟨_, he⟩ | ⟨b, hb, hvirtual, _⟩
  · exact ⟨r, l, hr, rfl, rfl, hfields, hbases, hl⟩
  · exact absurd he hfits
  · exact absurd hvirtual ((by decide : ∀ b ∈ r.bases, ¬ b.isVirtual) b hb)

/-- A class that names a virtual base by its definition is refused, if the class of the base was
declared before. -/
theorem record_refuses_redeclared :
    let t := Target.lp64 ""
    ∃ r, (redeclared.node ⟨10⟩).record? = some r ∧ r.isComplete ∧ r.isDependent = false ∧
      (∀ f ∈ redeclared.fieldsAmong r.members,
        ∃ l, typeLayoutInside redeclared t ⟨10⟩ f.2.type = .ok l) ∧
      (∀ b ∈ r.bases, ∃ q, placementInside redeclared t ⟨10⟩ b.record = .ok q) ∧
      (natural redeclared t).record ⟨10⟩ = .error (.incomplete "V") := by
  intro t
  let r : RecordNode := { class? := some { bases := [{ record := ⟨9⟩, isVirtual := true }] } }
  have hbases : ∀ b ∈ r.bases, (placementInside redeclared t ⟨10⟩ b.record).isOk := by
    decide +kernel
  refine ⟨r, by decide +kernel, rfl, rfl, ?_, fun b hb => exists_of_isOk (hbases b hb), ?_⟩
  · simp [r, TranslationUnit.fieldsAmong]
  · decide +kernel

end ForeignDecl.Layout
