import ForeignDecl.Layout.Natural

/-!
# A record in three steps

Once it is clear that a record can be laid out at all, that is done in three steps, each of which may be
refused: its bases are laid out, then its fields are placed behind them, then its virtual bases are laid
out (`placeInSteps`). What the placement is then follows without another question (`assemble`).
-/

set_option autoImplicit false

namespace ForeignDecl.Layout

variable {u : TranslationUnit} {t : Target} {d : DeclId} {r : RecordNode}
  {layout : TypeId → Except LayoutError TypeLayout} {place : DeclId → Except LayoutError Placement}

/-- The direct bases, placed at the start of a record: behind a pointer of its own, if the record is
dynamic and no direct base has one to share, and with the primary base first. -/
def placedDirect (u : TranslationUnit) (t : Target) (r : RecordNode) (bases : List PlacedBase) :
    Cursor × List (DeclId × Nat) :=
  placeBases
    (startCursor t (isDynamicWith u r bases && r.isCxx && !(directBases bases).any (·.2.isDynamic)))
    (primaryFirst (directBases bases))

/-- The fields of a record, placed from the cursor on. The only step that asks for layouts of types, and
the only one in which a sum can be refused. -/
def placedFields (u : TranslationUnit) (layout : TypeId → Except LayoutError TypeLayout) (d : DeclId)
    (r : RecordNode) (c : Cursor) : Except LayoutError (Cursor × List Nat) :=
  let fields := (u.fieldsAmong r.members).map (·.2)
  if r.isUnion then placeUnionFields layout c fields
  else placeFields layout (.tooLarge (u.displayName d)) c fields

/-- The virtual bases of a hierarchy, laid out. -/
def virtualsOf (place : DeclId → Except LayoutError Placement) (bases : List PlacedBase) :
    Except LayoutError (List (DeclId × Placement)) :=
  (virtualIds bases).mapM fun id => do return (id, ← place id)

/-- What the placement of a record is, from its bases, its placed fields and its virtual bases. Nothing
is asked here and nothing refused, so whether a record has a layout is settled by the three steps alone.
-/
def assemble (u : TranslationUnit) (t : Target) (r : RecordNode) (bases : List PlacedBase)
    (fields : Cursor × List Nat) (virtuals : List (DeclId × Placement)) : Placement :=
  let (whole, placedVirtuals) := placeBases fields.1 virtuals
  let size := alignUp whole.offset whole.align
  { size := if size = 0 && r.isCxx then 8 else size
    align := whole.align
    ownSize := alignUp fields.1.offset fields.1.align
    ownAlign := fields.1.align
    fieldOffsets := fields.2
    bases := (placedDirect u t r bases).2
    virtualBases := placedVirtuals
    isDynamic := isDynamicWith u r bases
    isEmpty := r.isCxx && ((u.fieldsAmong r.members).map (·.2)).isEmpty && !isDynamicWith u r bases &&
      bases.all fun b => b.placement.isEmpty && !b.isVirtual }

/-- The three steps, and what follows from them. Whatever compares two layouts does it step by step: the
same questions are answered in the same way, and `assemble` needs no case of its own. -/
def placeInSteps (u : TranslationUnit) (t : Target) (layout : TypeId → Except LayoutError TypeLayout)
    (place : DeclId → Except LayoutError Placement) (d : DeclId) (r : RecordNode) :
    Except LayoutError Placement := do
  let bases ← namedBases u place r
  let fields ← placedFields u layout d r (placedDirect u t r bases).1
  let virtuals ← virtualsOf place bases
  return assemble u t r bases fields virtuals

/-- **A record is refused for what it is, or else laid out in three steps.** -/
theorem placeRecord_eq (d : DeclId) :
    placeRecord u t layout place d =
      match (u.node d).record? with
      | none => .error (.noLayout (u.displayName d))
      | some r =>
        if !r.isComplete then .error (.incomplete (u.displayName d))
        else if r.isDependent then .error (.dependent (u.displayName d))
        else placeInSteps u t layout place d r := by
  unfold placeRecord
  cases (u.node d).record? with
  | none => rfl
  | some r =>
    refine ite_congr rfl (fun _ => rfl) fun _ => ite_congr rfl (fun _ => rfl) fun _ => ?_
    refine bind_congr fun bases => ?_
    dsimp only [placedFields]
    split
    · exact bind_congr fun fields => rfl
    · rfl

/-- A record that is complete and not dependent is laid out, though it may still be refused for a part
of it. -/
theorem placeRecord_of_complete (hr : (u.node d).record? = some r) (hcomplete : r.isComplete)
    (hdependent : r.isDependent = false) :
    placeRecord u t layout place d = placeInSteps u t layout place d r := by
  rw [placeRecord_eq, hr]
  simp [hcomplete, hdependent]

/-- What was laid out could be laid out: the inversion of `placeRecord_eq`, for proofs that start from a
placement. -/
theorem placeRecord_eq_ok {p : Placement} (h : placeRecord u t layout place d = .ok p) :
    ∃ r, (u.node d).record? = some r ∧ r.isComplete ∧ r.isDependent = false ∧
      placeInSteps u t layout place d r = .ok p := by
  rw [placeRecord_eq] at h
  cases hr : (u.node d).record? with
  | none =>
    rw [hr] at h
    cases h
  | some r =>
    rw [hr] at h
    dsimp only at h
    split at h
    · cases h
    next hcomplete =>
    split at h
    · cases h
    next hdependent =>
    exact ⟨r, rfl, by simpa using hcomplete, by simpa using hdependent, h⟩

end ForeignDecl.Layout
