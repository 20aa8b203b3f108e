import ForeignDecl.Layout.Basic
import ForeignDecl.OrderedSet
import ForeignDecl.Target
import ForeignDecl.Unit.Basic

/-!
# Natural layout

Records laid out the way the common application binary interfaces do it. Each field goes to the
next offset aligned for its type, the fields of a union all go to the start, and the total size is
rounded up to the alignment of the record. A bitfield that would cross a multiple of the alignment of its
declared type begins at that multiple. A C++ record starts with a pointer to its virtual functions when it is dynamic and no base can
lend it one; then come its non-virtual bases, its fields, and last every virtual base of the whole
hierarchy, once each. An empty base takes no room.

`placeRecord` lays out one record, given the layouts of the types of its fields and the placements
of its bases. `placementWithin` ties the knot: a record that is met again inside itself is refused,
so the nesting of records is bounded by their number and the recursion ends.

Numbers are exact here, however large they get. `Layout.Words` makes the same steps with numbers of 64
bits, and gives the same answers as long as these suffice.
-/

set_option autoImplicit false

namespace ForeignDecl.Layout

/-! ## Placing parts one after the other

Rounding up is pinned down by three laws: `alignUp` does not go below the offset, it gives a multiple
of the alignment, and no smaller multiple would do. -/

/-- The least multiple of `align` that is not below `offset`. -/
def alignUp (offset align : Nat) : Nat :=
  if align ≤ 1 then offset else (offset + align - 1) / align * align

theorem le_alignUp (offset align : Nat) : offset ≤ alignUp offset align := by
  unfold alignUp
  split
  · exact Nat.le_refl offset
  · have := Nat.div_add_mod (offset + align - 1) align
    have := Nat.mod_lt (offset + align - 1) (y := align) (by omega)
    rw [Nat.mul_comm]
    omega

theorem dvd_alignUp (offset : Nat) {align : Nat} (h : 0 < align) :
    align ∣ alignUp offset align := by
  unfold alignUp
  split
  · have : align = 1 := by omega
    exact this ▸ Nat.one_dvd offset
  · exact Nat.dvd_mul_left align _

theorem alignUp_le {offset align bound : Nat} (h : offset ≤ bound) (hd : align ∣ bound) :
    alignUp offset align ≤ bound := by
  unfold alignUp
  split
  · exact h
  · obtain ⟨k, rfl⟩ := hd
    rw [Nat.mul_comm]
    refine Nat.mul_le_mul_left align (Nat.le_of_lt_succ ((Nat.div_lt_iff_lt_mul (by omega)).2 ?_))
    rw [Nat.succ_mul, Nat.mul_comm]
    omega

/-- Where the next part of a record may go, and the alignment its parts ask for so far. -/
structure Cursor where
  offset : Nat
  align : Nat
deriving DecidableEq, Repr, Inhabited

/-- The places of all parts of a record, in bits. -/
structure Placement where
  size : Nat
  align : Nat
  /-- Size without the virtual bases, which belong to the most derived record alone. -/
  ownSize : Nat
  /-- Alignment without the virtual bases. -/
  ownAlign : Nat
  fieldOffsets : List Nat
  /-- Direct non-virtual bases, by canonical declaration. -/
  bases : List (DeclId × Nat)
  /-- Virtual bases of the whole hierarchy, by canonical declaration. -/
  virtualBases : List (DeclId × Nat)
  /-- Has a pointer to virtual functions or to virtual bases. -/
  isDynamic : Bool
  /-- A C++ record with nothing to store. -/
  isEmpty : Bool
deriving DecidableEq, Repr, Inhabited

/-- Virtual bases of the whole hierarchy, in the order of their placement. -/
def Placement.virtualOrder (p : Placement) : List DeclId := p.virtualBases.map (·.1)

/-- A base class, by its canonical declaration, with its own placement. -/
structure PlacedBase where
  id : DeclId
  isVirtual : Bool
  placement : Placement
deriving DecidableEq, Repr, Inhabited

/-- Place base classes one after the other. An empty one goes to the start of the record and takes
no room, but its alignment counts. -/
def placeBases (c : Cursor) : List (DeclId × Placement) → Cursor × List (DeclId × Nat)
  | [] => (c, [])
  | (id, p) :: rest =>
    let align := max c.align p.ownAlign
    if p.isEmpty then
      let (c, placed) := placeBases { c with align } rest
      (c, (id, 0) :: placed)
    else
      let offset := alignUp c.offset p.ownAlign
      let (c, placed) := placeBases { offset := offset + p.ownSize, align } rest
      (c, (id, offset) :: placed)

/-! ## Fields -/

/-- Sizes in bits are below this bound. -/
def sizeBound : Nat := Nat.pow 2 64

/-- Place a field behind the others: the cursor behind it, and its offset. A bitfield of width zero
only closes the storage unit. `none` when a field ends beyond the greatest size. -/
def placeField? (c : Cursor) (f : FieldNode) (l : TypeLayout) : Option (Cursor × Nat) :=
  let unit := max l.align 1
  match f.width? with
  | some 0 =>
    let offset := alignUp c.offset unit
    some ({ c with offset }, offset)
  | some width =>
    let straddles := c.offset / unit ≠ (c.offset + width - 1) / unit
    let offset := if straddles then alignUp c.offset unit else c.offset
    some ({ offset := offset + width, align := max c.align l.align }, offset)
  | none =>
    let offset := alignUp c.offset unit
    if offset + l.size < sizeBound then
      some ({ offset := offset + l.size, align := max c.align l.align }, offset)
    else none

/-- Place fields one behind the other. -/
def placeFields (layout : TypeId → Except LayoutError TypeLayout) (tooLarge : LayoutError)
    (c : Cursor) : List FieldNode → Except LayoutError (Cursor × List Nat)
  | [] => .ok (c, [])
  | f :: rest => do
    let l ← layout f.type
    match placeField? c f l with
    | none => .error tooLarge
    | some (c, offset) =>
      let (c, offsets) ← placeFields layout tooLarge c rest
      .ok (c, offset :: offsets)

/-- The room a field takes up in a union. -/
def unionWidth (f : FieldNode) (l : TypeLayout) : Nat := f.width?.getD l.size

/-- Place the fields of a union, all at the start: the record has to hold the widest of them. -/
def placeUnionFields (layout : TypeId → Except LayoutError TypeLayout) (c : Cursor) :
    List FieldNode → Except LayoutError (Cursor × List Nat)
  | [] => .ok (c, [])
  | f :: rest => do
    let l ← layout f.type
    let c := { offset := max c.offset (unionWidth f l), align := max c.align l.align }
    let (c, offsets) ← placeUnionFields layout c rest
    .ok (c, 0 :: offsets)

/-! ## Records -/

/-- The virtual bases that a base class brings along: those of its own hierarchy, then itself if it
is one. -/
def virtualIdsOf (b : PlacedBase) : List DeclId :=
  b.placement.virtualOrder ++ if b.isVirtual then [b.id] else []

/-- The virtual bases of a hierarchy, each once, in the order in which they are first met. -/
def virtualIds (bases : List PlacedBase) : List DeclId :=
  (OrderedSet.ofList (bases.flatMap virtualIdsOf)).toList

/-- The first base with a pointer to virtual functions is put in front, since the record shares that
pointer. -/
def primaryFirst (bases : List (DeclId × Placement)) : List (DeclId × Placement) :=
  match bases.find? (·.2.isDynamic) with
  | some primary => primary :: bases.eraseP (·.2.isDynamic)
  | none => bases

/-- The bases that a record names, each laid out. -/
def namedBases (u : TranslationUnit) (place : DeclId → Except LayoutError Placement)
    (r : RecordNode) : Except LayoutError (List PlacedBase) :=
  r.bases.mapM fun b => do
    return PlacedBase.mk (u.canonical b.record) b.isVirtual (← place b.record)

/-- A record with these bases has a pointer to virtual functions or to virtual bases, its own or that of a
base. -/
def isDynamicWith (u : TranslationUnit) (r : RecordNode) (bases : List PlacedBase) : Bool :=
  r.members.any (fun m => (u.node m).isVirtualMethod) ||
    bases.any fun b => b.isVirtual || b.placement.isDynamic

/-- The non-virtual ones among the bases of a record, which are placed in front of its fields. -/
def directBases (bases : List PlacedBase) : List (DeclId × Placement) :=
  (bases.filter (!·.isVirtual)).map fun b => (b.id, b.placement)

/-- Where the first base or field may go: behind the record's own pointer to virtual functions, if
it has one. -/
def startCursor (t : Target) (hasOwnPointer : Bool) : Cursor :=
  if hasOwnPointer then { offset := t.pointer.size, align := max 8 t.pointer.align }
  else { offset := 0, align := 8 }

/-- Lay out one record. `layout` answers for the types of its fields and `place` for its bases. -/
def placeRecord (u : TranslationUnit) (t : Target)
    (layout : TypeId → Except LayoutError TypeLayout) (place : DeclId → Except LayoutError Placement)
    (d : DeclId) : Except LayoutError Placement :=
  match (u.node d).record? with
  | none => .error (.noLayout (u.displayName d))
  | some r =>
    if !r.isComplete then .error (.incomplete (u.displayName d))
    else if r.isDependent then .error (.dependent (u.displayName d))
    else do
      let bases ← namedBases u place r
      let isDynamic := isDynamicWith u r bases
      let direct := directBases bases
      let hasOwnPointer := isDynamic && r.isCxx && !direct.any (·.2.isDynamic)
      let (c, placedBases) := placeBases (startCursor t hasOwnPointer) (primaryFirst direct)
      let fields := (u.fieldsAmong r.members).map (·.2)
      let (c, fieldOffsets) ←
        if r.isUnion then placeUnionFields layout c fields
        else placeFields layout (.tooLarge (u.displayName d)) c fields
      let virtuals ← (virtualIds bases).mapM fun id => do return (id, ← place id)
      let (whole, placedVirtuals) := placeBases c virtuals
      let size := alignUp whole.offset whole.align
      return {
        size := if size = 0 && r.isCxx then 8 else size
        align := whole.align
        ownSize := alignUp c.offset c.align
        ownAlign := c.align
        fieldOffsets
        bases := placedBases
        virtualBases := placedVirtuals
        isDynamic
        isEmpty := r.isCxx && fields.isEmpty && !isDynamic &&
          bases.all fun b => b.placement.isEmpty && !b.isVirtual }

/-! ## Types -/

/-- The layout of a type, given the placements of records. A chain of more than `fuel` types is
circular, so the type contains itself. -/
def typeLayoutWithin (u : TranslationUnit) (t : Target)
    (place : DeclId → Except LayoutError Placement) :
    Nat → TypeId → Except LayoutError TypeLayout
  | 0, id => .error (.recursive ("(type #" ++ toString id.index ++ ")"))
  | fuel + 1, id =>
    match u.type id with
    | .builtin kind =>
      match t.builtin? kind with
      | some l => .ok l
      | none => .error (.noLayout kind.spelling)
    | .pointer _ | .lvalueReference _ | .rvalueReference _ | .objcPointer _ => .ok t.pointer
    | .array element count => do
      let l ← typeLayoutWithin u t place fuel element
      if l.size * count < sizeBound then .ok ⟨l.size * count, l.align⟩
      else .error (.tooLarge ("array of " ++ toString count ++ " elements"))
    | .incompleteArray element | .variableArray element => do
      let l ← typeLayoutWithin u t place fuel element
      .ok ⟨0, l.align⟩
    | .record d | .specialization _ _ (some d) => do
      let p ← place d
      .ok ⟨p.size, p.align⟩
    | .enum _ => .ok t.int
    | .typedef d =>
      match (u.node d).aliased? with
      | some underlying => typeLayoutWithin u t place fuel underlying
      | none => .error (.noLayout (u.node d).name)
    | .elaborated inner | .paren inner => typeLayoutWithin u t place fuel inner
    | .function _ _ _ => .error (.noLayout "function type")
    | .specialization template _ none => .error (.dependent template)
    | .templateParameter name => .error (.dependent name)
    | .unsupported spelling => .error (.noLayout spelling)

/-! ## The whole unit -/

/-- The placement of a record inside the records of `visiting`, which are the canonical declarations
of those being laid out. -/
def placementWithin (u : TranslationUnit) (t : Target) :
    Nat → List DeclId → DeclId → Except LayoutError Placement
  | 0, _, d => .error (.recursive (u.displayName d))
  | fuel + 1, visiting, d =>
    let canonical := u.canonical d
    if canonical ∈ visiting then .error (.recursive (u.displayName d))
    else
      let place := placementWithin u t fuel (canonical :: visiting)
      placeRecord u t (typeLayoutWithin u t place u.typeBudget) place d

/-- The placement of a record on its own. Records nest at most as deep as there are records. -/
def placement (u : TranslationUnit) (t : Target) (d : DeclId) : Except LayoutError Placement :=
  placementWithin u t (u.nodes.size + 1) [] d

/-- The layout of a type on its own. -/
def typeLayout (u : TranslationUnit) (t : Target) (id : TypeId) : Except LayoutError TypeLayout :=
  typeLayoutWithin u t (placement u t) u.typeBudget id

/-- The layout of a record on its own. -/
def recordLayout (u : TranslationUnit) (t : Target) (d : DeclId) :
    Except LayoutError RecordLayout := do
  let p ← placement u t d
  return { size := p.size, align := p.align, fieldOffsets := p.fieldOffsets }

/-- The offset in bytes of a base among placed ones. -/
def offsetOf (u : TranslationUnit) (record base : DeclId) (placed : List (DeclId × Nat)) :
    Except LayoutError Nat :=
  match placed.find? (·.1 = u.canonical base) with
  | some (_, bits) => .ok (bits / 8)
  | none => .error (.notABase (u.displayName record) (u.displayName base))

/-- The oracle that computes natural layouts. -/
def natural (u : TranslationUnit) (t : Target) : LayoutOracle where
  type := typeLayout u t
  record := recordLayout u t
  baseOffset record base := do
    let p ← placement u t record
    offsetOf u record base p.bases
  virtualBaseOffset record base := do
    let p ← placement u t record
    offsetOf u record base p.virtualBases

end ForeignDecl.Layout
