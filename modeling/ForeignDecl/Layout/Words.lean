import ForeignDecl.Layout.Natural

/-!
# Layouts in machine words

`Layout.Natural` lays records out with numbers of any size. A program that does so has words of 64 bits,
and while a size is added up it can go beyond the greatest of them. Two places are guarded: an array, and
a field that is no bitfield, are refused as too large when they reach beyond the greatest size. All other
sums and products are made as they come: rounding up to an alignment, stepping over a base or a bitfield.
`Arithmetic` says what becomes of one of these that does not fit into a word.

The steps are those of `Layout.Natural`, in the order in which a program makes them. The order counts,
since the first step that is refused or given up decides about the answer: a virtual base is laid out only
when the one before it was placed.
-/

set_option autoImplicit false

namespace ForeignDecl.Layout

/-- What becomes of a sum or a product that does not fit into a word. -/
inductive Arithmetic where
  /-- The computation is given up. -/
  | checked
  /-- The carry is lost. -/
  | wrapping
deriving DecidableEq, Repr, Inhabited

/-- The word that stands for a sum or a product. -/
def Arithmetic.word (a : Arithmetic) (n : Nat) : Except LayoutError Nat :=
  if n < sizeBound then .ok n
  else match a with
    | .checked => .error .overflow
    | .wrapping => .ok (n % sizeBound)

namespace Words

/-! ## Placing parts

Each step takes the function that makes words of numbers. -/

/-- The word before another one; zero comes after the greatest. -/
def previous (n : Nat) : Nat := if n = 0 then sizeBound - 1 else n - 1

/-- Place a base class: the cursor behind it, and its offset. -/
def placeBase (word : Nat → Except LayoutError Nat) (c : Cursor) (p : Placement) :
    Except LayoutError (Cursor × Nat) :=
  let align := max c.align p.ownAlign
  if p.isEmpty then .ok ({ c with align }, 0)
  else do
    let offset ← word (alignUp c.offset p.ownAlign)
    let behind ← word (offset + p.ownSize)
    return ({ offset := behind, align }, offset)

/-- Place base classes one after the other, each when it was laid out. -/
def placeBases (word : Nat → Except LayoutError Nat) (c : Cursor) :
    List (DeclId × Except LayoutError Placement) → Except LayoutError (Cursor × List (DeclId × Nat))
  | [] => .ok (c, [])
  | (id, answer) :: rest => do
    let p ← answer
    let (c, offset) ← placeBase word c p
    let (c, placed) ← placeBases word c rest
    return (c, (id, offset) :: placed)

/-- Place a field behind the others: the cursor behind it, and its offset. Where a bitfield ends is asked
twice, before and after it may have begun a new unit. -/
def placeField (word : Nat → Except LayoutError Nat) (tooLarge : LayoutError) (c : Cursor)
    (f : FieldNode) (l : TypeLayout) : Except LayoutError (Cursor × Nat) :=
  let unit := max l.align 1
  match f.width? with
  | some 0 => do
    let offset ← word (alignUp c.offset unit)
    return ({ c with offset }, offset)
  | some width => do
    let stop ← word (c.offset + width)
    let offset ←
      if c.offset / unit ≠ previous stop / unit then word (alignUp c.offset unit) else .ok c.offset
    let behind ← word (offset + width)
    return ({ offset := behind, align := max c.align l.align }, offset)
  | none => do
    let offset ← word (alignUp c.offset unit)
    if offset + l.size < sizeBound then
      return ({ offset := offset + l.size, align := max c.align l.align }, offset)
    else .error tooLarge

/-- Place fields one behind the other. -/
def placeFields (word : Nat → Except LayoutError Nat)
    (layout : TypeId → Except LayoutError TypeLayout) (tooLarge : LayoutError) (c : Cursor) :
    List FieldNode → Except LayoutError (Cursor × List Nat)
  | [] => .ok (c, [])
  | f :: rest => do
    let l ← layout f.type
    let (c, offset) ← placeField word tooLarge c f l
    let (c, offsets) ← placeFields word layout tooLarge c rest
    return (c, offset :: offsets)

/-! ## Records -/

/-- Place the fields of a record, those of a union all at the start. -/
def placeMembers (word : Nat → Except LayoutError Nat) (u : TranslationUnit)
    (layout : TypeId → Except LayoutError TypeLayout) (d : DeclId) (r : RecordNode) (c : Cursor) :
    Except LayoutError (Cursor × List Nat) :=
  let fields := (u.fieldsAmong r.members).map (·.2)
  if r.isUnion then placeUnionFields layout c fields
  else placeFields word layout (.tooLarge (u.displayName d)) c fields

/-- Place the direct bases of a record at its start, behind its pointer to virtual functions if it has one
of its own. -/
def placeDirect (word : Nat → Except LayoutError Nat) (u : TranslationUnit) (t : Target)
    (r : RecordNode) (bases : List PlacedBase) : Except LayoutError (Cursor × List (DeclId × Nat)) :=
  let direct := directBases bases
  let hasOwnPointer := isDynamicWith u r bases && r.isCxx && !direct.any (·.2.isDynamic)
  placeBases word (startCursor t hasOwnPointer) ((primaryFirst direct).map fun b => (b.1, .ok b.2))

/-- Place the virtual bases of a record behind its fields, and close it. -/
def closeRecord (word : Nat → Except LayoutError Nat) (u : TranslationUnit)
    (place : DeclId → Except LayoutError Placement) (r : RecordNode) (bases : List PlacedBase)
    (placedBases : List (DeclId × Nat)) (fields : Cursor × List Nat) : Except LayoutError Placement := do
  let (c, fieldOffsets) := fields
  let ownSize ← word (alignUp c.offset c.align)
  let (whole, virtualBases) ← placeBases word c ((virtualIds bases).map fun id => (id, place id))
  let size ← word (alignUp whole.offset whole.align)
  let isDynamic := isDynamicWith u r bases
  return {
    size := if size = 0 && r.isCxx then 8 else size
    align := whole.align
    ownSize
    ownAlign := c.align
    fieldOffsets
    bases := placedBases
    virtualBases
    isDynamic
    isEmpty := r.isCxx && ((u.fieldsAmong r.members).map (·.2)).isEmpty && !isDynamic &&
      bases.all fun b => b.placement.isEmpty && !b.isVirtual }

/-- Lay out one record. `layout` answers for the types of its fields and `place` for its bases. -/
def placeRecord (word : Nat → Except LayoutError Nat) (u : TranslationUnit) (t : Target)
    (layout : TypeId → Except LayoutError TypeLayout) (place : DeclId → Except LayoutError Placement)
    (d : DeclId) : Except LayoutError Placement :=
  match (u.node d).record? with
  | none => .error (.noLayout (u.displayName d))
  | some r =>
    if !r.isComplete then .error (.incomplete (u.displayName d))
    else if r.isDependent then .error (.dependent (u.displayName d))
    else do
      let bases ← namedBases u place r
      let (c, placedBases) ← placeDirect word u t r bases
      let fields ← placeMembers word u layout d r c
      closeRecord word u place r bases placedBases fields

/-- The placement of a record inside the records of `visiting`. -/
def placementWithin (word : Nat → Except LayoutError Nat) (u : TranslationUnit) (t : Target) :
    Nat → List DeclId → DeclId → Except LayoutError Placement
  | 0, _, d => .error (.recursive (u.displayName d))
  | fuel + 1, visiting, d =>
    let canonical := u.canonical d
    if canonical ∈ visiting then .error (.recursive (u.displayName d))
    else
      let place := placementWithin word u t fuel (canonical :: visiting)
      placeRecord word u t (typeLayoutWithin u t place u.typeBudget) place d

/-- The placement of a record on its own. -/
def placement (word : Nat → Except LayoutError Nat) (u : TranslationUnit) (t : Target) (d : DeclId) :
    Except LayoutError Placement :=
  placementWithin word u t (u.nodes.size + 1) [] d

end Words

/-! ## Oracles -/

/-- The oracle that computes its answers from the placements of records. -/
def answering (u : TranslationUnit) (t : Target) (place : DeclId → Except LayoutError Placement) :
    LayoutOracle where
  type := typeLayoutWithin u t place u.typeBudget
  record d := do
    let p ← place d
    return { size := p.size, align := p.align, fieldOffsets := p.fieldOffsets }
  baseOffset record base := do
    let p ← place record
    offsetOf u record base p.bases
  virtualBaseOffset record base := do
    let p ← place record
    offsetOf u record base p.virtualBases

/-- The oracle that computes natural layouts in words. -/
def words (a : Arithmetic) (u : TranslationUnit) (t : Target) : LayoutOracle :=
  answering u t (Words.placement a.word u t)

end ForeignDecl.Layout
