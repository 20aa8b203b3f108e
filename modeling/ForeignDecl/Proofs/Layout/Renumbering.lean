import ForeignDecl.Proofs.Layout.Steps
import ForeignDecl.Proofs.OrderedSet
import ForeignDecl.Proofs.Unit.Renumbering

/-!
# Layouts of renumbered units

Natural layout compares handles, it keeps lists of them, and it puts them into the texts of its errors.
None of this is in the answers, and so two units that are equal up to their handles have the same
layouts: the same questions are answered, with the same answers, and the others are refused for the same
reasons (`natural_alike`).

The proof follows the layers of the algorithm. Placing fields and bases is the same computation on the
same numbers; a record is laid out from its parts in steps (`placeInSteps`), each of which is related;
and the recursions through types and through records go by induction on their fuel, with the other one
as a hypothesis.
-/

set_option autoImplicit false

namespace ForeignDecl

/-- The error without the names and the numbers in its text. What is left is why the question was
refused, which is all that an extraction acts on. -/
def LayoutError.reason : LayoutError → LayoutError
  | .noLayout _ => .noLayout ""
  | .incomplete _ => .incomplete ""
  | .tooLarge _ => .tooLarge ""
  | .dependent _ => .dependent ""
  | .notABase _ _ => .notABase "" ""
  | .missingField _ index => .missingField "" index
  | .recursive _ => .recursive ""
  | .overflow => .overflow

namespace Layout

/-! ## Questions that are answered alike -/

section Questions

variable {α β γ δ : Type}

/-- Both questions are answered, and `f` leads from one answer to the other, or both are refused for the
same reason. For answers without handles `f` is the identity; for placements it renumbers the bases in
them. -/
inductive Alike (f : α → β) : Except LayoutError α → Except LayoutError β → Prop where
  | ok {a : α} {b : β} (h : f a = b) : Alike f (.ok a) (.ok b)
  | error {e e' : LayoutError} (h : e.reason = e'.reason) : Alike f (.error e) (.error e')

namespace Alike

variable {f : α → β} {x : Except LayoutError α} {x' : Except LayoutError β}

/-- Two questions in a row: the second ones are compared at an answer and what `f` makes of it. -/
theorem bind {g : γ → δ} {k : α → Except LayoutError γ} {k' : β → Except LayoutError δ}
    (hx : Alike f x x') (hk : ∀ a, Alike g (k a) (k' (f a))) : Alike g (x >>= k) (x' >>= k') := by
  cases hx with
  | ok h => exact h ▸ hk _
  | error h => exact .error h

/-- A question for each thing of a list, by induction on it. -/
theorem mapM {g : γ → δ} {k : γ → Except LayoutError α} {k' : δ → Except LayoutError β}
    (hk : ∀ c, Alike f (k c) (k' (g c))) (cs : List γ) :
    Alike (List.map f) (cs.mapM k) ((cs.map g).mapM k') := by
  induction cs with
  | nil => exact .ok rfl
  | cons c cs ih =>
    rw [List.mapM_cons, List.map_cons, List.mapM_cons]
    exact (hk c).bind fun _ => ih.bind fun _ => .ok rfl

end Alike

end Questions

/-! ## Placements -/

variable {ρ : Renumbering} {u u' : TranslationUnit} {t : Target}
  {layout layout' : TypeId → Except LayoutError TypeLayout}
  {place place' : DeclId → Except LayoutError Placement}

/-- A placement under new handles. It names its bases by handle; sizes, alignments and offsets stay. -/
def Placement.renumber (ρ : Renumbering) (p : Placement) : Placement :=
  { p with
    bases := p.bases.map (Prod.map ρ.decl id)
    virtualBases := p.virtualBases.map (Prod.map ρ.decl id) }

/-- A base that is about to be placed, with the placement of its record. -/
def PlacedBase.renumber (ρ : Renumbering) (b : PlacedBase) : PlacedBase :=
  { b with id := ρ.decl b.id, placement := b.placement.renumber ρ }

/-- Bases are placed by their sizes and alignments. By induction on them; the cursor that is carried
along is the same one on both sides. -/
theorem placeBases_renumber (c : Cursor) (bs : List (DeclId × Placement)) :
    placeBases c (bs.map (Prod.map ρ.decl (·.renumber ρ))) =
      (placeBases c bs).map id (List.map (Prod.map ρ.decl id)) := by
  induction bs generalizing c with
  | nil => rfl
  | cons b bs ih =>
    obtain ⟨d, p⟩ := b
    have hempty : (p.renumber ρ).isEmpty = p.isEmpty := rfl
    rw [List.map_cons, Prod.map_apply, placeBases, placeBases, hempty]
    dsimp only
    split
    · rw [show (p.renumber ρ).ownAlign = p.ownAlign from rfl, ih]
      rfl
    · rw [show (p.renumber ρ).ownAlign = p.ownAlign from rfl,
        show (p.renumber ρ).ownSize = p.ownSize from rfl, ih]
      rfl

/-- The base that moves to the front is the first one with a virtual table, on both sides the same. -/
theorem primaryFirst_renumber (bs : List (DeclId × Placement)) :
    primaryFirst (bs.map (Prod.map ρ.decl (·.renumber ρ))) =
      (primaryFirst bs).map (Prod.map ρ.decl (·.renumber ρ)) := by
  have hdynamic : (fun b : DeclId × Placement => b.2.isDynamic) ∘
      Prod.map ρ.decl (Placement.renumber ρ) = fun b => b.2.isDynamic := rfl
  unfold primaryFirst
  rw [List.find?_map, hdynamic]
  cases bs.find? fun b => b.2.isDynamic with
  | none => rfl
  | some primary => rw [Option.map_some, List.map_cons, List.eraseP_map, hdynamic]

/-- Virtual bases are listed once each. Which ones are equal is asked of the handles, and renumbering is
injective. -/
theorem virtualIds_renumber (bases : List PlacedBase) :
    virtualIds (bases.map (·.renumber ρ)) = (virtualIds bases).map ρ.decl := by
  have hof : ∀ b : PlacedBase, virtualIdsOf (b.renumber ρ) = (virtualIdsOf b).map ρ.decl := by
    intro b
    unfold virtualIdsOf Placement.virtualOrder
    cases hvirtual : b.isVirtual <;>
      simp [PlacedBase.renumber, Placement.renumber, hvirtual, Function.comp_def]
  unfold virtualIds
  rw [← OrderedSet.toList_map, OrderedSet.map_ofList, List.map_flatMap, List.flatMap_map]
  simp only [hof]

/-! ## Fields -/

section Fields

variable (hlayout : ∀ i, Alike id (layout i) (layout' (ρ.type i)))

include hlayout

/-- By induction on the fields, with any cursor. The errors may differ in the name of the record. -/
theorem placeFields_alike {e e' : LayoutError} (he : e.reason = e'.reason) (c : Cursor)
    (fs : List FieldNode) :
    Alike id (placeFields layout e c fs) (placeFields layout' e' c (fs.map (·.renumber ρ))) := by
  induction fs generalizing c with
  | nil => exact .ok rfl
  | cons f fs ih =>
    refine (hlayout f.type).bind fun l => ?_
    have hfield : placeField? c (f.renumber ρ) l = placeField? c f l := rfl
    dsimp only [id]
    rw [hfield]
    cases placeField? c f l with
    | none => exact .error he
    | some placed => exact (ih placed.1).bind fun _ => .ok rfl

theorem placeUnionFields_alike (c : Cursor) (fs : List FieldNode) :
    Alike id (placeUnionFields layout c fs)
      (placeUnionFields layout' c (fs.map (·.renumber ρ))) := by
  induction fs generalizing c with
  | nil => exact .ok rfl
  | cons f fs ih => exact (hlayout f.type).bind fun l => (ih _).bind fun _ => .ok rfl

end Fields

/-! ## Records -/

theorem directBases_renumber (bases : List PlacedBase) :
    directBases (bases.map (·.renumber ρ)) =
      (directBases bases).map (Prod.map ρ.decl (·.renumber ρ)) := by
  unfold directBases
  rw [List.filter_map, List.map_map, List.map_map]
  rfl

section Records

variable (h : IsRenumbering ρ u u')

include h

/-- The bases a record names, with the placements of their records. -/
theorem namedBases_alike (hplace : ∀ d, Alike (·.renumber ρ) (place d) (place' (ρ.decl d)))
    (r : RecordNode) :
    Alike (List.map (·.renumber ρ)) (namedBases u place r) (namedBases u' place' (r.renumber ρ)) := by
  unfold namedBases
  rw [RecordNode.bases_renumber]
  refine .mapM (fun b => (hplace b.record).bind fun p => ?_) _
  have hcanonical : u'.canonical (b.renumber ρ).record = ρ.decl (u.canonical b.record) :=
    h.canonical b.record
  rw [hcanonical]
  exact .ok rfl

/-- A record has a virtual table if one of its members is virtual or a base brings one. -/
theorem isDynamicWith_renumber (r : RecordNode) (bases : List PlacedBase) :
    isDynamicWith u' (r.renumber ρ) (bases.map (·.renumber ρ)) = isDynamicWith u r bases := by
  unfold isDynamicWith
  simp [Function.comp_def, h.node, PlacedBase.renumber, Placement.renumber]

theorem placedDirect_renumber (r : RecordNode) (bases : List PlacedBase) :
    placedDirect u' t (r.renumber ρ) (bases.map (·.renumber ρ)) =
      (placedDirect u t r bases).map id (List.map (Prod.map ρ.decl id)) := by
  unfold placedDirect
  rw [isDynamicWith_renumber h, RecordNode.isCxx_renumber, directBases_renumber, primaryFirst_renumber,
    placeBases_renumber, List.any_map]
  rfl

/-- Fields are placed one after another or, in a union, over each other. -/
theorem placedFields_alike (hlayout : ∀ i, Alike id (layout i) (layout' (ρ.type i))) (d : DeclId)
    (r : RecordNode) (c : Cursor) :
    Alike id (placedFields u layout d r c) (placedFields u' layout' (ρ.decl d) (r.renumber ρ) c) := by
  have hfields : (u'.fieldsAmong (r.renumber ρ).members).map (·.2) =
      ((u.fieldsAmong r.members).map (·.2)).map (·.renumber ρ) := by
    rw [RecordNode.members_renumber, h.fieldsAmong, List.map_map, List.map_map]
    rfl
  unfold placedFields
  dsimp only
  rw [hfields, RecordNode.isUnion_renumber]
  split
  · exact placeUnionFields_alike hlayout c _
  · have hreason : (LayoutError.tooLarge (u.displayName d)).reason =
        (LayoutError.tooLarge (u'.displayName (ρ.decl d))).reason := rfl
    exact placeFields_alike hlayout hreason c _

/-- Putting the parts together commutes with renumbering them. -/
theorem assemble_renumber (r : RecordNode) (bases : List PlacedBase) (fields : Cursor × List Nat)
    (virtuals : List (DeclId × Placement)) :
    assemble u' t (r.renumber ρ) (bases.map (·.renumber ρ)) fields
        (virtuals.map (Prod.map ρ.decl (·.renumber ρ))) =
      (assemble u t r bases fields virtuals).renumber ρ := by
  unfold assemble
  rw [placeBases_renumber, placedDirect_renumber h, isDynamicWith_renumber h,
    RecordNode.members_renumber, h.fieldsAmong]
  simp [Placement.renumber, PlacedBase.renumber, Function.comp_def]

omit h in
/-- The virtual bases with the placements of their records. -/
theorem virtualsOf_alike (hplace : ∀ d, Alike (·.renumber ρ) (place d) (place' (ρ.decl d)))
    (bases : List PlacedBase) :
    Alike (List.map (Prod.map ρ.decl (·.renumber ρ))) (virtualsOf place bases)
      (virtualsOf place' (bases.map (·.renumber ρ))) := by
  unfold virtualsOf
  rw [virtualIds_renumber]
  refine .mapM (fun i => ?_) (virtualIds bases)
  exact (hplace i).bind fun _ => .ok rfl

/-- **A record is laid out alike** if its fields and bases are. -/
theorem placeRecord_alike (hlayout : ∀ i, Alike id (layout i) (layout' (ρ.type i)))
    (hplace : ∀ d, Alike (·.renumber ρ) (place d) (place' (ρ.decl d))) (d : DeclId) :
    Alike (·.renumber ρ) (placeRecord u t layout place d)
      (placeRecord u' t layout' place' (ρ.decl d)) := by
  have hsteps : ∀ r : RecordNode, Alike (·.renumber ρ) (placeInSteps u t layout place d r)
      (placeInSteps u' t layout' place' (ρ.decl d) (r.renumber ρ)) := by
    intro r
    refine (namedBases_alike h hplace r).bind fun bases => ?_
    rw [placedDirect_renumber h]
    refine (placedFields_alike h hlayout d r _).bind fun fields => ?_
    refine (virtualsOf_alike hplace bases).bind fun virtuals => .ok ?_
    exact (assemble_renumber h r bases fields virtuals).symm
  rw [placeRecord_eq, placeRecord_eq, h.node, Node.record?_renumber]
  cases (u.node d).record? with
  | none => exact .error rfl
  | some r =>
    dsimp only [Option.map_some]
    rw [RecordNode.isComplete_renumber, RecordNode.isDependent_renumber]
    split
    · exact .error rfl
    split
    · exact .error rfl
    exact hsteps r

end Records

/-! ## The whole unit -/

section Unit

variable (h : IsRenumbering ρ u u')

include h

/-- By induction on the fuel, with the records of the unit laid out alike as a hypothesis. The cases are
the constructors of a type. -/
theorem typeLayoutWithin_alike (hplace : ∀ d, Alike (·.renumber ρ) (place d) (place' (ρ.decl d)))
    (fuel : Nat) (i : TypeId) :
    Alike id (typeLayoutWithin u t place fuel i) (typeLayoutWithin u' t place' fuel (ρ.type i)) := by
  induction fuel generalizing i with
  | zero => exact .error rfl
  | succ fuel ih =>
    -- Records and specializations are laid out through the record's placement.
    have hrecord : ∀ d, Alike id
        (do
          let p ← place d
          .ok ⟨p.size, p.align⟩ : Except LayoutError TypeLayout)
        (do
          let p ← place' (ρ.decl d)
          .ok ⟨p.size, p.align⟩) :=
      fun d => (hplace d).bind fun _ => .ok rfl
    unfold typeLayoutWithin
    rw [h.type]
    cases u.type i
    case builtin kind =>
      simp only [CType.renumber]
      cases t.builtin? kind with
      | none => exact .error rfl
      | some l => exact .ok rfl
    case array element count =>
      refine (ih element).bind fun l => ?_
      dsimp only [id]
      split
      · exact .ok rfl
      · exact .error rfl
    case incompleteArray element => exact (ih element).bind fun _ => .ok rfl
    case variableArray element => exact (ih element).bind fun _ => .ok rfl
    case record d => exact hrecord d
    case typedef d =>
      simp only [CType.renumber, h.node, Node.aliased?_renumber]
      cases (u.node d).aliased? with
      | none => exact .error rfl
      | some underlying => exact ih underlying
    case elaborated inner => exact ih inner
    case paren inner => exact ih inner
    case specialization template args record? =>
      cases record? with
      | none => exact .error rfl
      | some d => exact hrecord d
    case function => exact .error rfl
    case templateParameter => exact .error rfl
    case unsupported => exact .error rfl
    all_goals exact .ok rfl

/-- By induction on the fuel. The list of records that are being laid out is renumbered with everything
else, so a record that contains itself is found out at the same depth. -/
theorem placementWithin_alike (fuel : Nat) (visiting : List DeclId) (d : DeclId) :
    Alike (·.renumber ρ) (placementWithin u t fuel visiting d)
      (placementWithin u' t fuel (visiting.map ρ.decl) (ρ.decl d)) := by
  induction fuel generalizing visiting d with
  | zero => exact .error rfl
  | succ fuel ih =>
    have hvisiting : u'.canonical (ρ.decl d) ∈ visiting.map ρ.decl ↔ u.canonical d ∈ visiting := by
      simp [h.canonical]
    unfold placementWithin
    dsimp only
    by_cases hmem : u.canonical d ∈ visiting
    · rw [if_pos hmem, if_pos (hvisiting.2 hmem)]
      exact .error rfl
    · rw [if_neg hmem, if_neg (fun hmem' => hmem (hvisiting.1 hmem')), h.canonical, ← List.map_cons,
        h.typeBudget]
      exact placeRecord_alike h (typeLayoutWithin_alike h (ih _) _) (ih _) d

theorem placement_alike (d : DeclId) :
    Alike (·.renumber ρ) (placement u t d) (placement u' t (ρ.decl d)) := by
  unfold placement
  rw [h.nodeCount]
  exact placementWithin_alike h _ [] d

theorem typeLayout_alike (i : TypeId) :
    Alike id (typeLayout u t i) (typeLayout u' t (ρ.type i)) := by
  unfold typeLayout
  rw [h.typeBudget]
  exact typeLayoutWithin_alike h (placement_alike h) _ i

/-- The offset of a base is looked up under its canonical declaration. -/
theorem offsetOf_alike (record base : DeclId) (placed : List (DeclId × Nat)) :
    Alike id (offsetOf u record base placed)
      (offsetOf u' (ρ.decl record) (ρ.decl base) (placed.map (Prod.map ρ.decl id))) := by
  have hfound : (fun b : DeclId × Nat => decide (b.1 = u'.canonical (ρ.decl base))) ∘
      Prod.map ρ.decl id = fun b => decide (b.1 = u.canonical base) := by
    funext b
    simp [h.canonical]
  unfold offsetOf
  rw [List.find?_map, hfound]
  cases placed.find? fun b => decide (b.1 = u.canonical base) with
  | none => exact .error rfl
  | some b => exact .ok rfl

end Unit

end Layout

/-- The oracles answer alike, under the new handles what they answer under the old ones. The extraction
needs nothing else of natural layout, so it is proved for all oracles that are related in this way. -/
structure LayoutOracle.Alike (ρ : Renumbering) (o o' : LayoutOracle) : Prop where
  type : ∀ t, Layout.Alike id (o.type t) (o'.type (ρ.type t))
  record : ∀ d, Layout.Alike id (o.record d) (o'.record (ρ.decl d))
  baseOffset : ∀ d b, Layout.Alike id (o.baseOffset d b) (o'.baseOffset (ρ.decl d) (ρ.decl b))
  virtualBaseOffset : ∀ d b,
    Layout.Alike id (o.virtualBaseOffset d b) (o'.virtualBaseOffset (ρ.decl d) (ρ.decl b))

/-- **Natural layout does not depend on the handles.** -/
theorem Layout.natural_alike {ρ : Renumbering} {u u' : TranslationUnit} (h : IsRenumbering ρ u u')
    (t : Target) : (natural u t).Alike ρ (natural u' t) where
  type i := typeLayout_alike h i
  record d := (placement_alike h d).bind fun _ => .ok rfl
  baseOffset d b := (placement_alike h d).bind fun p => offsetOf_alike h d b p.bases
  virtualBaseOffset d b := (placement_alike h d).bind fun p => offsetOf_alike h d b p.virtualBases

end ForeignDecl
