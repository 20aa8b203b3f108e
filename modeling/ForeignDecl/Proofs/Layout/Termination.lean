import ForeignDecl.Proofs.Layout.Bases
import ForeignDecl.Proofs.Layout.Fields

/-!
# Layouts are found without bounds

To lay out a type is to lay out what is inside of it, and to lay out a record is to lay out the types of its
fields, its bases and its virtual bases; only a record that is inside of itself is refused at once.
`TypeAnswers` and `RecordAnswers` are that recursion with no other bound on it: an answer comes with the
finite tree of all the questions that it took. The bounds with which layouts are computed are large enough
to hold every such tree (`recordAnswers_placementWithin`), so each question has an answer, and only one
(`natural_ends`).
-/

set_option autoImplicit false

namespace ForeignDecl.Layout

variable {u : TranslationUnit} {t : Target}

/-! ## One step -/

/-- The layout of a type, given those of the type and of the record inside of it. This is one layer of
the recursion with its two sorts of questions as arguments, so that it can be taken both with fuel
(`typeLayoutWithin_succ`) and without (`TypeAnswers.step`). -/
def typeStep (u : TranslationUnit) (t : Target) (layout : TypeId → Except LayoutError TypeLayout)
    (place : DeclId → Except LayoutError Placement) (id : TypeId) : Except LayoutError TypeLayout :=
  match u.type id with
  | .builtin kind =>
    match t.builtin? kind with
    | some l => .ok l
    | none => .error (.noLayout kind.spelling)
  | .pointer _ | .lvalueReference _ | .rvalueReference _ | .objcPointer _ => .ok t.pointer
  | .array element count => do
    let l ← layout element
    if l.size * count < sizeBound then .ok ⟨l.size * count, l.align⟩
    else .error (.tooLarge ("array of " ++ toString count ++ " elements"))
  | .incompleteArray element | .variableArray element => do
    let l ← layout element
    .ok ⟨0, l.align⟩
  | .record d | .specialization _ _ (some d) => do
    let p ← place d
    .ok ⟨p.size, p.align⟩
  | .enum _ => .ok t.int
  | .typedef d =>
    match (u.node d).aliased? with
    | some underlying => layout underlying
    | none => .error (.noLayout (u.node d).name)
  | .elaborated inner | .paren inner => layout inner
  | .function _ _ _ => .error (.noLayout "function type")
  | .specialization template _ none => .error (.dependent template)
  | .templateParameter name => .error (.dependent name)
  | .unsupported spelling => .error (.noLayout spelling)

/-- With fuel, the questions are answered with one layer less. -/
theorem typeLayoutWithin_succ (place : DeclId → Except LayoutError Placement) (fuel : Nat)
    (id : TypeId) : typeLayoutWithin u t place (fuel + 1) id =
      typeStep u t (typeLayoutWithin u t place fuel) place id := rfl

/-! ## Questions that do not matter -/

section Congruence

variable {layout layout' : TypeId → Except LayoutError TypeLayout}
  {place place' : DeclId → Except LayoutError Placement} {d : DeclId} {r : RecordNode}

/-- A type asks about the type inside of it, if there is one, and about the record that it is, if it is
one. The answers to other questions do not matter, and so none need be given for them in `TypeAnswers`.
-/
theorem typeStep_congr {id : TypeId}
    (hlayout : ∀ id', u.Unfolds id id' → layout id' = layout' id')
    (hplace : ∀ d, u.recordOf? id = some d → place d = place' d) :
    typeStep u t layout place id = typeStep u t layout' place' id := by
  unfold TranslationUnit.Unfolds TranslationUnit.inner? at hlayout
  unfold TranslationUnit.recordOf? at hplace
  unfold typeStep
  cases hid : u.type id <;> rw [hid] at hlayout hplace
  case array element count => simp only [hlayout element rfl]
  case incompleteArray element => simp only [hlayout element rfl]
  case variableArray element => simp only [hlayout element rfl]
  case record d => simp only [hplace d rfl]
  case specialization name args record? =>
    cases record? with
    | none => rfl
    | some d => simp only [hplace d rfl]
  case typedef d =>
    dsimp only at hlayout ⊢
    split
    · next underlying halias => exact hlayout underlying halias
    · rfl
  case elaborated inner => exact hlayout inner rfl
  case paren inner => exact hlayout inner rfl

/-- Of two functions that agree on a list, either may be applied to it. -/
theorem mapM_congr {ε α γ : Type} {f g : γ → Except ε α} :
    ∀ {cs : List γ}, (∀ c ∈ cs, f c = g c) → cs.mapM f = cs.mapM g
  | [], _ => by rw [List.mapM_nil, List.mapM_nil]
  | c :: cs, h => by
    rw [List.mapM_cons, List.mapM_cons, h c List.mem_cons_self,
      mapM_congr fun c' hc' => h c' (List.mem_cons_of_mem _ hc')]

/-- The types of the fields are all that is asked. -/
theorem placeFields_congr {e : LayoutError} : ∀ {fs : List FieldNode} {c : Cursor},
    (∀ f ∈ fs, layout f.type = layout' f.type) →
      placeFields layout e c fs = placeFields layout' e c fs
  | [], _, _ => rfl
  | f :: fs, c, h => by
    obtain ⟨hf, hfs⟩ := List.forall_mem_cons.1 h
    unfold placeFields
    rw [hf]
    refine bind_congr fun l => ?_
    split
    · rfl
    · rw [placeFields_congr hfs]

theorem placeUnionFields_congr : ∀ {fs : List FieldNode} {c : Cursor},
    (∀ f ∈ fs, layout f.type = layout' f.type) →
      placeUnionFields layout c fs = placeUnionFields layout' c fs
  | [], _, _ => rfl
  | f :: fs, c, h => by
    obtain ⟨hf, hfs⟩ := List.forall_mem_cons.1 h
    unfold placeUnionFields
    rw [hf]
    refine bind_congr fun l => ?_
    dsimp only
    rw [placeUnionFields_congr hfs]

/-- The first of the three steps asks about the bases that the record names. -/
theorem namedBases_congr (h : ∀ b ∈ r.bases, place b.record = place' b.record) :
    namedBases u place r = namedBases u place' r :=
  mapM_congr fun b hb => by rw [h b hb]

/-- The second one asks about the types of its fields. -/
theorem placedFields_congr
    (h : ∀ f ∈ u.fieldsAmong r.members, layout f.2.type = layout' f.2.type) (c : Cursor) :
    placedFields u layout d r c = placedFields u layout' d r c := by
  have hfields : ∀ f ∈ (u.fieldsAmong r.members).map (·.2), layout f.type = layout' f.type :=
    List.forall_mem_map.2 h
  dsimp only [placedFields]
  rw [placeUnionFields_congr hfields, placeFields_congr hfields]

/-- The third one asks about the virtual bases, which are known only when the first is answered. -/
theorem virtualsOf_congr {bases : List PlacedBase} (h : ∀ v ∈ virtualIds bases, place v = place' v) :
    virtualsOf place bases = virtualsOf place' bases :=
  mapM_congr fun v hv => by rw [h v hv]

/-- How a record is laid out depends on the types of its fields, its bases and its virtual bases. -/
theorem placeRecord_congr
    (hfields : ∀ r, (u.node d).record? = some r → ∀ f ∈ u.fieldsAmong r.members,
      layout f.2.type = layout' f.2.type)
    (hbases : ∀ r, (u.node d).record? = some r → ∀ b ∈ r.bases, place b.record = place' b.record)
    (hvirtuals : ∀ r bases, (u.node d).record? = some r → namedBases u place r = .ok bases →
      ∀ v ∈ virtualIds bases, place v = place' v) :
    placeRecord u t layout place d = placeRecord u t layout' place' d := by
  rw [placeRecord_eq, placeRecord_eq]
  cases hr : (u.node d).record? with
  | none => rfl
  | some r =>
    have hsteps : placeInSteps u t layout place d r = placeInSteps u t layout' place' d r := by
      unfold placeInSteps
      rw [← namedBases_congr (hbases r hr)]
      cases hnamed : namedBases u place r with
      | error e => rfl
      | ok bases =>
        rw [bind_of_ok rfl, bind_of_ok rfl, placedFields_congr (hfields r hr),
          virtualsOf_congr (hvirtuals r bases hr hnamed)]
    dsimp only
    rw [hsteps]

end Congruence

/-! ## The recursion without bounds -/

mutual

/-- Inside the records of `visiting`, the type `id` has the layout `x`, or is refused with it. There is
no fuel in it. The functions `layout` and `place` carry the answers to the questions that are asked, and
their other values are arbitrary. -/
inductive TypeAnswers (u : TranslationUnit) (t : Target) :
    List DeclId → TypeId → Except LayoutError TypeLayout → Prop where
  | step {visiting : List DeclId} {id : TypeId} {layout : TypeId → Except LayoutError TypeLayout}
      {place : DeclId → Except LayoutError Placement}
      (inner : ∀ id', u.Unfolds id id' → TypeAnswers u t visiting id' (layout id'))
      (record : ∀ d, u.recordOf? id = some d → RecordAnswers u t visiting d (place d)) :
      TypeAnswers u t visiting id (typeStep u t layout place id)

/-- Inside the records of `visiting`, the record `d` is placed as `x`, or is refused with it. The only
thing that ends the recursion early is a record that is met again, which is refused as recursive. -/
inductive RecordAnswers (u : TranslationUnit) (t : Target) :
    List DeclId → DeclId → Except LayoutError Placement → Prop where
  | inside {visiting : List DeclId} {d : DeclId} (h : u.canonical d ∈ visiting) :
      RecordAnswers u t visiting d (.error (.recursive (u.displayName d)))
  | step {visiting : List DeclId} {d : DeclId} {layout : TypeId → Except LayoutError TypeLayout}
      {place : DeclId → Except LayoutError Placement} (h : u.canonical d ∉ visiting)
      (fields : ∀ r, (u.node d).record? = some r → ∀ f ∈ u.fieldsAmong r.members,
        TypeAnswers u t (u.canonical d :: visiting) f.2.type (layout f.2.type))
      (bases : ∀ r, (u.node d).record? = some r → ∀ b ∈ r.bases,
        RecordAnswers u t (u.canonical d :: visiting) b.record (place b.record))
      (virtuals : ∀ r bases, (u.node d).record? = some r → namedBases u place r = .ok bases →
        ∀ v ∈ virtualIds bases, RecordAnswers u t (u.canonical d :: visiting) v (place v)) :
      RecordAnswers u t visiting d (placeRecord u t layout place d)

end

/-! ### No question has two answers -/

mutual

/-- Induction on both derivations at once: the answers inside agree, and the step depends on nothing
else. -/
theorem TypeAnswers.unique {visiting : List DeclId} {id : TypeId} :
    ∀ {x y : Except LayoutError TypeLayout}, TypeAnswers u t visiting id x →
      TypeAnswers u t visiting id y → x = y
  | _, _, .step inner record, .step inner' record' =>
    typeStep_congr (fun id' hid => (inner id' hid).unique (inner' id' hid))
      fun d hd => (record d hd).unique (record' d hd)

/-- For records the two rules exclude each other, and where the step was taken twice the parts agree. -/
theorem RecordAnswers.unique {visiting : List DeclId} {d : DeclId} :
    ∀ {x y : Except LayoutError Placement}, RecordAnswers u t visiting d x →
      RecordAnswers u t visiting d y → x = y
  | _, _, .inside _, .inside _ => rfl
  | _, _, .inside h, .step h' _ _ _ => absurd h h'
  | _, _, .step h _ _ _, .inside h' => absurd h' h
  | _, _, .step _ fields bases virtuals, .step _ fields' bases' virtuals' =>
    have hbases := fun r hr b hb => (bases r hr b hb).unique (bases' r hr b hb)
    placeRecord_congr (fun r hr f hf => (fields r hr f hf).unique (fields' r hr f hf)) hbases
      -- The same bases are found, so the same virtual bases are asked for.
      fun r placed hr hnamed v hv => (virtuals r placed hr hnamed v hv).unique
        (virtuals' r placed hr (namedBases_congr (hbases r hr) ▸ hnamed) v hv)

end

/-! ### Every question has an answer -/

/-- A bound that the layers of a type do not exceed is large enough. -/
theorem typeAnswers_typeLayoutWithin {visiting : List DeclId}
    {place : DeclId → Except LayoutError Placement}
    (hplace : ∀ d, RecordAnswers u t visiting d (place d)) {n : Nat} {id : TypeId}
    (h : EndsWithin u.Unfolds n id) :
    TypeAnswers u t visiting id (typeLayoutWithin u t place n id) := by
  induction h with
  | @mk n id _ ih =>
    rw [typeLayoutWithin_succ]
    exact .step ih fun d _ => hplace d

/-- **A bound greater than the number of records that are left is large enough**: each record on the way
into a record is another one. -/
theorem recordAnswers_placementWithin (h : u.TypesEnd) :
    ∀ {fuel : Nat} {visiting : List DeclId} (d : DeclId), u.unmet (· ∈ visiting) < fuel →
      RecordAnswers u t visiting d (placementWithin u t fuel visiting d)
  | fuel + 1, visiting, d, hfuel => by
    unfold placementWithin
    dsimp only
    split
    · next hinside => exact .inside hinside
    · next hnew =>
      have hplace : ∀ r, (u.node d).record? = some r → ∀ d', RecordAnswers u t
          (u.canonical d :: visiting) d' (placementWithin u t fuel (u.canonical d :: visiting) d') := by
        intro r hr d'
        have hless : u.unmet (· ∈ u.canonical d :: visiting) < u.unmet (· ∈ visiting) :=
          TranslationUnit.unmet_lt (fun _ => List.mem_cons_of_mem _)
            (TranslationUnit.lt_size_of_record? hr) hnew List.mem_cons_self
        exact recordAnswers_placementWithin h d' (by omega)
      exact .step hnew
        (fun r hr f _ => typeAnswers_typeLayoutWithin (hplace r hr) (h.endsWithin f.2.type))
        (fun r hr b _ => hplace r hr b.record) fun r _ hr _ v _ => hplace r hr v

/-- On its own a record is laid out with fuel for all records of the unit, and one more. -/
theorem recordAnswers_placement (h : u.TypesEnd) (d : DeclId) :
    RecordAnswers u t [] d (placement u t d) :=
  recordAnswers_placementWithin h d (Nat.lt_succ_of_le TranslationUnit.unmet_le_size)

theorem typeAnswers_typeLayout (h : u.TypesEnd) (id : TypeId) :
    TypeAnswers u t [] id (typeLayout u t id) :=
  typeAnswers_typeLayoutWithin (recordAnswers_placement h) (h.endsWithin id)

/-! ## Records inside of themselves -/

section Containment

variable {layout : TypeId → Except LayoutError TypeLayout}
  {place : DeclId → Except LayoutError Placement}

/-- A type is laid out after the type inside of it. -/
theorem exists_of_unfolds {id id' : TypeId} {l : TypeLayout} (hid : u.Unfolds id id')
    (h : typeStep u t layout place id = .ok l) : ∃ l', layout id' = .ok l' := by
  unfold TranslationUnit.Unfolds TranslationUnit.inner? at hid
  unfold typeStep at h
  split at hid
  case h_4 x hx | h_5 x hx =>
    cases hid
    rw [hx] at h
    exact ⟨l, h⟩
  case h_6 x hx =>
    rw [hx] at h
    dsimp only at h
    rw [hid] at h
    exact ⟨l, h⟩
  case h_7 => cases hid
  all_goals
    next hx =>
    cases hid
    rw [hx] at h
    obtain ⟨l', hl', _⟩ := bind_eq_ok.1 h
    exact ⟨l', hl'⟩

theorem exists_of_recordOf? {id : TypeId} {l : TypeLayout} {d : DeclId} (hid : u.recordOf? id = some d)
    (h : typeStep u t layout place id = .ok l) : ∃ q, place d = .ok q := by
  unfold TranslationUnit.recordOf? at hid
  unfold typeStep at h
  split at hid
  · next hx =>
    cases hid
    rw [hx] at h
    obtain ⟨q, hq, _⟩ := bind_eq_ok.1 h
    exact ⟨q, hq⟩
  · next hx =>
    cases hid
    rw [hx] at h
    obtain ⟨q, hq, _⟩ := bind_eq_ok.1 h
    exact ⟨q, hq⟩
  · cases hid

/-- A type is laid out after the records that it stores. Induction along the layers from the type to the
record, each of which was laid out with less fuel. -/
theorem exists_of_stores {fuel : Nat} {id : TypeId} {l : TypeLayout} {d : DeclId}
    (hid : u.Stores id d) (h : typeLayoutWithin u t place fuel id = .ok l) :
    ∃ q, place d = .ok q := by
  obtain ⟨id', hway, hrecord⟩ := hid
  induction hway using Relation.ReflTransGen.head_induction_on generalizing fuel l with
  | refl =>
    cases fuel with
    | zero => cases h
    | succ fuel => exact exists_of_recordOf? hrecord h
  | head hunfolds _ ih =>
    cases fuel with
    | zero => cases h
    | succ fuel =>
      obtain ⟨l', hl'⟩ := exists_of_unfolds hunfolds h
      exact ih hl'

/-- A record is laid out after the records that it encloses. -/
theorem exists_of_encloses {fuel : Nat} {d d' : DeclId} {p : Placement} (hd : u.Encloses d d')
    (h : placeRecord u t (typeLayoutWithin u t place fuel) place d = .ok p) :
    ∃ q, place d' = .ok q := by
  obtain ⟨r, x, hlays⟩ := lays_of_placeRecord h
  rcases hd with ⟨b, ⟨r', hr', hb⟩, rfl⟩ | ⟨r', hr', f, hf, hstores⟩
  · cases hr'.symm.trans hlays.record
    obtain ⟨placed, _, hbase⟩ := hlays.exists_placed hb
    exact ⟨placed.placement, hbase.placement⟩
  · cases hr'.symm.trans hlays.record
    obtain ⟨fs, hholds⟩ := hlays.exists_holds
    have hmem : f.2 ∈ fs.map (·.field) := hholds.fields ▸ List.mem_map_of_mem hf
    obtain ⟨g, hg, hfield⟩ := List.mem_map.1 hmem
    exact exists_of_stores (hfield ▸ hstores) (hholds.layouts g hg)

end Containment

/-- A record that is met again is refused, so one that was placed is new. -/
theorem canonical_not_mem_of_placementWithin {fuel : Nat} {visiting : List DeclId} {d : DeclId}
    {p : Placement} (h : placementWithin u t fuel visiting d = .ok p) : u.canonical d ∉ visiting := by
  cases fuel with
  | zero => cases h
  | succ fuel =>
    unfold placementWithin at h
    dsimp only at h
    split at h
    · cases h
    · assumption

/-- What a record encloses is laid out inside of it. -/
theorem placementWithin_of_encloses {fuel : Nat} {visiting : List DeclId} {d d' : DeclId}
    {p : Placement} (hd : u.Encloses d d') (h : placementWithin u t fuel visiting d = .ok p) :
    ∃ fuel' q, placementWithin u t fuel' (u.canonical d :: visiting) d' = .ok q := by
  cases fuel with
  | zero => cases h
  | succ fuel =>
    unfold placementWithin at h
    dsimp only at h
    split at h
    · cases h
    · obtain ⟨q, hq⟩ := exists_of_encloses hd h
      exact ⟨fuel, q, hq⟩

/-- And what it encloses through others is laid out inside of all of these. -/
theorem placementWithin_of_transGen {fuel : Nat} {visiting : List DeclId} {d d' : DeclId}
    {p : Placement} (hd : Relation.TransGen u.Encloses d d')
    (h : placementWithin u t fuel visiting d = .ok p) :
    ∃ fuel' visiting' q, u.canonical d ∈ visiting' ∧
      placementWithin u t fuel' visiting' d' = .ok q := by
  induction hd with
  | single hd =>
    obtain ⟨fuel', q, hq⟩ := placementWithin_of_encloses hd h
    exact ⟨fuel', _, q, List.mem_cons_self, hq⟩
  | tail _ hd ih =>
    obtain ⟨fuel', visiting', q, hmem, hq⟩ := ih
    obtain ⟨fuel'', q', hq'⟩ := placementWithin_of_encloses hd hq
    exact ⟨fuel'', _, q', List.mem_cons_of_mem _ hmem, hq'⟩

/-- **A record that encloses itself is not laid out.** The inner one would be laid out with the outer
one in mind, and be refused. -/
theorem canonical_ne_of_placement {d d' : DeclId} {p : Placement}
    (hd : Relation.TransGen u.Encloses d d') (h : placement u t d = .ok p) :
    u.canonical d' ≠ u.canonical d := by
  obtain ⟨fuel', visiting', q, hmem, hq⟩ := placementWithin_of_transGen hd h
  exact fun hsame => canonical_not_mem_of_placementWithin hq (hsame ▸ hmem)

/-- Whatever is enclosed in a record with a layout has one of its own. -/
theorem placement_of_reflTransGen {d d' : DeclId} {p : Placement}
    (hd : Relation.ReflTransGen u.Encloses d d') (h : placement u t d = .ok p) :
    ∃ q, placement u t d' = .ok q := by
  induction hd with
  | refl => exact ⟨p, h⟩
  | tail _ hd ih =>
    obtain ⟨q, hq⟩ := ih
    exact exists_of_encloses hd (placeRecord_of_placement hq)

/-! ## The oracle -/

/-- A question to an oracle. The four sorts are put into one type, so that one statement is about all of
them. -/
inductive Question where
  | type (id : TypeId)
  | record (d : DeclId)
  | baseOffset (d base : DeclId)
  | virtualBaseOffset (d base : DeclId)
deriving DecidableEq, Repr

namespace Question

/-- What is asked for. An oracle has four questions with answers of different types, and that all of
them end is one statement. -/
def Answer : Question → Type
  | .type _ => TypeLayout
  | .record _ => RecordLayout
  | .baseOffset _ _ | .virtualBaseOffset _ _ => Nat

/-- What an oracle says. -/
def ask (oracle : LayoutOracle) : (q : Question) → Except LayoutError q.Answer
  | .type id => oracle.type id
  | .record d => oracle.record d
  | .baseOffset d base => oracle.baseOffset d base
  | .virtualBaseOffset d base => oracle.virtualBaseOffset d base

end Question

/-- The recursion answers the question with `x`. All about a record is read off its placement, so a
question about a base is a question about the record. -/
inductive Answers (u : TranslationUnit) (t : Target) :
    (q : Question) → Except LayoutError q.Answer → Prop where
  | type {id : TypeId} {x : Except LayoutError TypeLayout} (h : TypeAnswers u t [] id x) :
    Answers u t (.type id) x
  | record {d : DeclId} {x : Except LayoutError Placement} (h : RecordAnswers u t [] d x) :
    Answers u t (.record d) (x.map fun p => ⟨p.size, p.align, p.fieldOffsets⟩)
  | baseOffset {d base : DeclId} {x : Except LayoutError Placement} (h : RecordAnswers u t [] d x) :
    Answers u t (.baseOffset d base) (x.bind fun p => offsetOf u d base p.bases)
  | virtualBaseOffset {d base : DeclId} {x : Except LayoutError Placement}
    (h : RecordAnswers u t [] d x) :
    Answers u t (.virtualBaseOffset d base) (x.bind fun p => offsetOf u d base p.virtualBases)

/-- **Every question ends**, and the answer of the oracle is the only one. -/
theorem answers_iff (h : u.TypesEnd) (q : Question) (x : Except LayoutError q.Answer) :
    Answers u t q x ↔ x = q.ask (natural u t) := by
  constructor
  · intro hx
    cases hx with
    | type h' => exact h'.unique (typeAnswers_typeLayout h _)
    | record h' => exact h'.unique (recordAnswers_placement h _) ▸ rfl
    | baseOffset h' => exact h'.unique (recordAnswers_placement h _) ▸ rfl
    | virtualBaseOffset h' => exact h'.unique (recordAnswers_placement h _) ▸ rfl
  · rintro rfl
    cases q with
    | type id => exact .type (typeAnswers_typeLayout h id)
    | record d => exact .record (recordAnswers_placement h d)
    | baseOffset d base => exact .baseOffset (recordAnswers_placement h d)
    | virtualBaseOffset d base => exact .virtualBaseOffset (recordAnswers_placement h d)

/-- **Layouts are found without bounds.** The computation counts down through the layers of types and
remembers which records it is inside of. `Answers` has neither: it is the recursion that the definitions
mean. Every question has one answer there, and the computation gives it. What is laid out encloses no
record that encloses itself, and a record that does is refused. The one assumption is that no type is
made of itself. -/
theorem natural_ends (u : TranslationUnit) (t : Target) (h : u.TypesEnd) :
    (∀ q x, Answers u t q x ↔ x = q.ask (natural u t)) ∧
    (∀ id l, (natural u t).type id = .ok l →
      ∀ d d', u.Stores id d → Relation.ReflTransGen u.Encloses d d' → ¬ u.EnclosesItself d') ∧
    (∀ d l, (natural u t).record d = .ok l →
      ∀ d', Relation.ReflTransGen u.Encloses d d' → ¬ u.EnclosesItself d') ∧
    ∀ d, u.EnclosesItself d → ∃ e, (natural u t).record d = .error e := by
  have hplaced : ∀ {d p}, placement u t d = .ok p →
      ∀ d', Relation.ReflTransGen u.Encloses d d' → ¬ u.EnclosesItself d' := by
    rintro d p hp d' hway ⟨d'', hloop, hsame⟩
    obtain ⟨q, hq⟩ := placement_of_reflTransGen hway hp
    exact canonical_ne_of_placement hloop hq hsame
  refine ⟨fun q x => answers_iff h q x, fun id l hl d d' hstores => ?_, fun d l hl => ?_, fun d hd => ?_⟩
  · obtain ⟨p, hp⟩ := exists_of_stores hstores hl
    exact hplaced hp d'
  · obtain ⟨p, hp, _⟩ := natural_record_eq_ok hl
    exact hplaced hp
  · cases hlayout : (natural u t).record d with
    | error e => exact ⟨e, rfl⟩
    | ok l =>
      obtain ⟨p, hp, _⟩ := natural_record_eq_ok hlayout
      exact absurd hd (hplaced hp d .refl)

/-- A record with an array of itself, under another name; a record that has it for a base; and one that has
only a pointer to itself. -/
def looped : TranslationUnit where
  file := "a.h"
  types := #[.typedef ⟨2⟩, .record ⟨0⟩, .array ⟨0⟩ 0, .builtin .int, .record ⟨5⟩, .pointer ⟨4⟩]
  nodes := #[{ name := "S", kind := .record { members := [⟨1⟩], class? := some {} } },
    { name := "s", kind := .field { type := ⟨2⟩ } },
    { name := "T", kind := .typedef ⟨1⟩ },
    { name := "D"
      kind := .record { members := [⟨4⟩], class? := some { bases := [{ record := ⟨0⟩ }] } } },
    { name := "d", kind := .field { type := ⟨3⟩ } },
    { name := "L", kind := .record { members := [⟨6⟩] } },
    { name := "next", kind := .field { type := ⟨5⟩ } }]
  topLevel := #[⟨0⟩, ⟨2⟩, ⟨3⟩, ⟨5⟩]

/-- The chains of typedefs of this unit end, though a record leads back to itself: it is a typedef of a
record, and records end a chain. -/
theorem looped_typesEnd : looped.TypesEnd := by
  have hinner : ∀ i < 6, ∀ t' ∈ looped.inner? ⟨i⟩,
      t'.index < i ∨ looped.type ⟨i⟩ = .typedef ⟨2⟩ := by decide +kernel
  have halias : ∀ i < 7, ∀ t ∈ (looped.node ⟨i⟩).aliased?, t = ⟨1⟩ := by decide +kernel
  have hrecord : looped.inner? ⟨1⟩ = none := by decide +kernel
  refine TranslationUnit.typesEnd_of_typedefs (fun t t' h => ?_) fun x t t' h hway => ?_
  · exact (hinner t.index (TranslationUnit.lt_size_of_unfolds h) t' h).imp_right fun hx => ⟨⟨2⟩, hx⟩
  · -- The only typedef is that of a record, and there its chain ends.
    obtain rfl := halias x.index (TranslationUnit.lt_size_of_aliased? h) t h
    rcases hway.cases_head with rfl | ⟨t₁, h₁, _⟩
    · exact fun hx => nomatch hx.symm.trans (by decide +kernel : looped.type ⟨1⟩ = .record ⟨0⟩)
    · cases hrecord.symm.trans h₁

theorem natural_ends_looped :
    let t := Target.lp64 ""
    looped.TypesEnd ∧
      (looped.EnclosesItself ⟨0⟩ ∧ Answers looped t (.record ⟨0⟩) (.error (.recursive "S"))) ∧
      Answers looped t (.baseOffset ⟨3⟩ ⟨0⟩) (.error (.recursive "S")) ∧
      Answers looped t (.type ⟨4⟩) (.ok ⟨64, 64⟩) ∧ ¬ looped.EnclosesItself ⟨5⟩ := by
  intro t
  obtain ⟨hanswers, htype, _, _⟩ := natural_ends looped t looped_typesEnd
  have hfield : looped.Stores ⟨2⟩ ⟨0⟩ :=
    ⟨⟨1⟩, .tail (.single (by decide +kernel : looped.inner? ⟨2⟩ = some ⟨0⟩))
      (by decide +kernel : looped.inner? ⟨0⟩ = some ⟨1⟩), by decide +kernel⟩
  have hloop : looped.Encloses ⟨0⟩ ⟨0⟩ :=
    .inr ⟨_, rfl, (⟨1⟩, { type := ⟨2⟩ }), by decide +kernel, hfield⟩
  have hlayout : (natural looped t).type ⟨4⟩ = .ok ⟨64, 64⟩ := by decide +kernel
  have hrecord : (natural looped t).record ⟨0⟩ = .error (.recursive "S") := by decide +kernel
  have hbase : (natural looped t).baseOffset ⟨3⟩ ⟨0⟩ = .error (.recursive "S") := by decide +kernel
  exact ⟨looped_typesEnd, ⟨⟨⟨0⟩, .single hloop, rfl⟩, (hanswers (.record ⟨0⟩) _).2 hrecord.symm⟩,
    (hanswers (.baseOffset ⟨3⟩ ⟨0⟩) _).2 hbase.symm, (hanswers (.type ⟨4⟩) _).2 hlayout.symm,
    htype ⟨4⟩ _ hlayout ⟨5⟩ ⟨5⟩ ⟨⟨4⟩, .refl, by decide +kernel⟩ .refl⟩

end ForeignDecl.Layout
