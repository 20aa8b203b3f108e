import ForeignDecl.Layout.Words
import ForeignDecl.Proofs.Layout.Steps

/-!
# Words and exact numbers

A layout that is computed with checked words is the exact one, or the computation was given up; and with
words that wrap around it is the same as with checked words, unless those give up (`checked_agrees_natural`,
`checked_agrees_words`). So whatever is proved about natural layouts holds of what a program answers, as
long as no number goes beyond 64 bits on the way to the answer.

Both statements come from one. The steps are written for any function that makes words of numbers, and
checked words agree with every function that leaves numbers below the bound alone (`placement_agrees`). One
of these leaves all numbers alone, and with it the steps are those of natural layouts (`placement_exact`).
-/

set_option autoImplicit false

namespace ForeignDecl

/-- The answer is the other one, or the computation of it was given up. The relation is not symmetric:
the left side may give up where the right side answers, and so it may be put in place of the right one
wherever giving up is allowed. It is what a step of placing keeps (`Agrees.bind`). -/
def Agrees {α : Type} (x y : Except LayoutError α) : Prop := x = .error .overflow ∨ x = y

namespace Agrees

variable {α β γ : Type} {x y : Except LayoutError α}

theorem refl (x : Except LayoutError α) : Agrees x x := .inr rfl

/-- How the relation is used: an answer that was not given up is the other one. -/
theorem eq_of_ne_overflow (h : Agrees x y) (hx : x ≠ .error .overflow) : x = y := h.resolve_left hx

/-- Agreement is kept by steps that are taken one after the other. If the first was given up, so is the
whole; otherwise the second starts from the same value on both sides. -/
theorem bind {f g : α → Except LayoutError β} (hx : Agrees x y) (hf : ∀ a, Agrees (f a) (g a)) :
    Agrees (x >>= f) (y >>= g) := by
  rcases hx with rfl | rfl
  · exact .inl rfl
  · cases x with
    | error e => exact .inr rfl
    | ok a => exact hf a

/-- The bases of a record are laid out one by one, each with its own question. -/
theorem mapM {f g : γ → Except LayoutError α} (h : ∀ c, Agrees (f c) (g c)) :
    ∀ cs : List γ, Agrees (cs.mapM f) (cs.mapM g)
  | [] => .refl _
  | c :: cs => by
    rw [List.mapM_cons, List.mapM_cons]
    exact (h c).bind fun _ => (mapM h cs).bind fun _ => .refl _

end Agrees

/-- Each answer of `oracle` is that of `oracle'`, or its computation was given up. One field for each
question, so that a proof about oracles states what it asks. -/
structure LayoutOracle.AgreesWith (oracle oracle' : LayoutOracle) : Prop where
  type (id : TypeId) : Agrees (oracle.type id) (oracle'.type id)
  record (d : DeclId) : Agrees (oracle.record d) (oracle'.record d)
  baseOffset (d base : DeclId) : Agrees (oracle.baseOffset d base) (oracle'.baseOffset d base)
  virtualBaseOffset (d base : DeclId) :
    Agrees (oracle.virtualBaseOffset d base) (oracle'.virtualBaseOffset d base)

namespace Layout

variable {u : TranslationUnit} {t : Target}

/-- The checks stop at numbers that are no words, and any way to make words leaves the others alone. -/
theorem Arithmetic.checked_agrees (a : Arithmetic) (n : Nat) :
    Agrees (Arithmetic.checked.word n) (a.word n) := by
  unfold Arithmetic.word
  split
  · exact .refl _
  · exact .inl rfl

/-- The same for exact numbers, which are made by leaving every number alone. -/
theorem Arithmetic.checked_agrees_ok (n : Nat) : Agrees (Arithmetic.checked.word n) (.ok n) := by
  unfold Arithmetic.word
  split
  · exact .refl _
  · exact .inl rfl

/-! ## Types -/

/-- Types make no words of their own: the multiplication of an array is checked in any arithmetic, and
everything else is taken from the target, an element or a record. So the layouts of types agree if those
of records do. -/
theorem typeLayoutWithin_agrees {place place' : DeclId → Except LayoutError Placement}
    (hplace : ∀ d, Agrees (place d) (place' d)) :
    ∀ (fuel : Nat) (id : TypeId),
      Agrees (typeLayoutWithin u t place fuel id) (typeLayoutWithin u t place' fuel id)
  | 0, _ => .refl _
  | fuel + 1, id => by
    have ih := typeLayoutWithin_agrees hplace fuel
    unfold typeLayoutWithin
    cases u.type id with
    -- Of an array the element is laid out first, and what is done with it is the same on both sides.
    | array element count => exact (ih element).bind fun _ => .refl _
    | incompleteArray element => exact (ih element).bind fun _ => .refl _
    | variableArray element => exact (ih element).bind fun _ => .refl _
    | record d => exact (hplace d).bind fun _ => .refl _
    | specialization template args record? =>
      cases record? with
      | some d => exact (hplace d).bind fun _ => .refl _
      | none => exact .refl _
    | typedef d =>
      dsimp only
      cases (u.node d).aliased? with
      | some underlying => exact ih underlying
      | none => exact .refl _
    | elaborated inner => exact ih inner
    | paren inner => exact ih inner
    | _ => exact .refl _

/-- The oracles of two ways to place records agree if these do. -/
theorem answering_agrees {place place' : DeclId → Except LayoutError Placement}
    (hplace : ∀ d, Agrees (place d) (place' d)) :
    (answering u t place).AgreesWith (answering u t place') where
  type := typeLayoutWithin_agrees hplace u.typeBudget
  record d := (hplace d).bind fun _ => .refl _
  baseOffset d _ := (hplace d).bind fun _ => .refl _
  virtualBaseOffset d _ := (hplace d).bind fun _ => .refl _

namespace Words

/-! ## Checked words and others -/

section Agree

variable {word word' : Nat → Except LayoutError Nat} (hword : ∀ n, Agrees (word n) (word' n))

include hword

/-- A base is placed with at most two words, the rounded start and the end. -/
theorem placeBase_agrees (c : Cursor) (p : Placement) :
    Agrees (placeBase word c p) (placeBase word' c p) := by
  unfold placeBase
  dsimp only
  split
  · exact .refl _
  · exact (hword _).bind fun _ => (hword _).bind fun _ => .refl _

/-- The bases are placed from the left, and where one ends the next one starts: if a start agrees, the
following ones do. The answers for the bases are compared as well, as virtual bases are only laid out
when they are placed. -/
theorem placeBases_agrees {α : Type} (id : α → DeclId) {answer answer' : α → Except LayoutError Placement}
    (hanswer : ∀ b, Agrees (answer b) (answer' b)) :
    ∀ (bs : List α) (c : Cursor), Agrees (placeBases word c (bs.map fun b => (id b, answer b)))
      (placeBases word' c (bs.map fun b => (id b, answer' b)))
  | [], _ => .refl _
  | b :: bs, c => (hanswer b).bind fun p => (placeBase_agrees hword c p).bind fun x =>
    (placeBases_agrees id hanswer bs x.1).bind fun _ => .refl _

/-- One field with up to three words. Which of the branches is taken depends on the words found before
it, and these are the same on both sides once they were found. -/
theorem placeField_agrees (tooLarge : LayoutError) (c : Cursor) (f : FieldNode) (l : TypeLayout) :
    Agrees (placeField word tooLarge c f l) (placeField word' tooLarge c f l) := by
  unfold placeField
  dsimp only
  split
  · exact (hword _).bind fun _ => .refl _
  -- A bitfield starts where the last one ended unless it would cross a unit, which is read off its end.
  · refine (hword _).bind fun stop => ?_
    split
    · exact (hword _).bind fun _ => (hword _).bind fun _ => .refl _
    · exact (hword _).bind fun _ => .refl _
  · exact (hword _).bind fun _ => .refl _

theorem placeFields_agrees {layout layout' : TypeId → Except LayoutError TypeLayout}
    (hlayout : ∀ id, Agrees (layout id) (layout' id)) (tooLarge : LayoutError) :
    ∀ (fs : List FieldNode) (c : Cursor),
      Agrees (placeFields word layout tooLarge c fs) (placeFields word' layout' tooLarge c fs)
  | [], _ => .refl _
  | f :: fs, c => (hlayout f.type).bind fun l => (placeField_agrees hword tooLarge c f l).bind fun x =>
    (placeFields_agrees hlayout tooLarge fs x.1).bind fun _ => .refl _

omit hword in
/-- The fields of a union start at zero, so no word is made for them. -/
theorem placeUnionFields_agrees {layout layout' : TypeId → Except LayoutError TypeLayout}
    (hlayout : ∀ id, Agrees (layout id) (layout' id)) :
    ∀ (fs : List FieldNode) (c : Cursor),
      Agrees (placeUnionFields layout c fs) (placeUnionFields layout' c fs)
  | [], _ => .refl _
  | f :: fs, _ => (hlayout f.type).bind fun _ =>
    (placeUnionFields_agrees hlayout fs _).bind fun _ => .refl _

omit hword in
theorem namedBases_agrees {place place' : DeclId → Except LayoutError Placement}
    (hplace : ∀ d, Agrees (place d) (place' d)) (r : RecordNode) :
    Agrees (namedBases u place r) (namedBases u place' r) := by
  unfold namedBases
  exact .mapM (fun b => (hplace b.record).bind fun _ => .refl _) r.bases

theorem placeMembers_agrees {layout layout' : TypeId → Except LayoutError TypeLayout}
    (hlayout : ∀ id, Agrees (layout id) (layout' id)) (d : DeclId) (r : RecordNode) (c : Cursor) :
    Agrees (placeMembers word u layout d r c) (placeMembers word' u layout' d r c) := by
  unfold placeMembers
  dsimp only
  split
  · exact placeUnionFields_agrees hlayout _ c
  · exact placeFields_agrees hword hlayout _ _ c

theorem placeDirect_agrees (r : RecordNode) (bases : List PlacedBase) :
    Agrees (placeDirect word u t r bases) (placeDirect word' u t r bases) :=
  placeBases_agrees hword Prod.fst (fun _ => .refl _) _ _

/-- Behind the fields: the size without virtual bases, these bases, and the whole size. -/
theorem closeRecord_agrees {place place' : DeclId → Except LayoutError Placement}
    (hplace : ∀ d, Agrees (place d) (place' d)) (r : RecordNode) (bases : List PlacedBase)
    (placedBases : List (DeclId × Nat)) (fields : Cursor × List Nat) :
    Agrees (closeRecord word u place r bases placedBases fields)
      (closeRecord word' u place' r bases placedBases fields) :=
  (hword _).bind fun _ => (placeBases_agrees hword (fun id => id) hplace _ _).bind fun _ =>
    (hword _).bind fun _ => .refl _

/-- The steps of a record in the order of the program. A record that is incomplete or dependent is
refused before any of them, on both sides. -/
theorem placeRecord_agrees {layout layout' : TypeId → Except LayoutError TypeLayout}
    {place place' : DeclId → Except LayoutError Placement}
    (hlayout : ∀ id, Agrees (layout id) (layout' id)) (hplace : ∀ d, Agrees (place d) (place' d))
    (d : DeclId) :
    Agrees (placeRecord word u t layout place d) (placeRecord word' u t layout' place' d) := by
  unfold placeRecord
  cases (u.node d).record? with
  | none => exact .refl _
  | some r =>
    dsimp only
    split
    · exact .refl _
    split
    · exact .refl _
    exact (namedBases_agrees hplace r).bind fun bases => (placeDirect_agrees hword r bases).bind fun _ =>
      (placeMembers_agrees hword hlayout d r _).bind fun fields =>
        closeRecord_agrees hword hplace r bases _ fields

/-- Induction on the records that are being laid out. One that is met again is refused on both sides,
and for the others the step is `placeRecord_agrees`, with this statement for the records inside. -/
theorem placementWithin_agrees : ∀ (fuel : Nat) (visiting : List DeclId) (d : DeclId),
    Agrees (placementWithin word u t fuel visiting d) (placementWithin word' u t fuel visiting d)
  | 0, _, _ => .refl _
  | fuel + 1, visiting, d => by
    have ih := placementWithin_agrees fuel (u.canonical d :: visiting)
    unfold placementWithin
    dsimp only
    split
    · exact .refl _
    · exact placeRecord_agrees hword (typeLayoutWithin_agrees ih _) ih d

/-- **Whatever makes the words, two placements agree if the words do.** Both statements about oracles
are cases of this. -/
theorem placement_agrees (d : DeclId) :
    Agrees (placement word u t d) (placement word' u t d) :=
  placementWithin_agrees hword _ _ d

end Agree

/-! ## Exact numbers -/

/-- One base, and the others behind it. Exact numbers are placed by a function that goes through all
bases at once; this is its step in the form that the steps with words have, so that both can be followed
side by side. -/
theorem exists_placeBase (c : Cursor) (p : Placement) :
    ∃ c' offset, placeBase .ok c p = .ok (c', offset) ∧ ∀ id rest,
      Layout.placeBases c ((id, p) :: rest) =
        ((Layout.placeBases c' rest).1, (id, offset) :: (Layout.placeBases c' rest).2) := by
  unfold placeBase
  dsimp only
  split
  · next hempty => exact ⟨_, _, rfl, fun id rest => by rw [Layout.placeBases, if_pos hempty]⟩
  · next hempty => exact ⟨_, _, rfl, fun id rest => by rw [Layout.placeBases, if_neg hempty]⟩

/-- With exact numbers it does not matter when a base is laid out, before the others are placed or
after: no step of placing is refused. -/
theorem placeBases_exact {α : Type} (id : α → DeclId) (answer : α → Except LayoutError Placement) :
    ∀ (bs : List α) (c : Cursor), placeBases .ok c (bs.map fun b => (id b, answer b)) = (do
      let placements ← bs.mapM fun b => do return (id b, ← answer b)
      return Layout.placeBases c placements)
  | [], _ => rfl
  | b :: bs, c => by
    rw [List.map_cons, placeBases, List.mapM_cons]
    cases answer b with
    | error e => rfl
    | ok p =>
      obtain ⟨c', offset, hplace, hrest⟩ := exists_placeBase c p
      -- The remaining bases may still be refused here, but they are so in both orders: placing `b` cannot
      -- fail.
      change (placeBase .ok c p >>= _) = _
      rw [hplace]
      change (placeBases .ok c' _ >>= _) = _
      rw [placeBases_exact id answer bs c']
      change _ = ((bs.mapM fun b => do return (id b, ← answer b)) >>= _) >>= _
      cases bs.mapM fun b => do return (id b, ← answer b) with
      | error e => rfl
      | ok placements => exact congrArg Except.ok (hrest (id b) placements).symm

/-- Bases that are laid out already are placed. -/
theorem placeBases_exact_ok : ∀ (bs : List (DeclId × Placement)) (c : Cursor),
    placeBases .ok c (bs.map fun b => (b.1, .ok b.2)) = .ok (Layout.placeBases c bs)
  | [], _ => rfl
  | (id, p) :: bs, c => by
    obtain ⟨c', offset, hplace, hrest⟩ := exists_placeBase c p
    rw [hrest]
    change (placeBase .ok c p >>= _) = _
    rw [hplace]
    change (placeBases .ok c' _ >>= _) = _
    rw [placeBases_exact_ok bs c']
    rfl

theorem placeDirect_exact (r : RecordNode) (bases : List PlacedBase) :
    placeDirect .ok u t r bases = .ok (placedDirect u t r bases) :=
  placeBases_exact_ok _ _

/-- The field that does not fit is refused in the same words: the checked sum of natural layouts is the
one that every arithmetic makes. -/
theorem placeField_exact (tooLarge : LayoutError) (c : Cursor) (f : FieldNode) (l : TypeLayout) :
    placeField .ok tooLarge c f l =
      match placeField? c f l with
      | none => .error tooLarge
      | some placed => .ok placed := by
  unfold placeField placeField?
  rcases f.width? with _ | _ | width
  · dsimp only
    change ite _ _ _ = _
    split
    · rfl
    · rfl
  · rfl
  · -- A bitfield of some width does not end at zero, so the word before its end is the number before it.
    have hstop : previous (c.offset + (width + 1)) = c.offset + (width + 1) - 1 := if_neg (by omega)
    simp only [bind, Except.bind, pure, Except.pure, hstop]
    split
    · rfl
    · rfl

theorem placeFields_exact (layout : TypeId → Except LayoutError TypeLayout) (tooLarge : LayoutError) :
    ∀ (fs : List FieldNode) (c : Cursor),
      placeFields .ok layout tooLarge c fs = Layout.placeFields layout tooLarge c fs
  | [], _ => rfl
  | f :: fs, c => by
    rw [placeFields, Layout.placeFields]
    refine bind_congr fun l => ?_
    rw [placeField_exact]
    cases placeField? c f l with
    | none => rfl
    | some placed =>
      change (placeFields .ok layout tooLarge placed.1 fs >>= _) = _
      rw [placeFields_exact layout tooLarge fs placed.1]
      rfl

/-- The two functions differ in the field step only. -/
theorem placeMembers_exact (layout : TypeId → Except LayoutError TypeLayout) (d : DeclId)
    (r : RecordNode) (c : Cursor) : placeMembers .ok u layout d r c = placedFields u layout d r c := by
  unfold placeMembers placedFields
  dsimp only
  rw [placeFields_exact]

/-- Exact numbers allow to lay out all virtual bases before the first of them is placed
(`placeBases_exact`), which is what the last of the three steps does. -/
theorem closeRecord_exact (place : DeclId → Except LayoutError Placement) (r : RecordNode)
    (bases : List PlacedBase) (fields : Cursor × List Nat) :
    closeRecord .ok u place r bases (placedDirect u t r bases).2 fields = (do
      let virtuals ← virtualsOf place bases
      return assemble u t r bases fields virtuals) := by
  change (placeBases .ok fields.1 _ >>= _) = _
  rw [placeBases_exact (fun id => id) place]
  unfold virtualsOf
  cases (virtualIds bases).mapM fun id => do return (id, ← place id) with
  | error e => rfl
  | ok virtuals => rfl

/-- With exact numbers the steps of a record are the three of `placeInSteps`: every `word` is answered,
so what is left between them are the questions to the bases, the fields and the virtual bases. -/
theorem placeRecord_exact (layout : TypeId → Except LayoutError TypeLayout)
    (place : DeclId → Except LayoutError Placement) (d : DeclId) :
    placeRecord .ok u t layout place d = Layout.placeRecord u t layout place d := by
  rw [Layout.placeRecord_eq]
  unfold placeRecord placeInSteps
  cases (u.node d).record? with
  | none => rfl
  | some r =>
    refine ite_congr rfl (fun _ => rfl) fun _ => ite_congr rfl (fun _ => rfl) fun _ => ?_
    refine bind_congr fun bases => ?_
    rw [placeDirect_exact]
    change (placeMembers .ok u layout d r _ >>= _) = _
    rw [placeMembers_exact]
    exact bind_congr fun fields => closeRecord_exact place r bases fields

theorem placementWithin_exact : ∀ (fuel : Nat) (visiting : List DeclId) (d : DeclId),
    placementWithin .ok u t fuel visiting d = Layout.placementWithin u t fuel visiting d
  | 0, _, _ => rfl
  | fuel + 1, visiting, d => by
    unfold placementWithin Layout.placementWithin
    dsimp only
    rw [funext (placementWithin_exact fuel (u.canonical d :: visiting))]
    exact ite_congr rfl (fun _ => rfl) fun _ => placeRecord_exact _ _ d

/-- **With numbers left alone the steps are those of natural layouts.** Without it the words would be a
second definition of layouts, about which nothing is proved. -/
theorem placement_exact (d : DeclId) : placement .ok u t d = Layout.placement u t d :=
  placementWithin_exact _ _ d

end Words

/-! ## The oracles -/

/-- Both oracles put the same questions to a placement, which is why they only differ in it. -/
theorem natural_eq_answering : natural u t = answering u t (placement u t) := rfl

/-- **An answer computed with checked words is the exact one, or the computation was given up.** -/
theorem checked_agrees_natural (u : TranslationUnit) (t : Target) :
    (words .checked u t).AgreesWith (natural u t) := by
  rw [natural_eq_answering]
  refine answering_agrees fun d => ?_
  rw [← Words.placement_exact]
  exact Words.placement_agrees Arithmetic.checked_agrees_ok d

/-- **Words that wrap around give the same answer as checked ones, unless those give up.** -/
theorem checked_agrees_words (a : Arithmetic) (u : TranslationUnit) (t : Target) :
    (words .checked u t).AgreesWith (words a u t) :=
  answering_agrees fun d => Words.placement_agrees a.checked_agrees d

end Layout

end ForeignDecl
