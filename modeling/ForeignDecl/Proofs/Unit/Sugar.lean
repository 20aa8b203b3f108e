import Mathlib.Data.List.Zip
import ForeignDecl.Proofs.Unit.Containment
import ForeignDecl.Proofs.Unit.Nesting

/-!
# Types that differ in sugar

Elaborations and parentheses tell how a type was spelled, not which type it is. Two types are the same but
for sugar (`SameType`) if they become one another where sugar is taken off or put on, around them or around
any of their parts.

What is found by recursion over the layers of a type cannot tell such types apart if no single layer can:
sugar has to pass on what is found inside, and any other layer has to look at its parts through the recursion
only (`IsTransparent`, `SameType.run_eq`).
-/

set_option autoImplicit false

namespace ForeignDecl

/-! ## Layers alike -/

/-- A template argument without the type in it. Arguments are compared by their shapes and, where these
agree, by the types in them. -/
def TemplateArgument.shape : TemplateArgument → TemplateArgument
  | .type _ => .type ⟨0⟩
  | .integral _ value => .integral ⟨0⟩ value
  | .other spelling => .other spelling

/-- Whether there is a type in an argument can be told from its shape. -/
theorem TemplateArgument.type?_shape (a : TemplateArgument) :
    a.shape.type? = a.type?.map fun _ => ⟨0⟩ := by
  cases a <;> rfl

namespace CType

/-- The layer is not put around anything. -/
def IsLeaf : CType → Prop
  | .builtin _ | .record _ | .enum _ | .typedef _ | .templateParameter _ | .objcPointer _
  | .unsupported _ => True
  | _ => False

/-- Layers that are alike, whatever their parts are. A leaf has no parts, so it is alike only to itself;
handles of declarations in it are compared as they are. -/
inductive SameLayer : CType → CType → Prop where
  | leaf {c : CType} (h : c.IsLeaf) : SameLayer c c
  | pointer (t t' : TypeId) : SameLayer (.pointer t) (.pointer t')
  | lvalueReference (t t' : TypeId) : SameLayer (.lvalueReference t) (.lvalueReference t')
  | rvalueReference (t t' : TypeId) : SameLayer (.rvalueReference t) (.rvalueReference t')
  | array (t t' : TypeId) (count : Nat) : SameLayer (.array t count) (.array t' count)
  | incompleteArray (t t' : TypeId) : SameLayer (.incompleteArray t) (.incompleteArray t')
  | variableArray (t t' : TypeId) : SameLayer (.variableArray t) (.variableArray t')
  | elaborated (t t' : TypeId) : SameLayer (.elaborated t) (.elaborated t')
  | paren (t t' : TypeId) : SameLayer (.paren t) (.paren t')
  | function (t t' : TypeId) {params params' : List TypeId} (variadic : Bool)
      (h : params.length = params'.length) :
      SameLayer (.function t params variadic) (.function t' params' variadic)
  | specialization (template : String) {args args' : List TemplateArgument} (record? : Option DeclId)
      (h : args.map (·.shape) = args'.map (·.shape)) :
      SameLayer (.specialization template args record?) (.specialization template args' record?)

variable {c c' : CType}

theorem SameLayer.refl (c : CType) : SameLayer c c := by
  cases c with
  | pointer t => exact .pointer t t
  | lvalueReference t => exact .lvalueReference t t
  | rvalueReference t => exact .rvalueReference t t
  | array t count => exact .array t t count
  | incompleteArray t => exact .incompleteArray t t
  | variableArray t => exact .variableArray t t
  | elaborated t => exact .elaborated t t
  | paren t => exact .paren t t
  | function t params variadic => exact .function t t variadic rfl
  | specialization template args record? => exact .specialization template record? rfl
  | _ => exact .leaf trivial

theorem SameLayer.symm (h : SameLayer c c') : SameLayer c' c := by
  cases h with
  | leaf h => exact .leaf h
  | pointer t t' => exact .pointer t' t
  | lvalueReference t t' => exact .lvalueReference t' t
  | rvalueReference t t' => exact .rvalueReference t' t
  | array t t' count => exact .array t' t count
  | incompleteArray t t' => exact .incompleteArray t' t
  | variableArray t t' => exact .variableArray t' t
  | elaborated t t' => exact .elaborated t' t
  | paren t t' => exact .paren t' t
  | function t t' variadic h => exact .function t' t variadic h.symm
  | specialization template record? h => exact .specialization template record? h.symm

/-- Layers that are alike have as many parts, so the parts can be compared in pairs. -/
theorem SameLayer.length_parts (h : SameLayer c c') : c.parts.length = c'.parts.length := by
  cases h with
  | function t t' variadic h => simp only [parts, List.length_cons, h]
  | @specialization template args args' record? h =>
    have hlength (args : List TemplateArgument) :
        (args.filterMap (·.type?)).length = ((args.map (·.shape)).filterMap (·.type?)).length := by
      simp only [List.filterMap_map, Function.comp_def, TemplateArgument.type?_shape,
        ← List.map_filterMap, List.length_map]
    simp only [parts]
    rw [hlength args, hlength args', h]
  | _ => rfl

end CType

/-! ## Parts in pairs -/

section Pairs

variable {α β γ : Type}

/-- In lists of one length each member of the first has a partner. -/
theorem exists_mem_zip {as bs : List α} (hlength : as.length = bs.length) {a : α} (ha : a ∈ as) :
    ∃ b, (a, b) ∈ as.zip bs := by
  obtain ⟨i, hi, rfl⟩ := List.getElem_of_mem ha
  have hzip : i < (as.zip bs).length := by
    rw [List.length_zip]
    omega
  refine ⟨bs[i], ?_⟩
  rw [← List.getElem_zip (h := hzip)]
  exact List.getElem_mem hzip

/-- A list is paired with itself member by member. -/
theorem forall_mem_zip_self {P : α × α → Prop} {as : List α} (h : ∀ a ∈ as, P (a, a)) :
    ∀ p ∈ as.zip as, P p := by
  intro p hp
  obtain ⟨i, hi, rfl⟩ := List.getElem_of_mem hp
  rw [List.getElem_zip]
  exact h _ (List.getElem_mem _)

/-- What is made of two lists is the same if it is the same for each pair. -/
theorem map_eq_of_zip {f g : α → β} : ∀ {as bs : List α}, as.length = bs.length →
    (∀ p ∈ as.zip bs, f p.1 = g p.2) → as.map f = bs.map g
  | [], [], _, _ => rfl
  | a :: as, b :: bs, hlength, h => by
    obtain ⟨hab, hrest⟩ := List.forall_mem_cons.1 h
    rw [List.map_cons, List.map_cons, hab, map_eq_of_zip (Nat.succ.inj hlength) hrest]

/-- What is made of template arguments, if of their types only the images count. -/
theorem map_args_eq {f g : TypeId → β} {f' g' : TemplateArgument → γ}
    (hfg : ∀ a b, a.shape = b.shape → a.type?.map f = b.type?.map g → f' a = g' b) :
    ∀ {args args' : List TemplateArgument}, args.map (·.shape) = args'.map (·.shape) →
      (∀ p ∈ (args.filterMap (·.type?)).zip (args'.filterMap (·.type?)), f p.1 = g p.2) →
        args.map f' = args'.map g'
  | [], [], _, _ => rfl
  | a :: args, b :: args', hshape, h => by
    rw [List.map_cons, List.map_cons, List.cons.injEq] at hshape
    obtain ⟨hab, hrest⟩ := hshape
    have htype := congrArg (·.type?) hab
    simp only [TemplateArgument.type?_shape] at htype
    rw [List.map_cons, List.map_cons]
    cases ha : a.type? with
    | none =>
      rw [ha, Option.map_none, eq_comm, Option.map_eq_none_iff] at htype
      simp only [List.filterMap_cons, ha, htype] at h
      rw [hfg a b hab (by rw [ha, htype, Option.map_none, Option.map_none]),
        map_args_eq hfg hrest h]
    | some t =>
      rw [ha, Option.map_some, eq_comm, Option.map_eq_some_iff] at htype
      obtain ⟨t', hb, -⟩ := htype
      simp only [List.filterMap_cons, ha, hb, List.zip_cons_cons, List.forall_mem_cons] at h
      rw [hfg a b hab (by rw [ha, hb, Option.map_some, Option.map_some, h.1]),
        map_args_eq hfg hrest h.2]

end Pairs

namespace TranslationUnit

variable {u : TranslationUnit} {t t' t₁ : TypeId}

/-! ## The same type -/

/-- `t` and `t'` are the same type but for sugar. Sugar is taken off on either side where it stands, and
below it the layers have to be alike and their parts the same again. As a derivation is finite, only
types with finitely many layers are compared (`SameType.ends`). -/
inductive SameType (u : TranslationUnit) : TypeId → TypeId → Prop where
  | layer {t t' : TypeId} (hlayer : (u.type t).SameLayer (u.type t'))
      (hparts : ∀ p ∈ (u.type t).parts.zip (u.type t').parts, SameType u p.1 p.2) : SameType u t t'
  | sugarLeft {t t₁ t' : TypeId} (h : u.Sugars t t₁) (rest : SameType u t₁ t') : SameType u t t'
  | sugarRight {t t' t₁ : TypeId} (h : u.Sugars t' t₁) (rest : SameType u t t₁) : SameType u t t'

/-- The rules are the same from both sides. -/
theorem SameType.symm (h : u.SameType t t') : u.SameType t' t := by
  induction h with
  | @layer t t' hlayer _ ih =>
    refine .layer hlayer.symm fun p hp => ?_
    rw [← List.zip_swap, List.mem_map] at hp
    obtain ⟨q, hq, rfl⟩ := hp
    exact ih q hq
  | sugarLeft h _ ih => exact .sugarRight h ih
  | sugarRight h _ ih => exact .sugarLeft h ih

/-- Inside of sugar there is one type. -/
theorem Sugars.eq_of_nests (h : u.Sugars t t') (ht : u.Nests t t₁) : t₁ = t' := by
  rw [Nests, h.parts] at ht
  exact List.mem_singleton.1 ht

/-- A type that is found to be the same as another one has finitely many layers. -/
theorem SameType.ends (h : u.SameType t t') : Ends u.Nests t := by
  induction h with
  | layer hlayer _ ih =>
    refine .intro _ fun s hs => ?_
    obtain ⟨s', hpair⟩ := exists_mem_zip hlayer.length_parts hs
    exact ih _ hpair
  | sugarLeft h _ ih =>
    refine .intro _ fun s hs => ?_
    obtain rfl := h.eq_of_nests hs
    exact ih
  | sugarRight _ _ ih => exact ih

/-- To go along a name is to go one layer into a type. -/
theorem Names.unfolds (h : u.Names t t') : u.Unfolds t t' := by
  rcases h with h | h | ⟨h, halias⟩ <;> rw [Unfolds, inner?, h]
  exact halias

/-- What one layer leads to is a part of it, unless the layer is a name. -/
theorem exists_unfolds_of_sameLayer {s' : TypeId} (hlayer : (u.type t).SameLayer (u.type t'))
    (h : u.Unfolds t' s') : u.Unfolds t s' ∨
      ∃ s, u.Unfolds t s ∧ (s, s') ∈ (u.type t).parts.zip (u.type t').parts := by
  unfold Unfolds inner? at h ⊢
  generalize u.type t = c at hlayer ⊢
  generalize u.type t' = c' at hlayer h ⊢
  -- A leaf may be a typedef, which leads on without having parts; but then both types lead to the same.
  cases hlayer with
  | leaf => exact .inl h
  | array t | incompleteArray t | variableArray t | elaborated t | paren t =>
    cases h
    exact .inr ⟨t, rfl, List.mem_singleton_self _⟩
  | _ => cases h

/-- Where one type comes to an end through typedefs, so does the other. -/
theorem SameType.ends_unfolds (h : u.SameType t t') (hends : Ends u.Unfolds t) :
    Ends u.Unfolds t' := by
  induction h with
  | layer hlayer _ ih =>
    refine .intro _ fun s' hs' => ?_
    rcases exists_unfolds_of_sameLayer hlayer hs' with hs | ⟨s, hs, hpair⟩
    · exact hends.next hs
    · exact ih _ hpair (hends.next hs)
  | sugarLeft h _ ih => exact ih (hends.next h.names.unfolds)
  | sugarRight h _ ih =>
    refine .intro _ fun s' hs' => ?_
    obtain rfl : _ = s' := Option.some.inj (h.names.unfolds.symm.trans hs')
    exact ih hends

/-! ## Recursion that looks through sugar -/

/-- One level of recursion along `R` cannot tell types apart that differ in sugar. The condition on
other layers is asked for parts which `R` leads to: a recursion that does not look at all parts need not
agree on the others. -/
structure IsTransparent {β : Type} (u : TranslationUnit) (R : TypeId → TypeId → Prop)
    (step : (TypeId → β) → TypeId → β) : Prop where
  follows : ∀ {t t'}, u.Sugars t t' → R t t'
  sugar : ∀ {f t t'}, u.Sugars t t' → step f t = f t'
  layer : ∀ {f t t'}, (u.type t).SameLayer (u.type t') →
    (∀ p ∈ (u.type t).parts.zip (u.type t').parts,
      u.SameType p.1 p.2 ∧ (R t p.1 → R t' p.2 → f p.1 = f p.2)) → step f t = step f t'

/-- **Recursion over layers does not see sugar if no layer does.** Induction on the derivation that the
types are the same. The recursion is unfolded by one level on the side where something is taken off,
which is possible as chains end on both sides. Descriptions, spellings and layouts are cases of this. -/
theorem SameType.run_eq {β : Type} {R : TypeId → TypeId → Prop} {step : (TypeId → β) → TypeId → β}
    {run : Nat → TypeId → β} (hrun : IsBounded R step run) (hstep : u.IsTransparent R step)
    (hlt : ∀ t t', R t t' → t.index < u.types.size) (h : u.SameType t t') (hends : Ends R t)
    (hends' : Ends R t') : run u.typeBudget t = run u.typeBudget t' := by
  have heq : ∀ {t}, Ends R t → run u.typeBudget t = step (run u.typeBudget) t := fun hends =>
    hrun.eq_step (hends.endsWithin TypeId.index_inj hlt)
  induction h with
  | layer hlayer hparts ih =>
    rw [heq hends, heq hends']
    refine hstep.layer hlayer fun p hp => ⟨hparts p hp, fun ht ht' => ?_⟩
    exact ih p hp (hends.next ht) (hends'.next ht')
  | sugarLeft h _ ih =>
    rw [heq hends, hstep.sugar h]
    exact ih (hends.next (hstep.follows h)) hends'
  | sugarRight h _ ih =>
    rw [heq hends', hstep.sugar h]
    exact ih hends (hends'.next (hstep.follows h))

/-! ## Names -/

/-- What a type is lies in its layer, not in its handle. -/
theorem resolve_congr (h : u.type t = u.type t') : u.resolve t = u.resolve t' := by
  have hdesugar : u.type (u.desugar t) = u.type (u.desugar t') := by
    unfold desugar typeBudget desugarWithin
    rw [← h]
    split
    · rfl
    · rfl
    · exact h
  unfold resolve typeBudget resolveWithin
  rw [hdesugar]

/-- What layers that are alike say about names: they are the same leaf, perhaps a typedef; or both are
no names; or both are sugar. -/
theorem names_of_sameLayer (h : (u.type t).SameLayer (u.type t')) :
    u.type t = u.type t' ∨ ((∀ s, ¬ u.Names t s) ∧ ∀ s, ¬ u.Names t' s) ∨
      ∃ s s', u.Sugars t s ∧ u.Sugars t' s' ∧ (s, s') ∈ (u.type t).parts.zip (u.type t').parts := by
  generalize hc : u.type t = c at h ⊢
  generalize hc' : u.type t' = c' at h ⊢
  cases h with
  | leaf => exact .inl rfl
  | elaborated s s' => exact .inr (.inr ⟨s, s', .inl hc, .inl hc', List.mem_singleton_self _⟩)
  | paren s s' => exact .inr (.inr ⟨s, s', .inr hc, .inr hc', List.mem_singleton_self _⟩)
  | _ =>
    refine .inr (.inl ?_)
    constructor <;> rintro s (h | h | ⟨h, halias⟩) <;> simp_all

/-- Sugar can be taken off before a type is resolved. -/
theorem SameType.resolve_eq (h : u.SameType t t') (ht : u.Sugars t t₁) : u.resolve t = u.resolve t₁ :=
  resolve_of_sugars (h.ends.of_subrelation fun _ _ hab => hab.nests) ht

/-- **Types that differ in sugar are alike once names are looked through**, also where a name leads
nowhere. -/
theorem SameType.resolve_sameLayer (h : u.SameType t t') :
    (u.resolve t).SameLayer (u.resolve t') := by
  induction h with
  | layer hlayer hparts ih =>
    rcases names_of_sameLayer hlayer with heq | ⟨hend, hend'⟩ | ⟨s, s', hs, hs', hpair⟩
    · rw [resolve_congr heq]
      exact .refl _
    · rwa [resolve_of_not_names hend, resolve_of_not_names hend']
    · have h := SameType.layer hlayer hparts
      rw [h.resolve_eq hs, h.symm.resolve_eq hs']
      exact ih _ hpair
  | sugarLeft h rest ih => rwa [(SameType.sugarLeft h rest).resolve_eq h]
  | sugarRight h rest ih => rwa [(SameType.sugarRight h rest).symm.resolve_eq h]

end TranslationUnit

end ForeignDecl
