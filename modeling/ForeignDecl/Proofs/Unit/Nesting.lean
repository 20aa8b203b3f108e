import ForeignDecl.Proofs.Unit.Recursion
import ForeignDecl.Proofs.Unit.Resolution

/-!
# Types inside of types

A type is described and spelled by way of the types that it is put together from (`Nests`), and it is looked
at through its names by way of what it is a name of (`Names`). Both chains end in a unit that a front end
made. Where they do, a type has no more layers than there are types (`endsWithin_of_nests`), and to resolve a
type is to go along its names, one after the other (`recurs_resolve_iff`).
-/

set_option autoImplicit false

namespace ForeignDecl

/-- The type in a template argument. That of an integral argument is one of its parts as well, though it
is not spelled. -/
def TemplateArgument.type? : TemplateArgument → Option TypeId
  | .type t | .integral t _ => some t
  | .other _ => none

/-- The types that one layer is put around. A name has no parts: the type that it stands for is behind it,
not inside. -/
def CType.parts : CType → List TypeId
  | .pointer target | .lvalueReference target | .rvalueReference target => [target]
  | .array element _ | .incompleteArray element | .variableArray element => [element]
  | .elaborated inner | .paren inner => [inner]
  | .function result params _ => result :: params
  | .specialization _ args _ => args.filterMap (·.type?)
  | .builtin _ | .record _ | .enum _ | .typedef _ | .templateParameter _ | .objcPointer _
  | .unsupported _ => []

namespace TranslationUnit

variable {u : TranslationUnit} {t t' : TypeId}

/-- `t'` is one of the types that `t` is put together from. The recursions that describe and spell types
go along this relation. -/
def Nests (u : TranslationUnit) (t t' : TypeId) : Prop := t' ∈ (u.type t).parts

/-- No type is part of itself. Through a name it may be: a record has fields that point to it. Types are
described by recursion along their parts, so this is what makes a description finite. -/
def NestingEnds (u : TranslationUnit) : Prop := ∀ t, ¬ Relation.TransGen u.Nests t t

/-- No name is a name of itself. It is asked for besides `NestingEnds` since types are resolved along
their names, and what a typedef is a name of is no part of it. -/
def NamesEnd (u : TranslationUnit) : Prop := ∀ t, ¬ Relation.TransGen u.Names t t

/-- A type that was never interned has no parts. -/
theorem lt_size_of_nests (h : u.Nests t t') : t.index < u.types.size := by
  by_contra hge
  have ht : u.type t = .unsupported "" := by simp [type, Array.getD, hge]
  rw [Nests, ht] at h
  simp [CType.parts] at h

/-- Where the nesting ends, a type has no more layers than there are types, which is the bound that all
recursions over types are given. -/
theorem endsWithin_of_nests (h : Ends u.Nests t) : EndsWithin u.Nests u.typeBudget t :=
  h.endsWithin TypeId.index_inj fun _ _ => lt_size_of_nests

/-- Both conditions on a unit are about loops. What the recursions need is that chains end, and with
finitely many types that is the same. -/
theorem NestingEnds.ends (h : u.NestingEnds) (t : TypeId) : Ends u.Nests t :=
  ends_of_acyclic TypeId.index_inj (fun _ _ => lt_size_of_nests) h t

theorem NamesEnd.ends (h : u.NamesEnd) (t : TypeId) : Ends u.Names t :=
  ends_of_acyclic TypeId.index_inj (fun _ _ hnames => hnames.lt_size) h t

/-! ## Sugar -/

/-- `t` is `t'` with a layer of sugar around it. -/
def Sugars (u : TranslationUnit) (t t' : TypeId) : Prop :=
  u.type t = .elaborated t' ∨ u.type t = .paren t'

theorem Sugars.names (h : u.Sugars t t') : u.Names t t' := by
  rcases h with h | h
  · exact .elaborated h
  · exact .paren h

theorem Sugars.parts (h : u.Sugars t t') : (u.type t).parts = [t'] := by
  rcases h with h | h <;> rw [h] <;> rfl

theorem Sugars.nests (h : u.Sugars t t') : u.Nests t t' := by
  rw [Nests, h.parts]
  exact List.mem_singleton_self t'

/-- One layer of sugar off. Written with the recursion as an argument, to be a step in the sense of
`IsBounded`. -/
def desugarStep (u : TranslationUnit) (desugar : TypeId → TypeId) (t : TypeId) : TypeId :=
  match u.type t with
  | .elaborated inner | .paren inner => desugar inner
  | _ => t

/-- Taking off sugar with fuel is recursion along `Sugars`. -/
theorem isBounded_desugar : IsBounded u.Sugars u.desugarStep u.desugarWithin where
  succ _ _ := rfl
  isLocal {f g t} h := by
    unfold desugarStep
    split
    · next inner ht => exact h inner (.inl ht)
    · next inner ht => exact h inner (.inr ht)
    · rfl

/-- A layer of sugar more makes no difference. The fuel is the same on both sides, so this needs that
the sugar ends. -/
theorem desugar_of_sugars (hends : Ends u.Sugars t) (h : u.Sugars t t') :
    u.desugar t = u.desugar t' := by
  have hstep := isBounded_desugar.eq_step
    (hends.endsWithin TypeId.index_inj fun _ _ hab => hab.names.lt_size)
  unfold desugarStep at hstep
  rcases h with h | h <;> rwa [h] at hstep

/-- Without sugar around it a type is left as it is, whatever is behind it. -/
theorem desugar_of_not_sugars (h : ∀ t', ¬ u.Sugars t t') : u.desugar t = t := by
  unfold desugar typeBudget desugarWithin
  split
  · next inner ht => exact absurd (.inl ht) (h inner)
  · next inner ht => exact absurd (.inr ht) (h inner)
  · rfl

/-- What is left when the sugar is off lies on the chain of names, whether or not there was enough fuel.
-/
theorem reflTransGen_desugarWithin (fuel : Nat) (t : TypeId) :
    Relation.ReflTransGen u.Sugars t (u.desugarWithin fuel t) := by
  induction fuel generalizing t with
  | zero => exact .refl
  | succ fuel ih =>
    unfold desugarWithin
    split
    · next inner ht => exact .head (.inl ht) (ih inner)
    · next inner ht => exact .head (.inr ht) (ih inner)
    · exact .refl

/-! ## Names -/

/-- Sugar does not change what a type is. -/
theorem resolve_of_sugars (hends : Ends u.Sugars t) (h : u.Sugars t t') :
    u.resolve t = u.resolve t' := by
  unfold resolve typeBudget resolveWithin
  rw [desugar_of_sugars hends h]

/-- Behind its sugar, `t` is the name of a typedef or an alias of `t'`. -/
def Aliases (u : TranslationUnit) (t t' : TypeId) : Prop :=
  ∃ d, u.type (u.desugar t) = .typedef d ∧ (u.node d).aliased? = some t'

/-- To get to the next typedef is to go along one name or several: sugar first, and then the typedef. -/
theorem Aliases.transGen (h : u.Aliases t t') : Relation.TransGen u.Names t t' := by
  obtain ⟨d, hd, halias⟩ := h
  have hsugar : Relation.ReflTransGen u.Names t (u.desugar t) :=
    (reflTransGen_desugarWithin _ t).lift id fun _ _ hab => hab.names
  exact Relation.TransGen.tail' hsugar (.typedef hd halias)

/-- From one typedef to the next. The computation takes off the sugar before each of them and spends
fuel on typedefs only; `resolveStep` below takes one name at a time. -/
def aliasStep (u : TranslationUnit) (resolve : TypeId → CType) (t : TypeId) : CType :=
  match u.type (u.desugar t) with
  | .typedef d =>
    match (u.node d).aliased? with
    | some underlying => resolve underlying
    | none => .typedef d
  | other => other

/-- Resolving with fuel is recursion from typedef to typedef. -/
theorem isBounded_resolve : IsBounded u.Aliases u.aliasStep u.resolveWithin where
  succ _ _ := rfl
  isLocal {f g t} h := by
    unfold aliasStep
    split
    · next d hd =>
      split
      · next underlying halias => exact h underlying ⟨d, hd, halias⟩
      · rfl
    · rfl

/-- **Another name does not change what a type is.** -/
theorem resolve_of_names (hends : Ends u.Names t) (h : u.Names t t') : u.resolve t = u.resolve t' := by
  have hsugar : Ends u.Sugars t := hends.of_subrelation fun _ _ hab => hab.names
  cases h with
  | elaborated h => exact resolve_of_sugars hsugar (.inl h)
  | paren h => exact resolve_of_sugars hsugar (.inr h)
  | @typedef d hd halias =>
    have hplain : u.desugar t = t := desugar_of_not_sugars fun t' => by simp [Sugars, hd]
    -- The steps of the computation are chains of names, so they end too.
    have haliases : Ends u.Aliases t := by
      refine Subrelation.accessible ?_ hends.transGen
      intro b a hab
      exact Relation.transGen_swap.2 hab.transGen
    have hstep := isBounded_resolve.eq_step (haliases.endsWithin TypeId.index_inj fun a b hab => by
      obtain ⟨c, hac, -⟩ := Relation.TransGen.head'_iff.1 hab.transGen
      exact hac.lt_size)
    rw [aliasStep, hplain, hd] at hstep
    simp only [halias] at hstep
    exact hstep

/-- What is no name is what it is. -/
theorem resolve_of_not_names (h : ∀ t', ¬ u.Names t t') : u.resolve t = u.type t := by
  have hplain : u.desugar t = t := desugar_of_not_sugars fun t' ht => h t' ht.names
  unfold resolve typeBudget resolveWithin
  rw [hplain]
  split
  · next d hd =>
    split
    · next underlying halias => exact absurd (.typedef hd halias) (h underlying)
    · exact hd.symm
  · rfl

/-- From one name to the next. This is the form in which resolving a type is explained: sugar and
typedefs are treated alike, and no fuel is split between them. -/
def resolveStep (u : TranslationUnit) (resolve : TypeId → CType) (t : TypeId) : CType :=
  match u.type t with
  | .elaborated inner | .paren inner => resolve inner
  | .typedef d =>
    match (u.node d).aliased? with
    | some underlying => resolve underlying
    | none => .typedef d
  | other => other

/-- The step asks about nothing but what the type is a name of. -/
theorem isLocal_resolveStep : IsLocal u.Names u.resolveStep := by
  intro f g t h
  unfold resolveStep
  split
  · next inner ht => exact h inner (.elaborated ht)
  · next inner ht => exact h inner (.paren ht)
  · next d hd =>
    split
    · next underlying halias => exact h underlying (.typedef hd halias)
    · rfl
  · rfl

/-- The computation, which goes from typedef to typedef, keeps to the step from name to name. -/
theorem resolve_eq_step (hends : Ends u.Names t) : u.resolve t = u.resolveStep u.resolve t := by
  unfold resolveStep
  split
  · next inner ht => exact resolve_of_names hends (.elaborated ht)
  · next inner ht => exact resolve_of_names hends (.paren ht)
  · next d hd =>
    split
    · next underlying halias => exact resolve_of_names hends (.typedef hd halias)
    · next hnone =>
      rw [resolve_of_not_names, hd]
      rintro t' (h | h | ⟨h, halias⟩) <;> simp_all
  -- Neither sugar nor a typedef, so no name at all.
  · next hother _ _ =>
    refine resolve_of_not_names ?_
    rintro t' (h | h | ⟨h, halias⟩) <;> simp_all

/-- **To resolve a type is to go along its names.** -/
theorem recurs_resolve_iff {c : CType} (hends : Ends u.Names t) :
    Recurs u.Names u.resolveStep t c ↔ c = u.resolve t := by
  have hrecurs : Recurs u.Names u.resolveStep t (u.resolve t) := by
    induction hends with
    | intro t h ih =>
      rw [resolve_eq_step (.intro t h)]
      exact .mk ih
  constructor
  · exact fun hc => hc.unique isLocal_resolveStep hrecurs
  · rintro rfl
    exact hrecurs

end TranslationUnit

end ForeignDecl
