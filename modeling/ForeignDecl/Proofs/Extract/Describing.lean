import ForeignDecl.Extract.Describe
import ForeignDecl.Proofs.Unit.Sugar

/-!
# Descriptions are put together from descriptions

The description of a type is made from the descriptions of its parts, taken from left to right: this is the
recursion without a bound that descriptions are computed with one for (`recurs_describe_iff`).

Sugar is looked through. Where the layout oracle sizes builtin types by their kind, types that differ in
sugar alone are described by the same step of the extraction (`describe_eq_of_sameType`): it gives the same
description, or fails alike, and registers and queues the same declarations in the same order.
-/

set_option autoImplicit false

namespace ForeignDecl

variable {u : TranslationUnit} {t t' : TypeId}

/-- The oracle gives builtin types of one kind one layout, no matter by which handle it is asked. Only an
oracle that answers by handle can fail to, and only about a table that has a type twice. -/
def LayoutOracle.SizesByKind (o : LayoutOracle) (u : TranslationUnit) : Prop :=
  ∀ t t' kind, u.type t = .builtin kind → u.type t' = .builtin kind → o.type t = o.type t'

/-- Whether a pointer is one to a function is seen through sugar. -/
theorem isFunctionType_eq_of_sameType (h : u.SameType t t') :
    u.isFunctionType t = u.isFunctionType t' := by
  have hlayer := h.resolve_sameLayer
  unfold TranslationUnit.isFunctionType
  generalize u.resolve t = c at hlayer ⊢
  generalize u.resolve t' = c' at hlayer ⊢
  cases hlayer <;> rfl

namespace Extract

variable {σ : Type} {ctx : Context σ}

/-- Describe one layer, given how to describe its parts. This is `describeWithin` with the recursion
taken out; the fuel is gone, so its fixed points can be spoken of. -/
def describeStep (ctx : Context σ) (describe : TypeId → Extract σ TypeRef) (t : TypeId) :
    Extract σ TypeRef :=
  match ctx.unit.type t with
  | .builtin .void => pure (.simple ":void")
  | .builtin kind => do
    let l ← ask (ctx.oracle.type t)
    return .basic kind.foreignName l.size l.align
  | .pointer target =>
    if ctx.unit.isFunctionType target then pure (.simple ":function-pointer")
    else do return .pointer (← describe target)
  | .lvalueReference target | .rvalueReference target => do
    return .reference (← describe target)
  | .array element count => do return .array (← describe element) count
  | .incompleteArray element | .variableArray element => do
    return .array (← describe element) 0
  | .record d => describeRecord ctx d
  | .enum d => describeEnum ctx d
  | .typedef d => pure (.simple (ctx.unit.node d).name)
  | .elaborated inner | .paren inner => describe inner
  | .function _ _ _ => pure (.simple ":function")
  | .specialization template args record? => do
    let id ← registerClass ctx record?
    return .template template id (← args.mapM (describeArgWith describe))
  | .templateParameter name => pure (.simple name)
  | .objcPointer (some d) => pure (.pointer (.simple (ctx.unit.node d).name))
  | .objcPointer none => pure (.simple ":id")
  | .unsupported spelling => pure (.simple spelling)

/-- A template argument is described by its shape and the description of its type. -/
theorem describeArgWith_congr {f g : TypeId → Extract σ TypeRef} {a b : TemplateArgument}
    (hshape : a.shape = b.shape) (h : a.type?.map f = b.type?.map g) :
    describeArgWith f a = describeArgWith g b := by
  cases a <;> cases b <;>
    simp_all [TemplateArgument.shape, TemplateArgument.type?, describeArgWith]

/-- Two types with one layer are described alike if their parts are. The parts are also asked whether
they are functions, since that is seen from outside at a pointer. -/
theorem describeStep_congr {f g : TypeId → Extract σ TypeRef}
    (hlayer : (ctx.unit.type t).SameLayer (ctx.unit.type t'))
    (hsizes : ∀ kind, ctx.unit.type t = .builtin kind → ctx.oracle.type t = ctx.oracle.type t')
    (h : ∀ p ∈ (ctx.unit.type t).parts.zip (ctx.unit.type t').parts,
      ctx.unit.isFunctionType p.1 = ctx.unit.isFunctionType p.2 ∧ f p.1 = g p.2) :
    describeStep ctx f t = describeStep ctx g t' := by
  unfold describeStep
  generalize ctx.unit.type t = c at hlayer hsizes h ⊢
  generalize ctx.unit.type t' = c' at hlayer h ⊢
  cases hlayer with
  | leaf hleaf =>
    cases c with
    | builtin kind =>
      rw [hsizes kind rfl]
      cases kind <;> rfl
    | objcPointer interface? => cases interface? <;> rfl
    | _ => first | rfl | cases hleaf
  | function s s' variadic hlength => rfl
  | @specialization template args args' record? hargs =>
    have heach : args.map (describeArgWith f) = args'.map (describeArgWith g) :=
      map_args_eq (fun a b => describeArgWith_congr) hargs fun p hp => (h p hp).2
    have hall : args.mapM (describeArgWith f) = args'.mapM (describeArgWith g) := by
      simpa only [List.mapM_map, Function.id_comp] using congrArg (List.mapM id) heach
    dsimp only
    rw [hall]
  | _ =>
    obtain ⟨hfunction, hpart⟩ := h (_, _) (List.mem_singleton_self _)
    simp only [hfunction, hpart]

/-- The fuel only cuts the recursion off: what a layer is described as depends on its parts and on
nothing else. -/
theorem isBounded_describe : IsBounded ctx.unit.Nests (describeStep ctx) (describeWithin ctx) where
  succ _ _ := rfl
  isLocal h := describeStep_congr (.refl _) (fun _ _ => rfl)
    (forall_mem_zip_self fun s hs => ⟨rfl, h s hs⟩)

/-- **To describe a type is to describe its parts**, and that comes to an end if no type is part of
itself. -/
theorem recurs_describe_iff {x : Extract σ TypeRef} (hends : Ends ctx.unit.Nests t) :
    Recurs ctx.unit.Nests (describeStep ctx) t x ↔ x = describe ctx t :=
  isBounded_describe.recurs_iff (TranslationUnit.endsWithin_of_nests hends)

/-- Sugar has no description of its own, and a layer is described by its constructor. -/
theorem isTransparent_describe (hsizes : ctx.oracle.SizesByKind ctx.unit) :
    ctx.unit.IsTransparent ctx.unit.Nests (describeStep ctx) where
  follows h := h.nests
  sugar h := by
    unfold describeStep
    rcases h with h | h <;> rw [h]
  layer {f t t'} hlayer h := by
    refine describeStep_congr hlayer (fun kind hkind => ?_) fun p hp => ⟨?_, ?_⟩
    · refine hsizes t t' kind hkind ?_
      rw [hkind] at hlayer
      generalize ctx.unit.type t' = c' at hlayer ⊢
      cases hlayer
      rfl
    · exact isFunctionType_eq_of_sameType (h p hp).1
    · exact (h p hp).2 (List.of_mem_zip hp).1 (List.of_mem_zip hp).2

/-- **Types that differ in sugar alone are described alike.** -/
theorem describe_eq_of_sameType (hsizes : ctx.oracle.SizesByKind ctx.unit)
    (h : ctx.unit.SameType t t') : describe ctx t = describe ctx t' :=
  h.run_eq isBounded_describe (isTransparent_describe hsizes)
    (fun _ _ => TranslationUnit.lt_size_of_nests) h.ends h.symm.ends

end Extract

end ForeignDecl
