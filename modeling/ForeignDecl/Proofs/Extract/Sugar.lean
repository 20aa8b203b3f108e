import ForeignDecl.Layout.Words
import ForeignDecl.Proofs.Document.Calls
import ForeignDecl.Proofs.Extract.Describing
import ForeignDecl.Proofs.Extract.Listing
import ForeignDecl.Proofs.Layout.Termination
import ForeignDecl.Proofs.Template.Spelling
import ForeignDecl.Proofs.Unit.Handles

/-!
# Sugar makes no difference

How a type was spelled, with a keyword, with a qualifier or inside of parentheses, is not told anywhere.
Types that differ in such sugar, at any depth, have the same description, layout and spelling, they are both
functions or not, and a typedef of either is told or left out alike (`sugar_makes_no_difference`).
-/

set_option autoImplicit false

namespace ForeignDecl

/-! ## Layouts -/

namespace Layout

variable {u : TranslationUnit} {t t' : TypeId} {target : Target}
  {place : DeclId → Except LayoutError Placement}

/-- However records are placed, the layout of a builtin type is that of its kind. -/
theorem sizesByKind_answering : (answering u target place).SizesByKind u := by
  intro t t' kind ht ht'
  change typeLayoutWithin u target place u.typeBudget t = typeLayoutWithin u target place u.typeBudget t'
  unfold TranslationUnit.typeBudget
  rw [typeLayoutWithin_succ, typeLayoutWithin_succ]
  unfold typeStep
  rw [ht, ht']

/-- The recursion of layouts through types, whose bound only cuts it off. -/
theorem isBounded_typeLayout : IsBounded u.Unfolds (fun layout => typeStep u target layout place)
    (typeLayoutWithin u target place) where
  succ := typeLayoutWithin_succ place
  isLocal h := typeStep_congr h fun _ _ => rfl

/-- Sugar is laid out as what is inside of it, and a layer by its constructor and its one part. Pointers
and references do not look at theirs. -/
theorem isTransparent_typeLayout :
    u.IsTransparent u.Unfolds fun layout => typeStep u target layout place where
  follows h := h.names.unfolds
  sugar h := by
    unfold typeStep
    rcases h with h | h <;> rw [h]
  layer {f t t'} hlayer h := by
    unfold TranslationUnit.Unfolds TranslationUnit.inner? at h
    unfold typeStep
    generalize u.type t = c at hlayer h ⊢
    generalize u.type t' = c' at hlayer h ⊢
    cases hlayer with
    | leaf => rfl
    | array s s' | incompleteArray s s' | variableArray s s' | elaborated s s' | paren s s' =>
      simp only [(h (s, s') (List.mem_singleton_self _)).2 rfl rfl]
    | specialization template record? => cases record? <;> rfl
    | _ => rfl

/-- **Types that differ in sugar alone are laid out alike**, if laying them out comes to an end. -/
theorem typeLayout_eq_of_sameType (h : u.SameType t t') (hends : Ends u.Unfolds t) :
    typeLayout u target t = typeLayout u target t' :=
  h.run_eq isBounded_typeLayout isTransparent_typeLayout
    (fun _ _ => TranslationUnit.lt_size_of_unfolds) hends (h.ends_unfolds hends)

end Layout

namespace Extract

variable {σ : Type} {ctx : Context σ} {u : TranslationUnit} {t t' : TypeId}

/-- The check of a typedef resolves the type, and resolving looks through sugar. -/
theorem underlyingIsValid_eq_of_sameType (h : u.SameType t t') :
    underlyingIsValid u t = underlyingIsValid u t' := by
  have hlayer := h.resolve_sameLayer
  unfold underlyingIsValid
  generalize u.resolve t = c at hlayer ⊢
  generalize u.resolve t' = c' at hlayer ⊢
  cases hlayer <;> rfl

/-- A type is spelled alike wherever it stands among template arguments. -/
theorem argsSpelling_eq_of_sameType (h : u.SameType t t') (before after : List TemplateArgument) :
    u.argsSpelling (before ++ .type t :: after) = u.argsSpelling (before ++ .type t' :: after) := by
  unfold TranslationUnit.argsSpelling TranslationUnit.argsSpellingWith
  simp only [List.map_append, List.map_cons, TranslationUnit.argSpellingWith,
    TranslationUnit.typeSpelling_eq_of_sameType h]

/-- In a unit that has each type once, every oracle sizes builtin types by their kind, because two
handles of one builtin type are the same handle. -/
theorem sizesByKind_of_indexed {u : TranslationUnit} (h : u.Indexed) (o : LayoutOracle) :
    o.SizesByKind u := by
  intro t t' kind ht ht'
  have hlookup : ∀ {s : TypeId}, u.type s = .builtin kind → u.types[s.index]? = some (.builtin kind) := by
    intro s hs
    unfold TranslationUnit.type Array.getD at hs
    split at hs
    · next hlt => exact (Array.getElem?_eq_getElem hlt).trans (congrArg some hs)
    · cases hs
  rw [(h.eq_iff (hlookup ht) (hlookup ht')).2 rfl]

/-- **Sugar makes no difference** to what an extraction tells about a type, to the session that it leaves,
to the natural layout, to whether a typedef of the type is told, and to how the type is spelled. A circular
typedef has no layout: then looking for one goes on forever for both types. Every oracle sizes the builtin
types by their kind in a unit that was built by operations (`describe_eq_of_performAll`), and those of natural
layouts do so everywhere (`Layout.sizesByKind_answering`). -/
theorem sugar_makes_no_difference (hsizes : ctx.oracle.SizesByKind ctx.unit)
    (h : ctx.unit.SameType t t') :
    (∀ s, describe ctx t s = describe ctx t' s) ∧
      (∀ target, Ends ctx.unit.Unfolds t →
        (Layout.natural ctx.unit target).type t = (Layout.natural ctx.unit target).type t') ∧
      (Ends ctx.unit.Unfolds t ↔ Ends ctx.unit.Unfolds t') ∧
      underlyingIsValid ctx.unit t = underlyingIsValid ctx.unit t' ∧
      ctx.unit.isFunctionType t = ctx.unit.isFunctionType t' ∧
      ∀ before after, ctx.unit.argsSpelling (before ++ .type t :: after) =
        ctx.unit.argsSpelling (before ++ .type t' :: after) := by
  refine ⟨?_, ?_, ?_, ?_, ?_, ?_⟩
  · intro s
    rw [describe_eq_of_sameType hsizes h]
  · intro target hends
    exact Layout.typeLayout_eq_of_sameType h hends
  · exact ⟨h.ends_unfolds, h.symm.ends_unfolds⟩
  · exact underlyingIsValid_eq_of_sameType h
  · exact isFunctionType_eq_of_sameType h
  · exact argsSpelling_eq_of_sameType h

/-- In a unit that was built by operations types that differ in sugar alone are described alike, whatever the
oracle answers. -/
theorem describe_eq_of_performAll {file : String} {ops : List Operation}
    (hunit : ctx.unit = TranslationUnit.performAll { file } ops) (h : ctx.unit.SameType t t')
    (s : Session σ) : describe ctx t s = describe ctx t' s := by
  have hindexed : ctx.unit.Indexed := hunit ▸ (TranslationUnit.indexed_empty file).performAll ops
  rw [describe_eq_of_sameType (sizesByKind_of_indexed hindexed ctx.oracle) h]

/-- A specialization for an array of pointers to an unnamed record, with sugar around every part of it
(`⟨7⟩`) and without (`⟨10⟩`). -/
def sugared : TranslationUnit where
  file := "a.h"
  types := #[.builtin .int, .record ⟨0⟩, .elaborated ⟨1⟩, .pointer ⟨2⟩, .paren ⟨3⟩, .array ⟨4⟩ 4,
    .specialization "Box" [.type ⟨5⟩, .integral ⟨0⟩ 3] (some ⟨1⟩), .elaborated ⟨6⟩, .pointer ⟨1⟩,
    .array ⟨8⟩ 4, .specialization "Box" [.type ⟨9⟩, .integral ⟨0⟩ 3] (some ⟨1⟩)]
  nodes := #[{ kind := .record {} }, { name := "Box", kind := .record { class? := some {} } }]

/-- The two specializations differ in sugar alone. The derivation takes the sugar off where it is met
and goes through the layers in between. -/
theorem sameType_sugared : sugared.SameType ⟨7⟩ ⟨10⟩ := by
  have hint : sugared.SameType ⟨0⟩ ⟨0⟩ := .layer (.leaf trivial) (nofun)
  have hrecord : sugared.SameType ⟨1⟩ ⟨1⟩ := .layer (.leaf trivial) (nofun)
  have hpointer : sugared.SameType ⟨3⟩ ⟨8⟩ :=
    .layer (.pointer _ _) (List.forall_mem_singleton.2 (.sugarLeft (.inl rfl) hrecord))
  have harray : sugared.SameType ⟨5⟩ ⟨9⟩ :=
    .layer (.array _ _ 4) (List.forall_mem_singleton.2 (.sugarLeft (.inr rfl) hpointer))
  refine .sugarLeft (.inl rfl) (.layer (.specialization "Box" (some ⟨1⟩) rfl) ?_)
  exact List.forall_mem_cons.2 ⟨harray, List.forall_mem_singleton.2 hint⟩

theorem sugar_makes_no_difference_sugared :
    let target := Target.lp64 "x86_64-unknown-linux-gnu"
    let ctx : Context Unit :=
      { unit := sugared, oracle := Layout.natural sugared target, writer := DocumentWriter.silent }
    ctx.oracle.SizesByKind ctx.unit ∧ ctx.unit.SameType ⟨7⟩ ⟨10⟩ ∧ Ends ctx.unit.Unfolds ⟨7⟩ ∧
      (after (describe ctx ⟨7⟩) { page := () }).pending.toList = [⟨0⟩] ∧
      (∀ s, describe ctx ⟨7⟩ s = describe ctx ⟨10⟩ s) ∧
      (Layout.natural sugared target).type ⟨7⟩ = (Layout.natural sugared target).type ⟨10⟩ ∧
      sugared.argsSpelling [.type ⟨7⟩] = "Box< *[4], 3>" ∧
      sugared.argsSpelling [.type ⟨10⟩] = "Box< *[4], 3>" := by
  intro target ctx
  have hsizes : ctx.oracle.SizesByKind ctx.unit := Layout.sizesByKind_answering
  have hends : Ends ctx.unit.Unfolds ⟨7⟩ := by
    refine .intro _ fun t ht => ?_
    cases ht
    exact .intro _ nofun
  obtain ⟨hdescribe, hlayout, -, -, -, hspelling⟩ :=
    sugar_makes_no_difference hsizes sameType_sugared
  have hplain : sugared.argsSpelling [.type ⟨10⟩] = "Box< *[4], 3>" := by decide +kernel
  refine ⟨hsizes, sameType_sugared, hends, by decide +kernel, hdescribe, hlayout target hends, ?_, hplain⟩
  exact (hspelling [] []).trans hplain

end Extract

end ForeignDecl
