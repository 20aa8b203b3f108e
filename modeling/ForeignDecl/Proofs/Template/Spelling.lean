import ForeignDecl.Proofs.Unit.Sugar
import ForeignDecl.Template.Spelling

/-!
# Spellings are put together from spellings

The spelling of a type is made from the spellings of its parts (`typeSpelling_eq`), and sugar leaves no trace
in it (`typeSpelling_eq_of_sameType`).
-/

set_option autoImplicit false

namespace ForeignDecl.TranslationUnit

variable {u : TranslationUnit} {t t' : TypeId}

/-- Spell one layer, given how to spell its parts. Spelling with fuel is recursion along this step, so
what is proved about all such recursions applies (`isBounded_spelling`). -/
def spellingStep (u : TranslationUnit) (spell : TypeId → String) (t : TypeId) : String :=
  match u.type t with
  | .builtin kind => kind.spelling
  | .pointer target => spell target ++ " *"
  | .lvalueReference target => spell target ++ " &"
  | .rvalueReference target => spell target ++ " &&"
  | .array element count => spell element ++ "[" ++ toString count ++ "]"
  | .incompleteArray element | .variableArray element => spell element ++ "[]"
  | .record d | .enum d | .typedef d => (u.node d).name
  | .elaborated inner | .paren inner => spell inner
  | .function result params variadic =>
    let params := params.map spell ++ if variadic then ["..."] else []
    spell result ++ " (" ++ ", ".intercalate params ++ ")"
  | .specialization template args _ => template ++ "<" ++ argsSpellingWith spell args ++ ">"
  | .templateParameter name => name
  | .objcPointer (some d) => (u.node d).name ++ " *"
  | .objcPointer none => "id"
  | .unsupported spelling => spelling

/-- An argument is spelled by its shape and the spelling of its type. -/
theorem argSpellingWith_congr {f g : TypeId → String} {a b : TemplateArgument} (hshape : a.shape = b.shape)
    (h : a.type?.map f = b.type?.map g) : argSpellingWith f a = argSpellingWith g b := by
  cases a <;> cases b <;>
    simp_all [TemplateArgument.shape, TemplateArgument.type?, argSpellingWith]

/-- A layer is spelled by what it is and by the spellings of its parts. It is used with one type on both
sides, for the recursion to look at nothing else, and with two that differ in sugar inside. -/
theorem spellingStep_congr {f g : TypeId → String} (hlayer : (u.type t).SameLayer (u.type t'))
    (h : ∀ p ∈ (u.type t).parts.zip (u.type t').parts, f p.1 = g p.2) :
    u.spellingStep f t = u.spellingStep g t' := by
  unfold spellingStep
  generalize u.type t = c at hlayer h ⊢
  generalize u.type t' = c' at hlayer h ⊢
  cases hlayer with
  | leaf hleaf =>
    cases c with
    | objcPointer interface? => cases interface? <;> rfl
    | _ => first | rfl | cases hleaf
  | function s s' variadic hlength =>
    obtain ⟨hresult, hparams⟩ := List.forall_mem_cons.1 h
    dsimp only
    rw [hresult, map_eq_of_zip hlength hparams]
  | specialization template record? hargs =>
    dsimp only [argsSpellingWith]
    rw [map_args_eq (fun a b => argSpellingWith_congr) hargs h]
  | _ => simp only [h (_, _) (List.mem_singleton_self _)]

/-- Spelling with fuel is recursion over the parts of a type. -/
theorem isBounded_spelling : IsBounded u.Nests u.spellingStep u.spellingWithin where
  succ _ _ := rfl
  isLocal h := spellingStep_congr (.refl _) (forall_mem_zip_self h)

/-- The spelling of a type is made from those of its parts. -/
theorem typeSpelling_eq (hends : Ends u.Nests t) : u.typeSpelling t = u.spellingStep u.typeSpelling t :=
  isBounded_spelling.eq_step (endsWithin_of_nests hends)

/-- Sugar is spelled as what is inside of it. -/
theorem isTransparent_spelling : u.IsTransparent u.Nests u.spellingStep where
  follows h := h.nests
  sugar h := by
    unfold spellingStep
    rcases h with h | h <;> rw [h]
  layer hlayer h := spellingStep_congr hlayer fun p hp =>
    (h p hp).2 (List.of_mem_zip hp).1 (List.of_mem_zip hp).2

/-- **Sugar leaves no trace in the spelling of a type.** -/
theorem typeSpelling_eq_of_sameType (h : u.SameType t t') : u.typeSpelling t = u.typeSpelling t' :=
  h.run_eq isBounded_spelling isTransparent_spelling (fun _ _ => lt_size_of_nests) h.ends h.symm.ends

end ForeignDecl.TranslationUnit
