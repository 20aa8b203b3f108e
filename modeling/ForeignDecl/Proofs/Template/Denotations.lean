import Mathlib.Data.List.Forall2
import ForeignDecl.Proofs.Template.Declarators
import ForeignDecl.Proofs.Template.Spelling
import ForeignDecl.Template.Instantiation

/-!
# Which specialization an instantiation names

The spelling of a type puts every layer behind the spelling of what is inside of it. In this way operators
come out right, and so does a single bound. But the bounds of nested arrays come out in reverse order, and a
pointer or a reference to an array is no type-id at all. `spellings_denote_iff` says for which types a
spelling is right, and that an instantiation names the specialization that it was made for exactly if the
spellings of its arguments are.
-/

set_option autoImplicit false

namespace ForeignDecl

open Cpp

/-! ## Types -/

/-- The layer that an operator stands for. -/
def Cpp.Operator.layer : Operator → TypeId → CType
  | pointer => .pointer
  | lvalueReference => .lvalueReference
  | rvalueReference => .rvalueReference

namespace TranslationUnit

variable {u : TranslationUnit} {t : TypeId} {T : CppType}

/-- The type behind a handle, if it is made of builtin and named types, pointers, references and arrays.
It is these that the claims about spellings are about. A function type or a template parameter in an
argument has no `CppType`, and nothing is said about it. -/
inductive Denotes (u : TranslationUnit) : TypeId → CppType → Prop where
  | builtin {t : TypeId} {kind : Builtin} (h : u.type t = .builtin kind) :
    Denotes u t (.plain (.builtin kind))
  | named {t : TypeId} {d : DeclId}
    (h : u.type t = .record d ∨ u.type t = .enum d ∨ u.type t = .typedef d)
    (hname : IsName (u.node d).name) : Denotes u t (.plain (.named (u.node d).name (u.canonical d)))
  | derived {t t' : TypeId} {T : CppType} {op : Operator} (h : u.type t = op.layer t')
    (target : Denotes u t' T) : Denotes u t (.derived op T)
  | array {t t' : TypeId} {T : CppType} {count : Nat} (h : u.type t = .array t' count)
    (element : Denotes u t' T) : Denotes u t (.array T count)
  | sugar {t t' : TypeId} {T : CppType} (h : u.Sugars t t') (inner : Denotes u t' T) : Denotes u t T

/-- The name inside is one that is read as it stands. -/
theorem Denotes.isName (h : u.Denotes t T) :
    ∀ name entity, T.specifier = .named name entity → IsName name := by
  induction h with
  | builtin => nofun
  | named _ hname =>
    intro name entity heq
    cases heq
    exact hname
  | derived _ _ ih | array _ _ ih | sugar _ _ ih => exact ih

/-- A type with one part has one layer more than that. -/
theorem ends_of_parts {t t' : TypeId} (h : (u.type t).parts = [t']) (ht' : Ends u.Nests t') :
    Ends u.Nests t := by
  refine .intro t fun s hs => ?_
  rw [Nests, h] at hs
  obtain rfl := List.mem_singleton.1 hs
  exact ht'

/-- A type that is made of finitely many of these has finitely many layers, so its spelling is not cut
off by the bound. -/
theorem Denotes.ends (h : u.Denotes t T) : Ends u.Nests t := by
  induction h with
  | builtin h =>
    refine .intro _ fun s hs => ?_
    rw [Nests, h] at hs
    cases hs
  | named h =>
    refine .intro _ fun s hs => ?_
    rcases h with h | h | h <;> rw [Nests, h] at hs <;> cases hs
  | @derived _ _ _ op h _ ih => exact ends_of_parts (by rw [h]; cases op <;> rfl) ih
  | array h _ ih => exact ends_of_parts (by rw [h]; rfl) ih
  | sugar h _ ih => exact ends_of_parts h.parts ih

/-- **The tokens of a spelling** are a name with the layers behind it, from the inside to the outside. -/
theorem Denotes.lex_typeSpelling (h : u.Denotes t T) :
    lex (u.typeSpelling t) = T.tokens := by
  unfold CppType.tokens
  induction h with
  | builtin h =>
    rw [typeSpelling_eq (Denotes.builtin h).ends, spellingStep, h]
    exact (lex_builtin _).trans (List.append_nil _).symm
  | named h hname =>
    rw [typeSpelling_eq (Denotes.named h hname).ends, spellingStep]
    rcases h with h | h | h <;> rw [h] <;> exact hname.1.trans (List.append_nil _).symm
  | @derived t t' T op h target ih =>
    have hspelling : u.typeSpelling t = u.typeSpelling t' ++ op.text := by
      rw [typeSpelling_eq (Denotes.derived h target).ends, spellingStep, h]
      cases op <;> rfl
    rw [hspelling, lex_append_operator, ih]
    simp [CppType.specifier, CppType.layers, Layer.tokens]
  | @array t t' T count h element ih =>
    rw [typeSpelling_eq (Denotes.array h element).ends, spellingStep, h]
    dsimp only
    rw [lex_append_bound, ih]
    simp [CppType.specifier, CppType.layers, Layer.tokens]
  | sugar h inner ih =>
    rw [typeSpelling_eq (Denotes.sugar h inner).ends, isTransparent_spelling.sugar h]
    exact ih

/-! ## Arguments -/

/-- The argument that a specialization was made with. Of an integral argument only the number is
spelled. -/
inductive DenotesArg (u : TranslationUnit) : TemplateArgument → CppArg → Prop where
  | type {t : TypeId} {T : CppType} (h : u.Denotes t T) : DenotesArg u (.type t) (.type T)
  | value (t : TypeId) (v : Int) : DenotesArg u (.integral t v) (.value v)

end TranslationUnit

namespace Cpp.CppArg

def tokens : CppArg → List Token
  | type T => T.tokens
  | value v => valueTokens v

/-- The argument is read where it is spelled: as the type that it is, and not as another one or as none.
A number always is. -/
def ComesOut (lookup : String → Option DeclId) : CppArg → Prop
  | type T => T.ComesOut lookup
  | value _ => True

end Cpp.CppArg

namespace TranslationUnit

variable {u : TranslationUnit} {lookup : String → Option DeclId} {a : TemplateArgument} {A B : CppArg}

/-- An argument is spelled as its tokens. -/
theorem DenotesArg.lex_spelling (h : u.DenotesArg a A) :
    lex (argSpellingWith u.typeSpelling a) = A.tokens := by
  cases h with
  | type h => exact h.lex_typeSpelling
  | value t v => exact lex_value v

/-- A number is always read where it is spelled, so arguments come down to their types. -/
theorem DenotesArg.isArgReading_iff (h : u.DenotesArg a A) :
    IsArgReading lookup A.tokens A ↔ A.ComesOut lookup := by
  cases h with
  | type h => exact isReading_self_iff h.isName
  | value t v => exact iff_of_true rfl trivial

theorem comma_not_mem_valueTokens (v : Int) : Token.mark ',' ∉ valueTokens v := by
  cases v <;> simp [valueTokens]

/-- No argument has a comma in it, neither as it is spelled nor as it is read. -/
theorem comma_not_mem_tokens (A : CppArg) : Token.mark ',' ∉ A.tokens := by
  cases A with
  | type T => exact T.comma_not_mem_tokens
  | value v => exact comma_not_mem_valueTokens v

theorem comma_not_mem_of_isArgReading {ts : List Token} (h : IsArgReading lookup ts A) :
    Token.mark ',' ∉ ts := by
  cases A with
  | type T => exact comma_not_mem_of_isReading h
  | value v =>
    rw [show ts = valueTokens v from h]
    exact comma_not_mem_valueTokens v

/-- A single argument is read as a whole. -/
theorem isArgsReading_single_iff {ts : List Token} :
    IsArgsReading lookup ts [A] ↔ IsArgReading lookup ts A := by
  constructor
  · rintro (_ | h | _)
    exact h
  · exact .last

/-- Where a token does not occur before, it divides a list in one way. -/
theorem eq_of_append_cons {token : Token} : ∀ {ts ts' rest rest' : List Token}, token ∉ ts →
    token ∉ ts' → ts ++ token :: rest = ts' ++ token :: rest' → ts = ts' ∧ rest = rest'
  | [], [], _, _, _, _, h => ⟨rfl, (List.cons.inj h).2⟩
  | [], _ :: _, _, _, _, h', h => absurd (by simp [(List.cons.inj h).1]) h'
  | _ :: _, [], _, _, h', _, h => absurd (by simp [(List.cons.inj h).1]) h'
  | t :: ts, t' :: ts', _, _, hts, hts', h => by
    rw [List.mem_cons, not_or] at hts hts'
    obtain ⟨ht, hrest⟩ := List.cons.inj h
    obtain ⟨hts, hrest⟩ := eq_of_append_cons hts.2 hts'.2 hrest
    exact ⟨by rw [ht, hts], hrest⟩

/-- The first comma ends the first argument. So a list of arguments is read one by one, and none can
take a part of its neighbour. -/
theorem isArgsReading_cons_iff {ts rest : List Token} {As : List CppArg} (hts : Token.mark ',' ∉ ts) :
    IsArgsReading lookup (ts ++ .mark ',' :: rest) (A :: B :: As) ↔
      IsArgReading lookup ts A ∧ IsArgsReading lookup rest (B :: As) := by
  constructor
  · intro h
    generalize heq : ts ++ .mark ',' :: rest = all at h
    cases h with
    | @more ts' rest' _ _ _ h hrest =>
      obtain ⟨rfl, rfl⟩ := eq_of_append_cons hts (comma_not_mem_of_isArgReading h) heq
      exact ⟨h, hrest⟩
  · rintro ⟨h, hrest⟩
    exact .more h hrest

/-- **When the arguments of a specialization are read where they are spelled.** -/
theorem isArgsReading_iff {args : List TemplateArgument} {As : List CppArg}
    (h : List.Forall₂ u.DenotesArg args As) :
    IsArgsReading lookup (lex (u.argsSpelling args)) As ↔ ∀ A ∈ As, A.ComesOut lookup := by
  induction h with
  | nil => exact iff_of_true .none nofun
  | @cons a A args As ha hargs ih =>
    unfold argsSpelling argsSpellingWith at ih ⊢
    cases hargs with
    | nil =>
      rw [List.map_singleton, String.intercalate_singleton, ha.lex_spelling, isArgsReading_single_iff,
        ha.isArgReading_iff, List.forall_mem_singleton]
    | @cons b B args As hb hargs =>
      rw [List.map_cons] at ih ⊢
      rw [List.map_cons, String.intercalate_cons_cons, lex_append_comma, ha.lex_spelling,
        isArgsReading_cons_iff (comma_not_mem_tokens A), ha.isArgReading_iff, ih]
      exact List.forall_mem_cons.symm

/-! ## Instantiations -/

/-- The tokens of a line that instantiates a specialization. -/
theorem lex_instantiationText (u : TranslationUnit) (s : Specialization) :
    lex (Registry.instantiationText u s) = lex "template class" ++ lex s.template ++
      .mark '<' :: (lex (u.argsSpelling s.args) ++ [.mark '>', .mark ';']) := by
  have hspace : lex ("template class " ++ s.template) = lex "template class" ++ lex s.template :=
    lex_append_mark "template class" s.template (m := " ") (c := ' ') (by decide)
  have hopen : lex ("template class " ++ s.template ++ "<" ++ u.argsSpelling s.args) =
      lex ("template class " ++ s.template) ++ .mark '<' :: lex (u.argsSpelling s.args) :=
    lex_append_mark _ _ (m := "<") (c := '<') (by decide)
  have hend : Breaks ">;\n".toList := breaks_cons (c := '>') (by decide) (by decide)
  have hclose : lex ">;\n" = [.mark '>', .mark ';'] := by decide +kernel
  have htext : lex (Registry.instantiationText u s) =
      lex ("template class " ++ s.template ++ "<" ++ u.argsSpelling s.args) ++ lex ">;\n" :=
    lex_append hend
  simp only [htext, hopen, hspace, hclose, List.append_assoc, List.cons_append]

/-- In the line of an instantiation the arguments stand between the brackets, and they are the same
however the line is divided. -/
theorem isInstantiation_iff {s : Specialization} {As : List CppArg}
    (h : List.Forall₂ u.DenotesArg s.args As) :
    IsInstantiation lookup (lex (Registry.instantiationText u s)) s.template As ↔
      ∀ A ∈ As, A.ComesOut lookup := by
  rw [← isArgsReading_iff h, lex_instantiationText]
  constructor
  · rintro ⟨inner, hinner, htokens⟩
    have hargs := List.append_cancel_right (List.cons.inj (List.append_cancel_left htokens)).2
    rwa [hargs]
  · exact fun hargs => ⟨_, hargs, rfl⟩

/-- **Which specialization an instantiation names.** A type is read where it is spelled exactly if its name
is found, no pointer and no reference in it goes to an array, and the bounds of the arrays that it consists
of are the same from both sides. If only the name is found, then arrays are read with their bounds in
reverse order, and nothing is read where a pointer or a reference goes to an array. So an instantiation
names the specialization that it is for exactly if each of the types in its arguments is read where it is
spelled. -/
theorem spellings_denote_iff (u : TranslationUnit) (lookup : String → Option DeclId) :
    (∀ t T, u.Denotes t T → (IsReading lookup (lex (u.typeSpelling t)) T ↔ T.ComesOut lookup)) ∧
    (∀ t T T', u.Denotes t T → T.specifier.Found lookup →
      (IsReading lookup (lex (u.typeSpelling t)) T' ↔
        T.NoneToArray ∧ T' = T.element.arrays T.bounds.reverse)) ∧
    ∀ (s : Specialization) (As : List CppArg), List.Forall₂ u.DenotesArg s.args As →
      (IsInstantiation lookup (lex (Registry.instantiationText u s)) s.template As ↔
        ∀ A ∈ As, A.ComesOut lookup) := by
  refine ⟨fun t T h => ?_, fun t T T' h hfound => ?_, fun s As h => isInstantiation_iff h⟩
  · rw [h.lex_typeSpelling]
    exact isReading_self_iff h.isName
  · rw [h.lex_typeSpelling]
    exact isReading_layers_iff h.isName hfound

/-- Two rows of three numbers (`⟨2⟩`), a pointer to a row (`⟨3⟩`), and four pointers to a record (`⟨6⟩`). -/
def arrayed : TranslationUnit where
  file := "a.h"
  types := #[.builtin .int, .array ⟨0⟩ 3, .array ⟨1⟩ 2, .pointer ⟨1⟩, .record ⟨0⟩, .pointer ⟨4⟩,
    .array ⟨5⟩ 4]
  nodes := #[{ name := "S", kind := .record {} }]

/-- The name of the record is one word, and no builtin type has it. -/
theorem isName_s : IsName (arrayed.node ⟨0⟩).name := by
  have hall : ∀ kind ∈ Builtin.all, Token.word ['S'] ∉ builtinTokens kind := by decide +kernel
  exact ⟨by decide +kernel, fun kind => hall kind (mem_all kind)⟩

/-- Four pointers to the record: an array outside of all pointers, so it is read as it is spelled. -/
theorem denotes_arrayed :
    arrayed.Denotes ⟨6⟩ (.array (.derived .pointer (.plain (.named "S" ⟨0⟩))) 4) :=
  .array rfl (.derived (show _ = Operator.pointer.layer ⟨4⟩ from rfl)
    (.named (d := ⟨0⟩) (.inl rfl) isName_s))

theorem spellings_denote_iff_arrayed :
    let lookup := fun name => if name = "S" then some (⟨0⟩ : DeclId) else none
    let T : CppType := .array (.derived .pointer (.plain (.named "S" ⟨0⟩))) 4
    let s : Specialization := { template := "Box", args := [.type ⟨6⟩, .integral ⟨0⟩ (-1)] }
    arrayed.Denotes ⟨6⟩ T ∧ T.specifier.Found lookup ∧
      List.Forall₂ arrayed.DenotesArg s.args [.type T, .value (-1)] ∧
      arrayed.typeSpelling ⟨6⟩ = "S *[4]" ∧
      Registry.instantiationText arrayed s = "template class Box<S *[4], -1>;\n" ∧
      IsReading lookup (lex (arrayed.typeSpelling ⟨6⟩)) T ∧
      (∀ T', IsReading lookup (lex (arrayed.typeSpelling ⟨6⟩)) T' → T' = T) ∧
      IsInstantiation lookup (lex (Registry.instantiationText arrayed s)) "Box"
        [.type T, .value (-1)] := by
  intro lookup T s
  have hargs : List.Forall₂ arrayed.DenotesArg s.args [.type T, .value (-1)] :=
    .cons (.type denotes_arrayed) (.cons (.value _ _) .nil)
  have hfound : T.specifier.Found lookup := rfl
  have hout : T.ComesOut lookup := ⟨hfound, ⟨trivial, rfl⟩, rfl⟩
  obtain ⟨hself, hall, hinst⟩ := spellings_denote_iff arrayed lookup
  refine ⟨denotes_arrayed, hfound, hargs, by decide +kernel, by decide +kernel,
    (hself _ T denotes_arrayed).2 hout, fun T' h => ?_,
    (hinst s _ hargs).2 (List.forall_mem_cons.2 ⟨hout, List.forall_mem_singleton.2 trivial⟩)⟩
  exact ((hall _ T T' denotes_arrayed hfound).1 h).2

/-- Two rows of three numbers are spelled as three rows of two, so that an instantiation is for these, and a
pointer to a row is spelled as nothing at all. -/
theorem spellings_turn_arrays :
    let row : CppType := .array (.plain (.builtin .int)) 3
    let s : Specialization := { template := "Box", args := [.type ⟨2⟩] }
    arrayed.Denotes ⟨2⟩ (.array row 2) ∧ arrayed.typeSpelling ⟨2⟩ = "int[3][2]" ∧
      arrayed.Denotes ⟨3⟩ (.derived .pointer row) ∧ arrayed.typeSpelling ⟨3⟩ = "int[3] *" ∧
      ∀ lookup,
        ¬ IsReading lookup (lex (arrayed.typeSpelling ⟨2⟩)) (.array row 2) ∧
        IsReading lookup (lex (arrayed.typeSpelling ⟨2⟩)) (.array (.array (.plain (.builtin .int)) 2) 3) ∧
        (∀ T, ¬ IsReading lookup (lex (arrayed.typeSpelling ⟨3⟩)) T) ∧
        ¬ IsInstantiation lookup (lex (Registry.instantiationText arrayed s)) "Box"
          [.type (.array row 2)] := by
  intro row s
  have hrow : arrayed.Denotes ⟨1⟩ row := .array rfl (.builtin rfl)
  have hrows : arrayed.Denotes ⟨2⟩ (.array row 2) := .array rfl hrow
  have hpointer : arrayed.Denotes ⟨3⟩ (.derived .pointer row) :=
    .derived (show _ = Operator.pointer.layer ⟨1⟩ from rfl) hrow
  refine ⟨hrows, by decide +kernel, hpointer, by decide +kernel, fun lookup => ?_⟩
  have hout : ¬ (CppType.array row 2).ComesOut lookup := fun h => absurd h.2.2 (by decide)
  rw [hrows.lex_typeSpelling, hpointer.lex_typeSpelling, isReading_self_iff hrows.isName]
  refine ⟨hout, (isReading_layers_iff hrows.isName trivial).2 ⟨trivial, rfl⟩, fun T h => ?_, fun h => ?_⟩
  · exact absurd ((isReading_layers_iff hpointer.isName trivial).1 h).1.2 (by decide)
  · exact hout ((isInstantiation_iff (s := s) (.cons (.type hrows) .nil)).1 h _ List.mem_cons_self)

end TranslationUnit

end ForeignDecl
