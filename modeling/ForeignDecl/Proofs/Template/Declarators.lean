import Mathlib.Data.List.Basic
import Mathlib.Data.List.Induction
import ForeignDecl.Proofs.Template.TypeIds

/-!
# What spellings are taken for

A name and the layers of a type behind it, from the inside to the outside, are what a type is spelled like.
Operators come out right in this way, and so does a single bound. But the bounds of nested arrays are read
from the outside in, so that they come out in reverse order, and what stands for a pointer or a reference to
an array is no type-id at all. `isReading_layers_iff` says exactly what such tokens are read as, and
`isReading_self_iff` for which types that is the type itself.
-/

set_option autoImplicit false

namespace ForeignDecl.Cpp

/-! ## Layers of types -/

/-- One layer of a type, as it is spelled: a text behind the spelling of what is inside. A spelling is
made layer by layer, whatever the layers are, whereas a reader of C++ binds bounds before operators and
reads several bounds from the outside to the inside. This is where spellings go wrong. -/
inductive Layer where
  | operator (op : Operator)
  | bound (count : Nat)
deriving DecidableEq

namespace Layer

def tokens : Layer → List Token
  | operator op => [op.token]
  | bound count => boundTokens count

/-- Operators, and bounds behind them. This is the only order in which layers are a declarator without
parentheses. -/
def line (ops : List Operator) (ns : List Nat) : List Layer := ops.map .operator ++ ns.map .bound

/-- Such tokens say which operators and which bounds there are. -/
theorem line_inj {ops ops' : List Operator} {ns ns' : List Nat} (h : line ops ns = line ops' ns') :
    ops = ops' ∧ ns = ns' := by
  have hops := congrArg (List.filterMap fun | operator op => some op | bound _ => none) h
  have hns := congrArg (List.filterMap fun | operator _ => none | bound n => some n) h
  simp only [line, List.filterMap_append, List.filterMap_map, Function.comp_def] at hops hns
  simpa using And.intro hops hns

end Layer

namespace CppType

/-- The type with a name that a type is made from. -/
def specifier : CppType → Specifier
  | plain s => s
  | derived _ T | array T _ => T.specifier

/-- The layers around it, from the inside to the outside. -/
def layers : CppType → List Layer
  | plain _ => []
  | derived op T => T.layers ++ [.operator op]
  | array T count => T.layers ++ [.bound count]

/-- The bounds of the arrays that a type consists of, from the outside to the inside. They end where
something that is no array is inside, so arrays behind a pointer are not among them. -/
def bounds : CppType → List Nat
  | array T count => count :: T.bounds
  | plain _ | derived _ _ => []

/-- What is in these arrays. -/
def element : CppType → CppType
  | array T _ => T.element
  | plain s => .plain s
  | derived op T => .derived op T

/-- Arrays of a type, with these bounds from the outside to the inside. -/
def arrays (T : CppType) : List Nat → CppType
  | [] => T
  | count :: counts => .array (T.arrays counts) count

/-- Pointers and references to a type, the outermost one last. It is how operators in front of a
declarator are applied. -/
def through (T : CppType) (ops : List Operator) : CppType := ops.foldl (fun T op => .derived op T) T

/-- No pointer and no reference goes to an array. In C++ such a type is spelled with parentheses, and
layers that are put behind each other have none. -/
def NoneToArray : CppType → Prop
  | plain _ => True
  | derived _ T => T.NoneToArray ∧ T.bounds = []
  | array T _ => T.NoneToArray

variable {T : CppType} {ops : List Operator} {ns : List Nat}

/-- A type is taken apart into its element and its bounds, and put together again. -/
@[simp] theorem arrays_bounds (T : CppType) : T.element.arrays T.bounds = T := by
  induction T with
  | array T count ih => rw [element, bounds, arrays, ih]
  | _ => rfl

@[simp] theorem bounds_element (T : CppType) : T.element.bounds = [] := by
  induction T with
  | array T count ih => exact ih
  | _ => rfl

@[simp] theorem bounds_arrays (T : CppType) (ns : List Nat) : (T.arrays ns).bounds = ns ++ T.bounds := by
  induction ns with
  | nil => rfl
  | cons n ns ih => rw [arrays, bounds, ih, List.cons_append]

@[simp] theorem specifier_arrays (T : CppType) (ns : List Nat) :
    (T.arrays ns).specifier = T.specifier := by
  induction ns with
  | nil => rfl
  | cons n ns ih => exact ih

@[simp] theorem specifier_through (T : CppType) (ops : List Operator) :
    (T.through ops).specifier = T.specifier := by
  induction ops generalizing T with
  | nil => rfl
  | cons op ops ih => exact ih _

theorem arrays_append (T : CppType) (ns ms : List Nat) :
    T.arrays (ns ++ ms) = (T.arrays ms).arrays ns := by
  induction ns with
  | nil => rfl
  | cons n ns ih => rw [List.cons_append, arrays, arrays, ih]

theorem element_of_bounds (h : T.bounds = []) : T.element = T := by
  cases T with
  | array T count => cases h
  | _ => rfl

/-- Where no pointer goes to an array, the arrays are around everything else. Then the layers are
operators with bounds behind them, and the bounds are in the order from the inside to the outside: the
reverse of the order in which C++ reads them. -/
theorem NoneToArray.layers_eq (h : T.NoneToArray) : ∃ ops : List Operator,
    T.layers = Layer.line ops T.bounds.reverse ∧
      T.element = (plain T.specifier).through ops := by
  induction T with
  | plain s => exact ⟨[], rfl, rfl⟩
  | derived op T ih =>
    obtain ⟨hT, hbounds⟩ := h
    obtain ⟨ops, hlayers, helement⟩ := ih hT
    rw [element_of_bounds hbounds] at helement
    refine ⟨ops ++ [op], ?_, ?_⟩
    · simp [layers, bounds, hlayers, hbounds, Layer.line]
    · calc derived op T = derived op ((plain T.specifier).through ops) := congrArg _ helement
        _ = (plain T.specifier).through (ops ++ [op]) := by simp [through]
  | array T count ih =>
    obtain ⟨ops, hlayers, helement⟩ := ih h
    exact ⟨ops, by simp [layers, bounds, hlayers, Layer.line], helement⟩

/-- Layers without a bound are those of a type that is no array. -/
theorem bounds_of_layers (h : T.layers = ops.map .operator) : T.bounds = [] := by
  cases T with
  | array T count =>
    have hmem : Layer.bound count ∈ ops.map Layer.operator := by simp [← h, layers]
    simp at hmem
  | _ => rfl

/-- The other way round, layers in this order are those of a type in which no pointer goes to an array.
Induction on the type; its last layer is a bound, if there are bounds, or an operator. -/
theorem noneToArray_of_layers (h : T.layers = Layer.line ops ns) : T.NoneToArray := by
  unfold Layer.line at h
  induction T generalizing ops ns with
  | plain s => trivial
  | derived op T ih =>
    rcases ns.eq_nil_or_concat' with rfl | ⟨ns, n, rfl⟩
    · rw [List.map_nil, List.append_nil] at h
      rcases ops.eq_nil_or_concat' with rfl | ⟨ops, op', rfl⟩
      · simp [layers] at h
      · rw [layers, List.map_append, List.map_singleton] at h
        have hT := (List.append_inj' h rfl).1
        have hline : T.layers = ops.map .operator ++ ([] : List Nat).map .bound := by simpa using hT
        exact ⟨ih hline, bounds_of_layers hT⟩
    · rw [layers, List.map_append, List.map_singleton, ← List.append_assoc] at h
      have hlast := (List.append_inj' h rfl).2
      simp at hlast
  | array T count ih =>
    rcases ns.eq_nil_or_concat' with rfl | ⟨ns, n, rfl⟩
    · rw [List.map_nil, List.append_nil] at h
      have hmem : Layer.bound count ∈ ops.map Layer.operator := by simp [← h, layers]
      simp at hmem
    · rw [layers, List.map_append, List.map_singleton, ← List.append_assoc] at h
      exact ih (List.append_inj' h rfl).1

end CppType

/-! ## Declarators without groups -/

theorem Operator.token_inj {op op' : Operator} (h : op.token = op'.token) : op = op' := by
  cases op <;> cases op' <;> first | rfl | cases h

/-- The layers can be read off the tokens. An operator is one token and a bound is three, which begin
with another one. -/
theorem flatMap_tokens_inj : ∀ {ls ls' : List Layer},
    ls.flatMap Layer.tokens = ls'.flatMap Layer.tokens → ls = ls'
  | [], [], _ => rfl
  | [], l :: ls, h => by cases l <;> cases h
  | l :: ls, [], h => by cases l <;> cases h
  | l :: ls, l' :: ls', h => by
    rw [List.flatMap_cons, List.flatMap_cons] at h
    cases l with
    | operator op =>
      cases l' with
      | operator op' =>
        obtain ⟨hop, hrest⟩ := List.cons.inj h
        rw [Operator.token_inj hop, flatMap_tokens_inj hrest]
      | bound n => cases op <;> cases h
    | bound n =>
      cases l' with
      | operator op => cases op <;> cases h
      | bound m =>
        simp only [Layer.tokens, boundTokens, List.cons_append, List.nil_append, List.cons.injEq,
          Token.number.injEq, true_and] at h
        rw [h.1, flatMap_tokens_inj h.2]

/-- Layers have no other marks than those of operators and bounds; in particular no parentheses and no
commas. -/
theorem not_mem_flatMap_tokens {c : Char} (hc : c ∉ ['*', '&', '[', ']']) (ls : List Layer) :
    Token.mark c ∉ ls.flatMap Layer.tokens := by
  intro hmem
  obtain ⟨l, -, hl⟩ := List.mem_flatMap.1 hmem
  refine hc ?_
  cases l with
  | operator op => cases op <;> simp_all [Layer.tokens, Operator.token]
  | bound n => simp_all [Layer.tokens, boundTokens]

/-- A declarator without operators and without parentheses is a list of bounds, and it makes arrays with
these bounds from the outside to the inside. -/
theorem TightDeclarator.exists_bounds : ∀ d : TightDeclarator, .mark '(' ∉ d.tokens →
    ∃ ns : List Nat, d.tokens = (ns.map Layer.bound).flatMap Layer.tokens ∧ ∀ T, d.of T = T.arrays ns
  | .empty, _ => ⟨[], rfl, fun _ => rfl⟩
  | .bound d n, h => by
    rw [tokens, List.mem_append, not_or] at h
    obtain ⟨ns, htokens, hof⟩ := d.exists_bounds h.1
    refine ⟨ns ++ [n], by simp [tokens, htokens, Layer.tokens], fun T => ?_⟩
    rw [of, hof, CppType.arrays_append]
    rfl
  | .group d, h => absurd List.mem_cons_self h

/-- Without parentheses a declarator is operators with bounds behind them. It makes arrays of what the
operators make of the type, as bounds bind more tightly. -/
theorem Declarator.exists_layers : ∀ d : Declarator, .mark '(' ∉ d.tokens →
    ∃ (ops : List Operator) (ns : List Nat),
      d.tokens = (Layer.line ops ns).flatMap Layer.tokens ∧
        ∀ T, d.of T = (T.through ops).arrays ns
  | .tight d, h => by
    obtain ⟨ns, htokens, hof⟩ := d.exists_bounds h
    exact ⟨[], ns, htokens, hof⟩
  | .operator op d, h => by
    rw [tokens, List.mem_cons, not_or] at h
    obtain ⟨ops, ns, htokens, hof⟩ := d.exists_layers h.2
    exact ⟨op :: ops, ns, by simp [tokens, htokens, Layer.line, Layer.tokens], fun T => hof _⟩

theorem exists_tightDeclarator (ns : List Nat) : ∃ d : TightDeclarator, d.IsProper ∧
    d.tokens = (ns.map Layer.bound).flatMap Layer.tokens ∧ ∀ T, d.of T = T.arrays ns := by
  induction ns using List.reverseRecOn with
  | nil => exact ⟨.empty, trivial, rfl, fun _ => rfl⟩
  | append_singleton ns n ih =>
    obtain ⟨d, hproper, htokens, hof⟩ := ih
    refine ⟨.bound d n, hproper, by simp [TightDeclarator.tokens, htokens, Layer.tokens], fun T => ?_⟩
    rw [TightDeclarator.of, hof, CppType.arrays_append]
    rfl

/-- Operators, and bounds behind them, are a declarator. -/
theorem exists_declarator (ops : List Operator) (ns : List Nat) : ∃ d : Declarator, d.IsProper ∧
    d.tokens = (Layer.line ops ns).flatMap Layer.tokens ∧
      ∀ T, d.of T = (T.through ops).arrays ns := by
  induction ops with
  | nil =>
    obtain ⟨d, hproper, htokens, hof⟩ := exists_tightDeclarator ns
    exact ⟨.tight d, hproper, htokens, hof⟩
  | cons op ops ih =>
    obtain ⟨d, hproper, htokens, hof⟩ := ih
    exact ⟨.operator op d, hproper, by simp [Declarator.tokens, htokens, Layer.line, Layer.tokens],
      fun T => hof _⟩

/-! ## Names in front -/

def Token.IsWord : Token → Prop
  | .word _ => True
  | _ => False

instance : DecidablePred Token.IsWord
  | .word _ => isTrue trivial
  | .number _ | .mark _ | .doubleAmpersand => isFalse not_false

/-- Declarators without a name are made of such tokens. -/
def Token.InDeclarator : Token → Prop
  | .word _ => False
  | .number _ | .doubleAmpersand => True
  | .mark c => c ∈ ['*', '&', '[', ']', '(', ')']

theorem Token.InDeclarator.not_isWord {token : Token} (h : token.InDeclarator) : ¬ token.IsWord := by
  cases token with
  | word text => exact h.elim
  | _ => exact id

/-- The tokens of a type with a name. -/
def Specifier.tokens : Specifier → List Token
  | builtin kind => builtinTokens kind
  | named name _ => [.word name.toList]

/-- The name is found as what it was declared as. A name that is declared a second time in an inner
scope is found as something else, so it has to be asked for where the spelling is read. -/
def Specifier.Found (lookup : String → Option DeclId) : Specifier → Prop
  | builtin _ => True
  | named name entity => lookup name = some entity

/-- A text that is one word, and not a word of the builtin types. A name of several words, or one such
as `long`, could be read together with its neighbours. -/
def IsName (name : String) : Prop :=
  lex name = [.word name.toList] ∧ ∀ kind : Builtin, .word name.toList ∉ builtinTokens kind

/-- The list of all builtin types has all of them, so what is decided of the list holds of any. -/
theorem mem_all (kind : Builtin) : kind ∈ Builtin.all := by
  cases kind <;> decide

/-- The marks that layers begin with do not occur in the names of builtin types. -/
theorem not_mem_builtinTokens (kind : Builtin) :
    (∀ op : Operator, op.token ∉ builtinTokens kind) ∧ .mark '[' ∉ builtinTokens kind := by
  have hall : ∀ kind ∈ Builtin.all, ∀ token ∈ [Token.mark '*', .mark '&', .doubleAmpersand, .mark '['],
      token ∉ builtinTokens kind := by decide +kernel
  have h := hall kind (mem_all kind)
  refine ⟨fun op => h _ ?_, h _ (by decide)⟩
  cases op <;> decide

/-- Builtin types are named by different tokens. -/
theorem builtinTokens_inj {kind kind' : Builtin} (h : builtinTokens kind = builtinTokens kind') :
    kind = kind' := by
  have hall : ∀ kind ∈ Builtin.all, ∀ kind' ∈ Builtin.all,
      builtinTokens kind = builtinTokens kind' → kind = kind' := by decide +kernel
  exact hall kind (mem_all kind) kind' (mem_all kind') h

/-- A builtin type is found exactly by its tokens. -/
theorem builtinOf?_eq_some {ts : List Token} {kind : Builtin} :
    builtinOf? ts = some kind ↔ builtinTokens kind = ts := by
  constructor
  · intro h
    simpa using List.find?_some h
  · rintro rfl
    cases h : builtinOf? (builtinTokens kind) with
    | none => simpa using List.find?_eq_none.1 h kind (mem_all kind)
    | some kind' =>
      have hkind : kind' = kind := builtinTokens_inj (by simpa using List.find?_some h)
      rw [hkind]

section Front

variable {lookup : String → Option DeclId} {front rest : List Token} {s s' : Specifier}

/-- What names a type is all tokens of a builtin type or one word. -/
theorem readSpecifier?_eq_some (h : readSpecifier? lookup front = some s) :
    (∃ kind : Builtin, front = builtinTokens kind) ∨ ∃ name, front = [.word name] := by
  unfold readSpecifier? at h
  split at h
  · next kind hkind => exact .inl ⟨kind, (builtinOf?_eq_some.1 hkind).symm⟩
  · split at h
    · exact .inr ⟨_, rfl⟩
    · cases h

/-- A type is named by its name, if that is found. -/
theorem readSpecifier?_tokens (hs : ∀ name entity, s = .named name entity → IsName name) :
    readSpecifier? lookup s.tokens = some s ↔ s.Found lookup := by
  unfold readSpecifier?
  cases s with
  | builtin kind =>
    have hsome : builtinOf? (builtinTokens kind) = some kind := builtinOf?_eq_some.2 rfl
    simp [Specifier.tokens, Specifier.Found, hsome]
  | named name entity =>
    have hnone : builtinOf? [.word name.toList] = none := by
      refine Option.eq_none_iff_forall_ne_some.2 fun kind hkind => (hs name entity rfl).2 kind ?_
      simp [builtinOf?_eq_some.1 hkind]
    simp [Specifier.tokens, Specifier.Found, hnone]

/-- No shorter part of the name of a builtin type is a name, if nothing but marks and numbers follows. -/
theorem eq_nil_of_builtinTokens {kind : Builtin} (h : builtinTokens kind = front ++ rest)
    (hrest : ∀ token ∈ rest, ¬ token.IsWord) (hread : readSpecifier? lookup front = some s) :
    rest = [] := by
  have hall : ∀ kind ∈ Builtin.all, ∀ i < (builtinTokens kind).length,
      (∃ token ∈ (builtinTokens kind).drop i, token.IsWord) ∨
        ((builtinTokens kind).take i).length ≠ 1 ∧
          ∀ kind' ∈ Builtin.all, (builtinTokens kind).take i ≠ builtinTokens kind' := by decide +kernel
  by_contra hne
  have hlt : front.length < (builtinTokens kind).length := by
    rw [h, List.length_append]
    have := List.length_pos_iff.2 hne
    omega
  have hcase := hall kind (mem_all kind) front.length hlt
  rw [h, List.drop_left, List.take_left] at hcase
  rcases hcase with ⟨token, hmem, hword⟩ | ⟨hone, hother⟩
  · exact hrest token hmem hword
  · rcases readSpecifier?_eq_some hread with ⟨kind', hfront⟩ | ⟨name, hfront⟩
    · exact hother kind' (mem_all kind') hfront
    · exact hone (by rw [hfront]; rfl)

theorem Specifier.tokens_ne_nil (s : Specifier) : s.tokens ≠ [] := by
  cases s with
  | builtin kind =>
    have hall : ∀ kind ∈ Builtin.all, builtinTokens kind ≠ [] := by decide +kernel
    exact hall kind (mem_all kind)
  | named name entity => exact List.cons_ne_nil _ _

theorem head_of_flatMap_tokens {ls : List Layer} {token : Token}
    (h : ls.flatMap Layer.tokens = token :: rest) :
    (∃ op : Operator, token = op.token) ∨ token = .mark '[' := by
  cases ls with
  | nil => cases h
  | cons l ls =>
    cases l with
    | operator op => exact .inl ⟨op, (List.cons.inj h).1.symm⟩
    | bound n => exact .inr (List.cons.inj h).1.symm

mutual

/-- All tokens of a declarator are of that kind, which is why it can be divided from the name in front.
-/
theorem Declarator.inDeclarator : ∀ d : Declarator, ∀ token ∈ d.tokens, token.InDeclarator
  | .tight d => d.inDeclarator
  | .operator op d => List.forall_mem_cons.2 ⟨by cases op <;> simp [Operator.token, Token.InDeclarator],
      d.inDeclarator⟩

theorem TightDeclarator.inDeclarator : ∀ d : TightDeclarator, ∀ token ∈ d.tokens, token.InDeclarator
  | .empty => nofun
  | .bound d n => by
    refine List.forall_mem_append.2 ⟨d.inDeclarator, ?_⟩
    simp [boundTokens, Token.InDeclarator]
  | .group d => by
    refine List.forall_mem_cons.2
      ⟨by simp [Token.InDeclarator], List.forall_mem_append.2 ⟨d.inDeclarator, ?_⟩⟩
    simp [Token.InDeclarator]

end

/-- **The name in front ends where the layers begin**, however the tokens are divided. Were it shorter,
a word would be left for the declarator; were it longer, a mark of a layer would be part of a name. -/
theorem front_eq {ls : List Layer} {d : Declarator}
    (h : front ++ d.tokens = s.tokens ++ ls.flatMap Layer.tokens)
    (hread : readSpecifier? lookup front = some s') :
    front = s.tokens ∧ d.tokens = ls.flatMap Layer.tokens := by
  rcases List.append_eq_append_iff.1 h with ⟨rest, htokens, hd⟩ | ⟨rest, hfront, hls⟩
  · have hwords : ∀ token ∈ rest, ¬ token.IsWord := fun token hmem =>
      (d.inDeclarator token (by rw [hd]; exact List.mem_append_left _ hmem)).not_isWord
    have hnil : rest = [] := by
      cases s with
      | builtin kind => exact eq_nil_of_builtinTokens htokens hwords hread
      | named name entity =>
        rcases List.append_eq_singleton_iff.1 htokens.symm with ⟨-, hrest⟩ | ⟨-, hrest⟩
        · exact absurd (show Token.IsWord (.word name.toList) from trivial) (hwords _ (by simp [hrest]))
        · exact hrest
    rw [hnil] at htokens hd
    exact ⟨by simpa using htokens.symm, by simpa using hd⟩
  · cases rest with
    | nil => exact ⟨by simpa using hfront, by simpa using hls.symm⟩
    | cons token rest =>
      have hmem : token ∈ front := by simp [hfront]
      rcases readSpecifier?_eq_some hread with ⟨kind, hkind⟩ | ⟨name, hname⟩
      · rw [hkind] at hmem
        rcases head_of_flatMap_tokens hls with ⟨op, rfl⟩ | rfl
        · exact absurd hmem ((not_mem_builtinTokens kind).1 op)
        · exact absurd hmem (not_mem_builtinTokens kind).2
      · have hlength := congrArg List.length (hname.symm.trans hfront)
        have := List.length_pos_iff.2 s.tokens_ne_nil
        simp only [List.length_append, List.length_cons, List.length_nil] at hlength
        omega

end Front

/-! ## Readings of layers -/

namespace CppType

/-- A name, and the layers behind it from the inside to the outside. -/
def tokens (T : CppType) : List Token := T.specifier.tokens ++ T.layers.flatMap Layer.tokens

/-- The type is read where it is spelled: its name is found, no pointer and no reference goes to an array,
and it does not matter from which side the bounds of nested arrays are read. -/
def ComesOut (lookup : String → Option DeclId) (T : CppType) : Prop :=
  T.specifier.Found lookup ∧ T.NoneToArray ∧ T.bounds.reverse = T.bounds

end CppType

/-- **What a name with layers behind it is read as.** The bounds come in reverse order; and a pointer or
a reference to an array, which would need parentheses, is not read at all. In both directions the
declarator is one without parentheses, since the layers have none. -/
theorem isReading_layers_iff {T T' : CppType} {lookup : String → Option DeclId}
    (hname : ∀ name entity, T.specifier = .named name entity → IsName name)
    (hfound : T.specifier.Found lookup) :
    IsReading lookup T.tokens T' ↔
      T.NoneToArray ∧ T' = T.element.arrays T.bounds.reverse := by
  constructor
  · rintro ⟨front, s, d, htokens, hread, hproper, rfl⟩
    obtain ⟨hfront, hd⟩ := front_eq htokens.symm hread
    obtain ⟨ops, ns, hline, hof⟩ := d.exists_layers (hd ▸ not_mem_flatMap_tokens (by decide) T.layers)
    have hlayers : T.layers = Layer.line ops ns := flatMap_tokens_inj (hd.symm.trans hline)
    have hnone : T.NoneToArray := CppType.noneToArray_of_layers hlayers
    obtain ⟨ops', hlayers', helement⟩ := hnone.layers_eq
    obtain ⟨hops, hns⟩ := Layer.line_inj (hlayers.symm.trans hlayers')
    rw [hfront, (readSpecifier?_tokens hname).2 hfound, Option.some.injEq] at hread
    refine ⟨hnone, ?_⟩
    rw [hof, ← hread, hops, hns, helement]
  · rintro ⟨hnone, rfl⟩
    obtain ⟨ops, hlayers, helement⟩ := hnone.layers_eq
    obtain ⟨d, hproper, hd, hof⟩ := exists_declarator ops T.bounds.reverse
    refine ⟨T.specifier.tokens, T.specifier, d, ?_, (readSpecifier?_tokens hname).2 hfound, hproper, ?_⟩
    · rw [CppType.tokens, hlayers, hd]
    · rw [hof, helement]

/-- **When a name with layers behind it is read as the type that they are the layers of.** -/
theorem isReading_self_iff {T : CppType} {lookup : String → Option DeclId}
    (hname : ∀ name entity, T.specifier = .named name entity → IsName name) :
    IsReading lookup T.tokens T ↔ T.ComesOut lookup := by
  constructor
  · intro h
    have hfound : T.specifier.Found lookup := by
      obtain ⟨front, s, d, htokens, hread, -, hT⟩ := h
      obtain ⟨hfront, hd⟩ := front_eq htokens.symm hread
      obtain ⟨ops, ns, -, hof⟩ := d.exists_layers (hd ▸ not_mem_flatMap_tokens (by decide) T.layers)
      have hs : T.specifier = s := by
        rw [hT, hof, CppType.specifier_arrays, CppType.specifier_through]
        rfl
      rw [hfront, ← hs] at hread
      exact (readSpecifier?_tokens hname).1 hread
    obtain ⟨hnone, hT⟩ := (isReading_layers_iff hname hfound).1 h
    refine ⟨hfound, hnone, ?_⟩
    have hbounds := congrArg CppType.bounds hT
    simpa using hbounds.symm
  · rintro ⟨hfound, hnone, hbounds⟩
    refine (isReading_layers_iff hname hfound).2 ⟨hnone, ?_⟩
    rw [hbounds, CppType.arrays_bounds]

theorem comma_not_mem_builtinTokens (kind : Builtin) : Token.mark ',' ∉ builtinTokens kind := by
  have hall : ∀ kind ∈ Builtin.all, Token.mark ',' ∉ builtinTokens kind := by decide +kernel
  exact hall kind (mem_all kind)

/-- Nothing that is read as a type has a comma, so the commas between arguments divide them. -/
theorem comma_not_mem_of_isReading {T : CppType} {lookup : String → Option DeclId} {ts : List Token}
    (h : IsReading lookup ts T) : Token.mark ',' ∉ ts := by
  obtain ⟨front, s, d, rfl, hread, -, -⟩ := h
  rw [List.mem_append, not_or]
  constructor
  · rcases readSpecifier?_eq_some hread with ⟨kind, rfl⟩ | ⟨name, rfl⟩
    · exact comma_not_mem_builtinTokens kind
    · simp
  · intro hmem
    simpa [Token.InDeclarator] using d.inDeclarator _ hmem

theorem CppType.comma_not_mem_tokens (T : CppType) : Token.mark ',' ∉ T.tokens := by
  rw [tokens, List.mem_append, not_or]
  constructor
  · cases T.specifier with
    | builtin kind => exact comma_not_mem_builtinTokens kind
    | named name entity => simp [Specifier.tokens]
  · exact not_mem_flatMap_tokens (by decide) T.layers

end ForeignDecl.Cpp
