import Mathlib.Data.Nat.Basic
import ForeignDecl.Unit.Builtin
import ForeignDecl.Unit.Handle

/-!
# Type-ids of C++

What C++ takes a text to be in the place of a type, for types made of builtin and named types, pointers,
references and arrays. The text is cut into tokens (`lex`); in front stand those that name a type, and the
others are a declarator without a name (`IsReading`).

Declarators are inside out. The bounds of arrays stand at the end, the outermost one first, and bind more
tightly than the operators in front, so that an operator for the whole needs parentheses:
`int *[2]` is an array of pointers and `int (*)[2]` a pointer to an array.
-/

set_option autoImplicit false

namespace ForeignDecl.Cpp

/-! ## Tokens -/

inductive Token where
  | word (text : List Char)
  /-- A decimal number. -/
  | number (value : Nat)
  | mark (c : Char)
  | doubleAmpersand
deriving DecidableEq

/-- Letters, digits and whatever else may stand in a name. -/
def isWordChar (c : Char) : Bool := c.isAlphanum || c = '_' || 128 ≤ c.toNat

/-- The token that a run of such characters is, if it is not empty. -/
def wordToken (w : List Char) : List Token :=
  if w.isEmpty then [] else if w.all Char.isDigit then [.number (Nat.ofDigitChars 10 w 0)] else [.word w]

def markToken (c : Char) : List Token := if c.isWhitespace then [] else [.mark c]

/-- The tokens of a text, of which the characters `w` of a word are read already. -/
def lexFrom : List Char → List Char → List Token
  | w, [] => wordToken w
  | w, '&' :: '&' :: cs => wordToken w ++ .doubleAmpersand :: lexFrom [] cs
  | w, c :: cs =>
    if isWordChar c then lexFrom (w ++ [c]) cs else wordToken w ++ (markToken c ++ lexFrom [] cs)

/-- The tokens of a text. Words and numbers are as long as they can be, and so is an operator: two
ampersands are one token. -/
def lex (text : String) : List Token := lexFrom [] text.toList

/-! ## Types -/

/-- A type with a name of its own: a builtin one, or one that is declared as `name`. -/
inductive Specifier where
  | builtin (kind : Builtin)
  | named (name : String) (entity : DeclId)
deriving DecidableEq

/-- What an operator makes of a type: a pointer or a reference to it. -/
inductive Operator where
  | pointer
  | lvalueReference
  | rvalueReference
deriving DecidableEq

/-- A type of C++. -/
inductive CppType where
  | plain (s : Specifier)
  | derived (op : Operator) (target : CppType)
  | array (element : CppType) (count : Nat)
deriving DecidableEq

def words (ws : List String) : List Token := ws.map fun w => .word w.toList

/-- The tokens that name a builtin type. -/
def builtinTokens : Builtin → List Token
  | .void => words ["void"]
  | .bool => words ["bool"]
  | .char => words ["char"]
  | .signedChar => words ["signed", "char"]
  | .unsignedChar => words ["unsigned", "char"]
  | .wideChar => words ["wchar_t"]
  | .char16 => words ["char16_t"]
  | .char32 => words ["char32_t"]
  | .short => words ["short"]
  | .unsignedShort => words ["unsigned", "short"]
  | .int => words ["int"]
  | .unsignedInt => words ["unsigned", "int"]
  | .long => words ["long"]
  | .unsignedLong => words ["unsigned", "long"]
  | .longLong => words ["long", "long"]
  | .unsignedLongLong => words ["unsigned", "long", "long"]
  | .int128 => words ["__int128"]
  | .unsignedInt128 => words ["unsigned", "__int128"]
  | .half => words ["__fp16"]
  | .float => words ["float"]
  | .double => words ["double"]
  | .longDouble => words ["long", "double"]
  | .float128 => words ["__float128"]
  | .nullPointer => words ["decltype"] ++ .mark '(' :: words ["nullptr"] ++ [.mark ')']

/-- The builtin type that the tokens name. -/
def builtinOf? (ts : List Token) : Option Builtin := Builtin.all.find? fun kind => builtinTokens kind = ts

/-- What the tokens name in a place where names are looked up like this. -/
def readSpecifier? (lookup : String → Option DeclId) (ts : List Token) : Option Specifier :=
  match builtinOf? ts with
  | some kind => some (.builtin kind)
  | none =>
    match ts with
    | [.word name] => (lookup (String.ofList name)).map (.named (String.ofList name))
    | _ => none

/-! ## Declarators -/

def Operator.token : Operator → Token
  | pointer => .mark '*'
  | lvalueReference => .mark '&'
  | rvalueReference => .doubleAmpersand

/-- An operator behind a type, with the space before it. -/
def Operator.text : Operator → String
  | pointer => " *"
  | lvalueReference => " &"
  | rvalueReference => " &&"

/-- The tokens of an array bound. -/
def boundTokens (count : Nat) : List Token := [.mark '[', .number count, .mark ']']

mutual

/-- A declarator without a name. -/
inductive Declarator where
  | tight (d : TightDeclarator)
  | operator (op : Operator) (d : Declarator)

/-- One that no operator stands in front of. -/
inductive TightDeclarator where
  | empty
  | bound (d : TightDeclarator) (count : Nat)
  | group (d : Declarator)

end

mutual

def Declarator.tokens : Declarator → List Token
  | .tight d => d.tokens
  | .operator op d => op.token :: d.tokens

def TightDeclarator.tokens : TightDeclarator → List Token
  | .empty => []
  | .bound d count => d.tokens ++ boundTokens count
  | .group d => .mark '(' :: (d.tokens ++ [.mark ')'])

end

mutual

/-- Nothing in parentheses would be a function. -/
def Declarator.IsProper : Declarator → Prop
  | .tight d => d.IsProper
  | .operator _ d => d.IsProper

def TightDeclarator.IsProper : TightDeclarator → Prop
  | .empty => True
  | .bound d _ => d.IsProper
  | .group d => d.tokens ≠ [] ∧ d.IsProper

end

mutual

/-- The type that the declarator makes of a type. -/
def Declarator.of : Declarator → CppType → CppType
  | .tight d, T => d.of T
  | .operator op d, T => d.of (.derived op T)

def TightDeclarator.of : TightDeclarator → CppType → CppType
  | .empty, T => T
  | .bound d count, T => d.of (.array T count)
  | .group d, T => d.of T

end

/-- As a type-id, the tokens are the type `T`. It is stated as a way to divide the tokens, and not as a
function: so nothing hangs on how a reader looks for the end of the name, and a text with no reading is
one that no reader accepts. -/
def IsReading (lookup : String → Option DeclId) (ts : List Token) (T : CppType) : Prop :=
  ∃ front s, ∃ d : Declarator, ts = front ++ d.tokens ∧ readSpecifier? lookup front = some s ∧
    d.IsProper ∧ T = d.of (.plain s)

example : IsReading (fun _ => none) (lex "int (*)[3]")
    (.derived .pointer (.array (.plain (.builtin .int)) 3)) :=
  ⟨[.word ['i', 'n', 't']], .builtin .int,
    .tight (.bound (.group (.operator .pointer (.tight .empty))) 3), by decide +kernel,
    by decide +kernel, ⟨by decide, trivial⟩, rfl⟩

/-! ## Template arguments -/

/-- An argument of a specialization: a type, or a number. -/
inductive CppArg where
  | type (T : CppType)
  | value (v : Int)

def valueTokens : Int → List Token
  | .ofNat n => [.number n]
  | .negSucc n => [.mark '-', .number (n + 1)]

/-- As a template argument, the tokens are this one. -/
def IsArgReading (lookup : String → Option DeclId) (ts : List Token) : CppArg → Prop
  | .type T => IsReading lookup ts T
  | .value v => ts = valueTokens v

/-- As a list of template arguments, the tokens are these. Any comma may be the one that divides; that
no other one can is proved (`isArgsReading_cons_iff`). -/
inductive IsArgsReading (lookup : String → Option DeclId) : List Token → List CppArg → Prop where
  | none : IsArgsReading lookup [] []
  | last {ts : List Token} {a : CppArg} (h : IsArgReading lookup ts a) : IsArgsReading lookup ts [a]
  | more {ts ts' : List Token} {a b : CppArg} {args : List CppArg} (h : IsArgReading lookup ts a)
    (rest : IsArgsReading lookup ts' (b :: args)) :
    IsArgsReading lookup (ts ++ .mark ',' :: ts') (a :: b :: args)

/-- The tokens instantiate a specialization of the class template for these arguments. -/
def IsInstantiation (lookup : String → Option DeclId) (ts : List Token) (template : String)
    (args : List CppArg) : Prop :=
  ∃ inner, IsArgsReading lookup inner args ∧
    ts = lex "template class" ++ lex template ++ .mark '<' :: (inner ++ [.mark '>', .mark ';'])

/-! ## Cutting a text into tokens -/

section Lex

variable {c : Char} {w a b cs : List Char} {s t : String}

/-- The text does not go on with a word or an operator that is begun before it. Then its tokens are
found without what stands before. -/
def Breaks (b : List Char) : Prop := ∀ c ∈ b.head?, isWordChar c = false ∧ c ≠ '&'

/-- Whether it does is settled by its first character. -/
theorem breaks_cons (hc : isWordChar c = false) (hne : c ≠ '&') : Breaks (c :: cs) := by
  intro d hd
  obtain rfl : c = d := Option.some.inj hd
  exact ⟨hc, hne⟩

theorem lexFrom_cons_mark (hc : isWordChar c = false) (hne : c ≠ '&') :
    lexFrom w (c :: cs) = wordToken w ++ (markToken c ++ lexFrom [] cs) := by
  rw [lexFrom.eq_3]
  · simp [hc]
  · exact fun _ h _ => hne h

/-- Two texts are cut one after the other where the second one breaks off what is begun. Induction along
the reader, with the word that it has in hand; only an ampersand needs a second look, as it may join the
next one. -/
theorem lexFrom_append (hb : Breaks b) : lexFrom w (a ++ b) = lexFrom w a ++ lexFrom [] b := by
  fun_induction lexFrom w a with
  | case1 w =>
    cases b with
    | nil => exact (List.append_nil _).symm
    | cons c cs =>
      obtain ⟨hc, hne⟩ := hb c rfl
      rw [List.nil_append, lexFrom_cons_mark hc hne, lexFrom_cons_mark hc hne]
      rfl
  | case2 w cs ih =>
    rw [List.cons_append, List.cons_append, lexFrom.eq_2, ih]
    simp
  | case3 w c cs hnot hc ih =>
    rw [List.cons_append, lexFrom.eq_3, if_pos hc, ih]
    -- A word does not begin with an ampersand.
    rintro cs' rfl -
    exact absurd hc (by decide)
  | case4 w c cs hnot hc ih =>
    rw [List.cons_append, lexFrom.eq_3, if_neg hc, ih]
    · simp
    · intro cs' hand hcs
      cases cs with
      | nil =>
        -- Nor does `b` begin with one, so that two of them would meet.
        rw [List.nil_append] at hcs
        exact (hb '&' (by rw [hcs]; rfl)).2 rfl
      | cons c' cs =>
        obtain ⟨rfl, -⟩ := List.cons.inj hcs
        exact hnot cs hand rfl

theorem lex_append (ht : Breaks t.toList) : lex (s ++ t) = lex s ++ lex t := by
  unfold lex
  rw [String.toList_append, lexFrom_append ht]

/-- The text is one character, which ends the word and the operator before it. -/
def IsMark (m : String) (c : Char) : Prop := m.toList = [c] ∧ isWordChar c = false ∧ c ≠ '&'

instance (m : String) (c : Char) : Decidable (IsMark m c) :=
  inferInstanceAs (Decidable (_ ∧ _ ∧ _))

/-- A mark between two texts separates their tokens. -/
theorem lex_append_mark (s t : String) {m : String} (hm : IsMark m c) :
    lex (s ++ m ++ t) = lex s ++ (markToken c ++ lex t) := by
  obtain ⟨hm, hc, hne⟩ := hm
  have hlist : (m ++ t).toList = c :: t.toList := by
    rw [String.toList_append, hm]
    rfl
  rw [String.append_assoc, lex_append (by rw [hlist]; exact breaks_cons hc hne)]
  unfold lex
  rw [hlist, lexFrom_cons_mark hc hne]
  rfl

/-- Characters of words in a row are one word. -/
theorem lexFrom_word (hcs : ∀ c ∈ cs, isWordChar c) : lexFrom w cs = wordToken (w ++ cs) := by
  induction cs generalizing w with
  | nil => rw [List.append_nil, lexFrom]
  | cons c cs ih =>
    obtain ⟨hc, hcs⟩ := List.forall_mem_cons.1 hcs
    rw [lexFrom.eq_3, if_pos hc, ih hcs, List.append_assoc, List.singleton_append]
    rintro cs' rfl -
    exact absurd hc (by decide)

/-- A number is one token, and read as itself. -/
theorem lex_count (count : Nat) : lex (toString count) = [.number count] := by
  have hdigits : ∀ c ∈ (toString count).toList, c.isDigit := by
    intro c hc
    rw [show (toString count).toList = Nat.toDigits 10 count from Nat.toList_repr] at hc
    exact Nat.isDigit_of_mem_toDigits (by omega) (by omega) hc
  have hword : ∀ c ∈ (toString count).toList, isWordChar c := by
    intro c hc
    simp [isWordChar, Char.isAlphanum, hdigits c hc]
  have hvalue : Nat.ofDigitChars 10 (toString count).toList 0 = count := by
    rw [show (toString count).toList = Nat.toDigits 10 count from Nat.toList_repr]
    exact Nat.ofDigitChars_toDigits (by omega) (by omega)
  unfold lex
  rw [lexFrom_word hword, List.nil_append, wordToken, if_neg (by simp),
    if_pos (List.all_eq_true.2 hdigits), hvalue]

/-- Builtin types are spelled as they are named. -/
theorem lex_builtin (kind : Builtin) : lex kind.spelling = builtinTokens kind := by
  cases kind <;> decide +kernel

/-- An operator behind a spelling is one more token, as there is a space before it. -/
theorem lex_append_operator (s : String) (op : Operator) :
    lex (s ++ op.text) = lex s ++ [op.token] := by
  have hspace : Breaks op.text.toList := by
    cases op <;> exact breaks_cons (c := ' ') (by decide) (by decide)
  have htext : lex op.text = [op.token] := by
    cases op <;> decide +kernel
  rw [lex_append hspace, htext]

theorem lex_append_bound (s : String) (count : Nat) :
    lex (s ++ "[" ++ toString count ++ "]") = lex s ++ boundTokens count := by
  have hclose := lex_append_mark (s ++ "[" ++ toString count) "" (m := "]") (c := ']') (by decide)
  rw [String.append_empty] at hclose
  rw [hclose, lex_append_mark s _ (c := '[') (by decide), lex_count, List.append_assoc]
  rfl

/-- A comma and a space between two arguments are one token. -/
theorem lex_append_comma (s t : String) : lex (s ++ ", " ++ t) = lex s ++ .mark ',' :: lex t := by
  rw [show ", " = "," ++ " " from rfl, ← String.append_assoc, lex_append_mark _ _ (c := ' ') (by decide)]
  have hcomma := lex_append_mark s "" (m := ",") (c := ',') (by decide)
  rw [String.append_empty] at hcomma
  rw [hcomma, List.append_assoc]
  rfl

/-- A negative number is a sign and a number. -/
theorem lex_value (v : Int) : lex (toString v) = valueTokens v := by
  cases v with
  | ofNat n => exact lex_count n
  | negSucc n =>
    have hminus := lex_append_mark "" (toString (n + 1)) (m := "-") (c := '-') (by decide)
    rw [lex_count] at hminus
    exact hminus

end Lex

end ForeignDecl.Cpp
