import Mathlib.Tactic.SplitIfs
import ForeignDecl.Text.Quoted

/-!
# Quoted text is read back

Whatever a text is made of, reading what `encode` writes gives the text again and stops at the closing
quotation mark. The argument goes character by character: `char?_escape` reads one escape back, and no
escape begins with a quotation mark, so the reader does not stop too early.
-/

set_option autoImplicit false

namespace ForeignDecl.Text.Quoted

theorem hexValue?_hexDigit {n : Nat} (h : n < 16) : hexValue? (hexDigit n) = some n := by
  have hall : ∀ i : Fin 16, hexValue? (hexDigit i.val) = some i.val := by decide
  exact hall ⟨n, h⟩

/-- A control character is read back from its four digits. It is no surrogate, so no second escape is
looked for. -/
theorem codePoint?_control {c : Char} (h : c.toNat < 0x20) (rest : List Char) :
    codePoint? ('0' :: '0' :: hexDigit (c.toNat / 16) :: hexDigit (c.toNat % 16) :: rest) =
      some (c, rest) := by
  have hhigh : hexValue? (hexDigit (c.toNat / 16)) = some (c.toNat / 16) :=
    hexValue?_hexDigit (by omega)
  have hlow : hexValue? (hexDigit (c.toNat % 16)) = some (c.toNat % 16) :=
    hexValue?_hexDigit (by omega)
  have hzero : hexValue? '0' = some 0 := by decide
  have hvalue : ((0 * 16 + 0) * 16 + c.toNat / 16) * 16 + c.toNat % 16 = c.toNat := by omega
  have hfour : hexFour? ('0' :: '0' :: hexDigit (c.toNat / 16) :: hexDigit (c.toNat % 16) :: rest) =
      some (c.toNat, rest) := by
    simp only [hexFour?, hzero, hhigh, hlow, Option.bind_eq_bind, Option.bind_some, hvalue]
  have hnotLow : isLowSurrogate c.toNat = false := by
    simp only [isLowSurrogate, Bool.and_eq_false_iff, decide_eq_false_iff_not]
    omega
  have hnotHigh : isHighSurrogate c.toNat = false := by
    simp only [isHighSurrogate, Bool.and_eq_false_iff, decide_eq_false_iff_not]
    omega
  simp [codePoint?, hfour, hnotLow, hnotHigh]

/-- **One character is read back from its escape**, whichever of the three kinds of escape that is: a
letter, four digits or the character itself. -/
theorem char?_escape (c : Char) (rest : List Char) : char? (escape c ++ rest) = some (c, rest) := by
  unfold escape
  split_ifs with hquote hback hbell hfeed hline hreturn htab hcontrol
  · rw [hquote]
    rfl
  · rw [hback]
    rfl
  · rw [hbell]
    rfl
  · rw [hfeed]
    rfl
  · rw [hline]
    rfl
  · rw [hreturn]
    rfl
  · rw [htab]
    rfl
  · exact codePoint?_control hcontrol rest
  · simp [char?, hquote, hcontrol]

/-- No escape looks like the end of the text. A quotation mark in the text is written with a backslash
in front. -/
theorem escape_ne_quote (c : Char) : ∃ a as, escape c = a :: as ∧ a ≠ '"' := by
  unfold escape
  split_ifs with hquote
  all_goals first
    | exact ⟨_, _, rfl, by decide⟩
    | exact ⟨_, _, rfl, hquote⟩

/-- Every character takes one unit of fuel, however long its escape is. -/
theorem charsWithin?_flatMap_escape (cs : List Char) :
    ∀ (fuel : Nat) (rest : List Char), cs.length ≤ fuel →
      charsWithin? fuel (cs.flatMap escape ++ '"' :: rest) = some (cs, rest) := by
  induction cs with
  | nil =>
    intro fuel rest _
    cases fuel <;> rfl
  | cons c cs ih =>
    intro fuel rest hfuel
    obtain ⟨fuel, rfl⟩ : ∃ n, fuel = n + 1 := ⟨fuel - 1, by simp at hfuel; omega⟩
    obtain ⟨a, as, hescape, hquote⟩ := escape_ne_quote c
    have hchar := char?_escape c (cs.flatMap escape ++ '"' :: rest)
    have hrest := ih fuel rest (by simpa using hfuel)
    rw [hescape, List.cons_append] at hchar
    rw [List.flatMap_cons, List.append_assoc, hescape, List.cons_append, charsWithin?.eq_3, hchar]
    · simp [hrest]
    · intro tail heq
      exact hquote (List.cons.inj heq).1

/-- An escape is at least one character, so the length of what is read is fuel enough. -/
theorem length_le_length_flatMap_escape (cs : List Char) :
    cs.length ≤ (cs.flatMap escape).length := by
  induction cs with
  | nil => simp
  | cons c cs ih =>
    obtain ⟨a, as, hescape, _⟩ := escape_ne_quote c
    simp only [List.flatMap_cons, List.length_append, hescape, List.length_cons]
    omega

/-- **A quoted text is read back**, and what follows it is left. -/
theorem chars?_flatMap_escape (cs rest : List Char) :
    chars? (cs.flatMap escape ++ '"' :: rest) = some (cs, rest) := by
  refine charsWithin?_flatMap_escape cs _ rest ?_
  have := length_le_length_flatMap_escape cs
  simp only [List.length_append, List.length_cons]
  omega

theorem toList_encode (s : String) : (encode s).toList = '"' :: (s.toList.flatMap escape ++ ['"']) := by
  simp [encode]

end ForeignDecl.Text.Quoted
