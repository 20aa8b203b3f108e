import Mathlib.Algebra.Order.Field.Rat
import Mathlib.Algebra.Order.Field.Power
import ForeignDecl.Proofs.Decimal.Text

/-!
# What number texts say

`Json.numeral?` reads the text of any number of the standard as a sign and a rational magnitude. A zero
has a sign as well, for the sake of doubles. The texts of integers and of decimals are read as what they
were made of (`numeral?_int`, `Decimal.magnitudeValue?_text`).
-/

set_option autoImplicit false

namespace ForeignDecl

namespace Json

/-- A number with its sign; a zero has one too. Two doubles with one value, the zeros, differ in it. -/
structure Numeral where
  isNegative : Bool
  magnitude : ℚ

/-- The number without regard to the sign of a zero. -/
def Numeral.value (x : Numeral) : ℚ := if x.isNegative then -x.magnitude else x.magnitude

/-- The number that digits stand for, with the first one as the highest. -/
def digitsValue (ds : List Char) : Nat := Nat.ofDigitChars 10 ds 0

/-- The exponent in its text, which is a letter with the sign and the digits behind it. -/
def exponentValue (cs : List Char) : ℤ :=
  match exponentSign cs.tail with
  | (['-'], ds) => -(digitsValue ds : ℤ)
  | (_, ds) => digitsValue ds

/-- The magnitude of digits before and behind a point, scaled by a power of ten. -/
def positional (whole fraction : List Char) (exponent : ℤ) : ℚ :=
  digitsValue (whole ++ fraction) / 10 ^ fraction.length * 10 ^ exponent

/-- Read a number without a sign, to its end. The parts are found as `Json.magnitude?` finds them, so
what is read as a value is what the reader of documents takes for one number. -/
def magnitudeValue? (s : List Char) : Option ℚ := do
  let (whole, rest) ← whole? s
  let (fraction, rest) ← fraction? rest
  let (exponent, rest) ← exponent? rest
  if rest.isEmpty then some (positional whole fraction.tail (exponentValue exponent)) else none

/-- Read a number. Nothing but the number may be in the text. -/
def numeral? (text : String) : Option Numeral :=
  match text.toList with
  | '-' :: cs => (magnitudeValue? cs).map fun q => ⟨true, q⟩
  | cs => (magnitudeValue? cs).map fun q => ⟨false, q⟩

/-- A number in positional notation is read as one. -/
theorem magnitudeValue?_append {whole fraction : List Char} (hwhole : IsWhole whole)
    (hfraction : IsFraction fraction) :
    magnitudeValue? (whole ++ fraction) = some (positional whole fraction.tail 0) := by
  have hnone : ∀ c ∈ ([] : List Char).head?, c.isDigit = false ∧ c ≠ '.' := by simp
  have hread := whole?_append hwhole (hfraction.head?_append fun c hc => (hnone c hc).1)
  have hpoint := fraction?_append hfraction hnone
  rw [List.append_nil] at hread hpoint
  have hexponent : exponentValue [] = 0 := rfl
  simp [magnitudeValue?, hread, hpoint, exponent?, hexponent]

theorem magnitudeValue?_whole {whole : List Char} (hwhole : IsWhole whole) :
    magnitudeValue? whole = some (digitsValue whole : ℚ) := by
  have hread := magnitudeValue?_append hwhole (.inl rfl)
  simpa [positional] using hread

theorem numeral?_of_magnitude {text : String} {q : ℚ} (hmagnitude : IsMagnitude text.toList)
    (h : magnitudeValue? text.toList = some q) : numeral? text = some ⟨false, q⟩ := by
  obtain ⟨c, cs, htext, hc⟩ := hmagnitude.head
  unfold numeral?
  split
  · next cs' htext' =>
    obtain rfl : c = '-' := (List.cons.inj (htext.symm.trans htext')).1
    exact absurd hc (by decide)
  · simp [h]

theorem numeral?_of_negative {text : String} {cs : List Char} {q : ℚ} (htext : text.toList = '-' :: cs)
    (h : magnitudeValue? cs = some q) : numeral? text = some ⟨true, q⟩ := by
  simp [numeral?, htext, h]

/-! ## Natural numbers and integers -/

theorem digitsValue_toString (n : Nat) : digitsValue (toString n).toList = n := by
  rw [digitsValue, Nat.toString_eq_repr, Nat.toList_repr, Nat.ofDigitChars_ten_toDigits]

theorem magnitudeValue?_toString (n : Nat) : magnitudeValue? (toString n).toList = some (n : ℚ) := by
  rw [magnitudeValue?_whole (isWhole_toString n), digitsValue_toString]

theorem numeral?_nat (n : Nat) : numeral? (toString n) = some ⟨false, n⟩ :=
  numeral?_of_magnitude (isWhole_toString n).isMagnitude (magnitudeValue?_toString n)

/-- **The text of an integer says the integer.** -/
theorem numeral?_int (n : ℤ) : ∃ x, numeral? (toString n) = some x ∧ x.value = n := by
  cases n with
  | ofNat n => exact ⟨⟨false, n⟩, numeral?_nat n, by simp [Numeral.value]⟩
  | negSucc n =>
    have htext : (toString (Int.negSucc n)).toList = '-' :: (toString (n + 1)).toList := by
      change ("-" ++ toString (n + 1)).toList = _
      simp
    refine ⟨⟨true, (n + 1 : Nat)⟩, numeral?_of_negative htext (magnitudeValue?_toString (n + 1)), ?_⟩
    simp [Numeral.value, Int.negSucc_eq]

end Json

/-! ## Decimals -/

namespace Decimal

open Json

/-- The number that a decimal is. -/
def value (d : Decimal) : ℚ := d.coefficient * 10 ^ d.exponent

theorem digitsValue_zeros (n e : Nat) :
    digitsValue (toString n ++ zeros e).toList = 10 ^ e * n := by
  rw [String.toList_append, toList_zeros, digitsValue, Nat.ofDigitChars_append,
    Nat.ofDigitChars_replicate_zero]
  exact congrArg (10 ^ e * ·) (digitsValue_toString n)

/-- **The text of a decimal says the decimal.** -/
theorem magnitudeValue?_text (d : Decimal) : magnitudeValue? d.text.toList = some d.value := by
  obtain ⟨n, e⟩ := d
  unfold text value
  cases e with
  | ofNat e =>
    dsimp only
    split
    · next hzero =>
      have hread : magnitudeValue? "0".toList = some ((0 : Nat) : ℚ) := magnitudeValue?_toString 0
      rw [hread, hzero]
      simp
    · rw [magnitudeValue?_whole (isWhole_zeros (by omega) e), digitsValue_zeros]
      simp [mul_comm]
  | negSucc e =>
    obtain ⟨whole, fraction, htext, hwhole, hlength, hdigit, hvalue⟩ :=
      toList_withPoint n (Nat.succ_pos e)
    have hfraction : IsFraction ('.' :: fraction) :=
      .inr ⟨fraction, rfl, by rintro rfl; simp at hlength, hdigit⟩
    dsimp only
    rw [htext, magnitudeValue?_append hwhole hfraction, List.tail_cons, positional, digitsValue, hvalue,
      hlength, zpow_zero, mul_one, zpow_negSucc, div_eq_mul_inv]

end Decimal

end ForeignDecl
