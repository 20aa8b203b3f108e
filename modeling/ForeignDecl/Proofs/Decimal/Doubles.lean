import ForeignDecl.Proofs.Decimal.Rounding

/-!
# Texts of doubles

`Double.ofBits` takes the 64 bits of a double apart. The text of a finite one is a number that is read as
that double, with its sign even if it is zero (`Double.numeral?_text`); what is not finite has a word for
its text. That is what a document says of a variable whose initializer is a double (`doubleText_eq`).
-/

set_option autoImplicit false

namespace ForeignDecl

/-- A double, by what it says: a magnitude with a sign, or one of the values that are not finite. A zero
has a sign too. -/
inductive Double where
  | finite (isNegative : Bool) (magnitude : BinaryFloat)
  | infinite (isNegative : Bool)
  | nan

/-- What a sign is written as. -/
def signText (isNegative : Bool) : String := if isNegative then "-" else ""

theorem numeral?_signText (isNegative : Bool) {text : String} {q : ℚ} (htext : Json.IsMagnitude text.toList)
    (h : Json.magnitudeValue? text.toList = some q) :
    Json.numeral? (signText isNegative ++ text) = some ⟨isNegative, q⟩ := by
  cases isNegative with
  | false =>
    have hnone : signText false ++ text = text := by simp [signText]
    rw [hnone]
    exact Json.numeral?_of_magnitude htext h
  | true => exact Json.numeral?_of_negative (by simp [signText]) h

/-- A zero is the number whose fields are zero, as every other number with an exponent has its hidden
bit. -/
theorem BinaryFloat.significand_ofFields_eq_zero {exponentField fraction : Nat} :
    (ofFields exponentField fraction).significand = 0 ↔ exponentField = 0 ∧ fraction = 0 := by
  unfold ofFields
  split
  · next hexponent => simp [hexponent]
  · next hexponent =>
    have hpos : 0 < Nat.pow 2 52 := Nat.pow_pos (by decide)
    exact iff_of_false (by dsimp only; omega) fun h => hexponent h.1

/-- Zero is read as zero: nothing is nearer, and its last bit is even. -/
theorem BinaryFloat.isReadFrom_zero {b : BinaryFloat} (h : b.significand = 0) : b.IsReadFrom 0 where
  nearest v _ := by simp [value, h]
  even _ _ _ _ := by simp [h]

namespace Double

/-- The double with the given bits: a sign, 11 bits of exponent and 52 bits of fraction. Where all bits
of the exponent are set there is no finite number. -/
def ofBits (bits : UInt64) : Double :=
  let exponentField := bits.toNat / 2 ^ 52 % 2 ^ 11
  let fraction := bits.toNat % 2 ^ 52
  let isNegative : Bool := bits.toNat / 2 ^ 63 ≠ 0
  if exponentField = 2047 then if fraction = 0 then .infinite isNegative else .nan
  else .finite isNegative (.ofFields exponentField fraction)

/-- The text of a double. The search for a shortest decimal is for numbers that are not zero. -/
def text : Double → String
  | .finite isNegative b =>
    signText isNegative ++ if b.significand = 0 then "0" else (RoundingInterval.ofBinary b).shortest.text
  | .infinite isNegative => signText isNegative ++ "inf"
  | .nan => "NaN"

/-- The magnitude of a finite double is in its normal form, so that two doubles with one value are the
same. -/
def IsCanonical : Double → Prop
  | .finite _ b => b.IsCanonical
  | .infinite _ | .nan => True

theorem isCanonical_ofBits (bits : UInt64) : (ofBits bits).IsCanonical := by
  unfold ofBits
  dsimp only
  split_ifs
  · trivial
  · trivial
  · exact BinaryFloat.isCanonical_ofFields _ (Nat.mod_lt _ (by decide))

/-- **The text of a finite double is a number that is read as it**, and the sign is told for a zero as
well. -/
theorem numeral?_text (isNegative : Bool) {b : BinaryFloat} (h : b.IsCanonical) :
    ∃ q, Json.numeral? (Double.finite isNegative b).text = some ⟨isNegative, q⟩ ∧ b.IsReadFrom q := by
  unfold text
  dsimp only
  split
  · next hzero =>
    have hmagnitude : Json.IsMagnitude "0".toList := Json.IsWhole.isMagnitude (.inl rfl)
    exact ⟨_, numeral?_signText isNegative hmagnitude (Json.magnitudeValue?_toString 0),
      Nat.cast_zero (R := ℚ) ▸ BinaryFloat.isReadFrom_zero hzero⟩
  · next hpos =>
    exact ⟨_, numeral?_signText isNegative (Decimal.isMagnitude_text _) (Decimal.magnitudeValue?_text _),
      h.isReadFrom_shortest (Nat.pos_of_ne_zero hpos)⟩

end Double

/-- What a document says of a double is the text of the double that its bits are. -/
theorem doubleText_eq (bits : UInt64) : doubleText bits = (Double.ofBits bits).text := by
  have hsign : (if bits.toNat / 2 ^ 63 = 0 then "" else "-") =
      signText (decide (bits.toNat / 2 ^ 63 ≠ 0)) := by
    unfold signText
    split <;> simp_all
  unfold doubleText Double.ofBits
  simp only [Nat.pow_eq, hsign]
  split_ifs with hexponent hfraction hzero
  · rfl
  · rfl
  · rw [Double.text, if_pos (BinaryFloat.significand_ofFields_eq_zero.2 hzero)]
  · rw [Double.text, if_neg (mt BinaryFloat.significand_ofFields_eq_zero.1 hzero)]

end ForeignDecl
