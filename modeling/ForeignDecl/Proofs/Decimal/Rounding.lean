import Mathlib.Algebra.Order.Field.Power
import Mathlib.Tactic.FieldSimp
import Mathlib.Tactic.Linarith
import Mathlib.Tactic.Positivity
import Mathlib.Tactic.Ring
import ForeignDecl.Decimal.Shortest
import ForeignDecl.Proofs.Decimal.Value

/-!
# Shortest decimals are read back

A reader of decimals takes the double that is nearest to the number it reads, and of two that are equally
near the even one (`BinaryFloat.IsReadFrom`; there is never more than one such double). Doubles keep their
distance, so around each there is an interval of numbers that are read as it. The search for the shortest
decimal of a double looks in that interval and finds something there, at the latest on the grid that every
double is on.
-/

set_option autoImplicit false

namespace ForeignDecl

namespace BinaryFloat

/-! ## Reading with the precision of doubles -/

/-- The number that a double is, without its sign. -/
def value (b : BinaryFloat) : ℚ := b.significand * 2 ^ b.exponent

/-- A number with at most 53 significant bits, none of them below those of the least double. There is no
greatest such number: a double that is too great is found out after rounding. -/
def IsPrecise (v : ℚ) : Prop := ∃ (s : Nat) (e : ℤ), s < 2 ^ 53 ∧ -1074 ≤ e ∧ v = s * 2 ^ e

/-- Whoever reads the number `q` as a double gets `b`: nothing with the precision of doubles is nearer,
and of two that are equally near `b` is the even one. That is how readers of decimals are specified,
whichever way they compute. -/
structure IsReadFrom (b : BinaryFloat) (q : ℚ) : Prop where
  nearest : ∀ v, IsPrecise v → |q - b.value| ≤ |q - v|
  even : ∀ v, IsPrecise v → v ≠ b.value → |q - v| = |q - b.value| → b.significand % 2 = 0

/-- A double in its normal form: as many significant bits as possible, and the next smaller double is
nearer than the next greater one where the number of bits changes. Only of this form is a number one
double. -/
structure IsCanonical (b : BinaryFloat) : Prop where
  lt : b.significand < 2 ^ 53
  le_exponent : -1074 ≤ b.exponent
  full : -1074 < b.exponent → 2 ^ 52 ≤ b.significand
  isBoundary : b.isBoundary ↔ b.significand = 2 ^ 52 ∧ -1074 < b.exponent

/-- What the fields of a double say is in normal form: behind an exponent that is not zero there is a
hidden bit, which is the highest one. -/
theorem isCanonical_ofFields (exponentField : Nat) {fraction : Nat} (h : fraction < 2 ^ 52) :
    (ofFields exponentField fraction).IsCanonical := by
  unfold ofFields
  split
  · exact ⟨by dsimp only; omega, le_refl _, fun h => absurd h (by simp), by simp⟩
  · refine ⟨?_, ?_, fun _ => ?_, ?_⟩
    · change 2 ^ 52 + fraction < 2 ^ 53; omega
    · dsimp only; omega
    · change 2 ^ 52 ≤ 2 ^ 52 + fraction; omega
    · change (decide (fraction = 0) && decide (1 < exponentField)) = true ↔ 2 ^ 52 + fraction = 2 ^ 52 ∧ _
      simp
      omega

/-- The distance to the next smaller double. At a power of two the doubles below are twice as dense as
those above. -/
def gapBelow (b : BinaryFloat) : ℚ := 2 ^ (if b.isBoundary then b.exponent - 1 else b.exponent)

/-- Doubles below are not farther apart than those above. -/
theorem gapBelow_le (b : BinaryFloat) : b.gapBelow ≤ 2 ^ b.exponent := by
  unfold gapBelow
  refine zpow_le_zpow_right₀ (by norm_num) ?_
  split <;> omega

/-- A number with no smaller exponent is a multiple of the last place. -/
theorem spacing_of_le (b : BinaryFloat) {s : Nat} {e : ℤ} (he : b.exponent ≤ e) :
    (b.value < s * 2 ^ e → b.value + 2 ^ b.exponent ≤ s * 2 ^ e) ∧
      ((s : ℚ) * 2 ^ e < b.value → (s : ℚ) * 2 ^ e ≤ b.value - 2 ^ b.exponent) := by
  obtain ⟨k, rfl⟩ := Int.le.dest he
  have hpos : (0 : ℚ) < 2 ^ b.exponent := by positivity
  have hmultiple : (s : ℚ) * 2 ^ (b.exponent + k) = (s * 2 ^ k : Nat) * 2 ^ b.exponent := by
    rw [zpow_add₀ (by norm_num), zpow_natCast]
    push_cast
    ring
  rw [hmultiple, value, mul_lt_mul_iff_of_pos_right hpos, mul_lt_mul_iff_of_pos_right hpos]
  generalize s * 2 ^ k = n
  constructor
  · intro hlt
    have hstep : (b.significand : ℚ) + 1 ≤ n := by exact_mod_cast (Nat.cast_lt.1 hlt : _ < n)
    calc (b.significand : ℚ) * 2 ^ b.exponent + 2 ^ b.exponent
        = (b.significand + 1) * 2 ^ b.exponent := by ring
      _ ≤ n * 2 ^ b.exponent := mul_le_mul_of_nonneg_right hstep hpos.le
  · intro hlt
    have hstep : (n : ℚ) ≤ b.significand - 1 := by
      have : (n : ℚ) + 1 ≤ b.significand := by exact_mod_cast (Nat.cast_lt.1 hlt : n < _)
      linarith
    calc (n : ℚ) * 2 ^ b.exponent ≤ (b.significand - 1) * 2 ^ b.exponent :=
          mul_le_mul_of_nonneg_right hstep hpos.le
      _ = b.significand * 2 ^ b.exponent - 2 ^ b.exponent := by ring

/-- A number with a smaller exponent is below, since a double of a greater exponent has all its bits. -/
theorem IsCanonical.spacing_of_lt {b : BinaryFloat} (h : b.IsCanonical) {s : Nat} {e : ℤ}
    (hs : s < 2 ^ 53) (hmin : -1074 ≤ e) (he : e < b.exponent) :
    (s : ℚ) * 2 ^ e ≤ b.value - b.gapBelow := by
  have hlast : (2 : ℚ) ^ b.exponent = 2 * 2 ^ (b.exponent - 1) := by
    rw [← zpow_one_add₀ (by norm_num)]
    congr 1
    omega
  have hpos : (0 : ℚ) < 2 ^ (b.exponent - 1) := by positivity
  have hpow : (2 : ℚ) ^ e ≤ 2 ^ (b.exponent - 1) := zpow_le_zpow_right₀ (by norm_num) (by omega)
  have hbits : (s : ℚ) ≤ 2 ^ 53 - 1 := by
    have : (s : ℚ) + 1 ≤ 2 ^ 53 := by exact_mod_cast hs
    linarith
  have hle : (s : ℚ) * 2 ^ e ≤ (2 ^ 53 - 1) * 2 ^ (b.exponent - 1) :=
    mul_le_mul hbits hpow (by positivity) (by norm_num)
  refine hle.trans ?_
  have hfull := h.full (by omega)
  unfold gapBelow value
  split
  · next hboundary =>
    have hbits : (2 : ℚ) ^ 52 ≤ b.significand := by exact_mod_cast hfull
    rw [hlast]
    nlinarith
  · next hboundary =>
    have hmore : 2 ^ 52 + 1 ≤ b.significand := by
      have hne : b.significand ≠ 2 ^ 52 := fun heq => hboundary (h.isBoundary.2 ⟨heq, by omega⟩)
      omega
    have hbits : (2 : ℚ) ^ 52 + 1 ≤ b.significand := by exact_mod_cast hmore
    rw [hlast]
    nlinarith

/-- **Doubles keep their distance**: the next greater one is a unit of the last place away, and the next
smaller one as much or half of that. -/
theorem IsCanonical.spacing {b : BinaryFloat} (h : b.IsCanonical) {v : ℚ} (hv : IsPrecise v) :
    (b.value < v → b.value + 2 ^ b.exponent ≤ v) ∧ (v < b.value → v ≤ b.value - b.gapBelow) := by
  obtain ⟨s, e, hs, hmin, rfl⟩ := hv
  rcases le_or_gt b.exponent e with he | he
  · obtain ⟨habove, hbelow⟩ := b.spacing_of_le (s := s) he
    exact ⟨habove, fun hlt => (hbelow hlt).trans (by linarith [b.gapBelow_le])⟩
  · have hle := h.spacing_of_lt hs hmin he
    have hgap : 0 < b.gapBelow := by unfold gapBelow; positivity
    exact ⟨fun hlt => by linarith, fun _ => hle⟩

/-- The numbers that are nearer to a double than to any other, and those halfway if it is even. It is an
interval, and so it can be searched. -/
structure IsNear (b : BinaryFloat) (q : ℚ) : Prop where
  low : b.value - b.gapBelow / 2 ≤ q
  high : q ≤ b.value + 2 ^ b.exponent / 2
  low_ne : b.significand % 2 ≠ 0 → b.value - b.gapBelow / 2 ≠ q
  high_ne : b.significand % 2 ≠ 0 → q ≠ b.value + 2 ^ b.exponent / 2

/-- **What is near a double is read as it.** -/
theorem IsCanonical.isReadFrom {b : BinaryFloat} (h : b.IsCanonical) {q : ℚ} (hq : b.IsNear q) :
    b.IsReadFrom q := by
  have hlow := hq.low
  have hhigh := hq.high
  have habove : ∀ v, IsPrecise v → b.value < v →
      |q - b.value| ≤ |q - v| ∧ (|q - v| = |q - b.value| → q = b.value + 2 ^ b.exponent / 2) := by
    intro v hv hlt
    have hgap := (h.spacing hv).1 hlt
    rw [abs_sub_comm q v, abs_of_nonneg (by linarith : 0 ≤ v - q)]
    refine ⟨abs_le.2 ⟨by linarith, by linarith⟩, fun heq => ?_⟩
    rcases abs_choice (q - b.value) with hside | hside <;> rw [hside] at heq <;> linarith
  have hbelow : ∀ v, IsPrecise v → v < b.value →
      |q - b.value| ≤ |q - v| ∧ (|q - v| = |q - b.value| → b.value - b.gapBelow / 2 = q) := by
    intro v hv hlt
    have hgap := (h.spacing hv).2 hlt
    rw [abs_of_nonneg (by linarith : 0 ≤ q - v)]
    refine ⟨abs_le.2 ⟨by linarith, by linarith⟩, fun heq => ?_⟩
    rcases abs_choice (q - b.value) with hside | hside <;> rw [hside] at heq <;> linarith
  refine ⟨fun v hv => ?_, fun v hv hne heq => ?_⟩
  · rcases lt_trichotomy v b.value with hlt | rfl | hlt
    · exact (hbelow v hv hlt).1
    · exact le_refl _
    · exact (habove v hv hlt).1
  · by_contra hodd
    rcases lt_or_gt_of_ne hne with hlt | hlt
    · exact hq.low_ne hodd ((hbelow v hv hlt).2 heq)
    · exact hq.high_ne hodd ((habove v hv hlt).2 heq)

/-- Of two ways to write a number, one with as many bits as possible has no greater exponent. So there
is one way with as many bits as possible. -/
theorem exponent_le_of_full {s s' : Nat} {e e' : ℤ} (hs : s < 2 ^ 53) (he : -1074 ≤ e)
    (hfull : -1074 < e' → 2 ^ 52 ≤ s') (heq : (s : ℚ) * 2 ^ e = s' * 2 ^ e') : e' ≤ e := by
  by_contra hlt
  have hmore : (2 : ℚ) ^ 52 ≤ s' := by exact_mod_cast hfull (by omega)
  have hless : (s : ℚ) < 2 ^ 53 := by exact_mod_cast hs
  have hpow : (2 : ℚ) ^ (e + 1) ≤ 2 ^ e' := zpow_le_zpow_right₀ (by norm_num) (by omega)
  have hstep : (2 : ℚ) ^ (e + 1) = 2 ^ e * 2 := zpow_add_one₀ two_ne_zero e
  have hpos : (0 : ℚ) < 2 ^ e := by positivity
  have hle : (2 : ℚ) ^ 52 * 2 ^ (e + 1) ≤ s' * 2 ^ e' :=
    mul_le_mul hmore hpow (by positivity) (by positivity)
  have hlt : (s : ℚ) * 2 ^ e < 2 ^ 53 * 2 ^ e := mul_lt_mul_of_pos_right hless hpos
  rw [hstep] at hle
  linarith

/-- A number has one normal form. -/
theorem IsCanonical.eq_of_value {b : BinaryFloat} (h : b.IsCanonical) {s : Nat} {e : ℤ} (hs : s < 2 ^ 53)
    (he : -1074 ≤ e) (hfull : -1074 < e → 2 ^ 52 ≤ s) (heq : b.value = s * 2 ^ e) :
    b.significand = s ∧ b.exponent = e := by
  have hexponent : b.exponent = e :=
    le_antisymm (exponent_le_of_full hs he h.full heq.symm)
      (exponent_le_of_full h.lt h.le_exponent hfull heq)
  refine ⟨?_, hexponent⟩
  rw [value, hexponent] at heq
  exact_mod_cast mul_right_cancel₀ (by positivity) heq

/-- The next greater double, which has an exponent more if the bits are used up. -/
theorem IsCanonical.isPrecise_next {b : BinaryFloat} (h : b.IsCanonical) :
    IsPrecise (b.value + 2 ^ b.exponent) := by
  have hlt := h.lt
  have hle := h.le_exponent
  by_cases hlast : b.significand + 1 < 2 ^ 53
  · refine ⟨b.significand + 1, b.exponent, hlast, hle, ?_⟩
    rw [value]
    push_cast
    ring
  · refine ⟨2 ^ 52, b.exponent + 1, by norm_num, by omega, ?_⟩
    have hall : b.significand = 2 ^ 53 - 1 := by omega
    rw [value, hall, zpow_add_one₀ two_ne_zero]
    push_cast
    ring

/-- A number is not read as two doubles of which one is less: they would be neighbours with the number
halfway between them, and of two neighbours one is odd. -/
theorem IsCanonical.not_isReadFrom_of_lt {b b' : BinaryFloat} (h : b.IsCanonical) (h' : b'.IsCanonical)
    {q : ℚ} (hq : b.IsReadFrom q) (hq' : b'.IsReadFrom q) : ¬ b.value < b'.value := by
  intro hlt
  have hprecise : IsPrecise b.value := ⟨_, _, h.lt, h.le_exponent, rfl⟩
  have hprecise' : IsPrecise b'.value := ⟨_, _, h'.lt, h'.le_exponent, rfl⟩
  have hsame : |q - b.value| = |q - b'.value| :=
    le_antisymm (hq.nearest _ hprecise') (hq'.nearest _ hprecise)
  have hhalf : q - b.value = b'.value - q := by
    rcases abs_eq_abs.1 hsame with heq | heq <;> linarith
  have heven := hq.even _ hprecise' hlt.ne' hsame.symm
  have heven' := hq'.even _ hprecise hlt.ne hsame
  have hnext : b'.value = b.value + 2 ^ b.exponent := by
    have hle := (h.spacing hprecise').1 hlt
    have hnear := hq.nearest _ h.isPrecise_next
    have hpos : (0 : ℚ) < 2 ^ b.exponent := by positivity
    rw [abs_of_nonneg (by linarith : 0 ≤ q - b.value)] at hnear
    rcases abs_choice (q - (b.value + 2 ^ b.exponent)) with hside | hside <;>
      rw [hside] at hnear <;> linarith
  have hlast := h.lt
  have hsignificand := (h'.eq_of_value (s := b.significand + 1) (by omega) h.le_exponent
    (fun hmin => (h.full hmin).trans (Nat.le_succ _)) (by rw [hnext, value]; push_cast; ring)).1
  omega

/-- **A number is read as one double.** -/
theorem IsCanonical.eq_of_isReadFrom {b b' : BinaryFloat} (h : b.IsCanonical) (h' : b'.IsCanonical)
    {q : ℚ} (hq : b.IsReadFrom q) (hq' : b'.IsReadFrom q) : b = b' := by
  have hvalue : b.value = b'.value :=
    le_antisymm (not_lt.1 (h'.not_isReadFrom_of_lt h hq' hq)) (not_lt.1 (h.not_isReadFrom_of_lt h' hq hq'))
  obtain ⟨hsignificand, hexponent⟩ := h.eq_of_value h'.lt h'.le_exponent h'.full hvalue
  have hboundary : b.isBoundary = b'.isBoundary := by
    rw [Bool.eq_iff_iff, h.isBoundary, h'.isBoundary, hsignificand, hexponent]
  obtain ⟨s, e, boundary⟩ := b
  obtain ⟨s', e', boundary'⟩ := b'
  cases hsignificand
  cases hexponent
  cases hboundary
  rfl

end BinaryFloat

/-! ## The search -/

namespace RoundingInterval

variable {r : RoundingInterval}

/-- The number is in the interval, in the unit that makes the ends whole numbers. The ends belong to it
if it is closed. -/
structure Holds (r : RoundingInterval) (q : ℚ) : Prop where
  low : r.low ≤ q * r.unit
  high : q * r.unit ≤ r.high
  low_ne : r.isClosed = false → (r.low : ℚ) ≠ q * r.unit
  high_ne : r.isClosed = false → q * r.unit ≠ r.high

/-- What is found on a grid was tested. -/
theorem contains_of_nearestMultiple? {step n : Nat} (h : r.nearestMultiple? step = some n) :
    r.contains (n * step) := by
  unfold nearestMultiple? at h
  dsimp only at h
  split at h
  · next hbelow habove =>
    cases h
    split
    · exact hbelow
    · exact habove
  · next hbelow _ =>
    cases h
    exact hbelow
  · next _ habove =>
    cases h
    exact habove
  · cases h

/-- The test is made in whole numbers, which may be scaled to another unit. Scaling by a positive number
changes no comparison. -/
theorem holds_of_contains {r' : RoundingInterval} {n : Nat} {q : ℚ} (scale : ℚ) (hscale : 0 < scale)
    (hlow : (r'.low : ℚ) = r.low * scale) (hhigh : (r'.high : ℚ) = r.high * scale)
    (hclosed : r'.isClosed = r.isClosed) (hn : (n : ℚ) = q * r.unit * scale) (h : r'.contains n) :
    r.Holds q := by
  have hle : ∀ {a b : ℚ}, a * scale ≤ b * scale → a ≤ b := fun h => le_of_mul_le_mul_right h hscale
  have hlt : ∀ {a b : ℚ}, a * scale < b * scale → a < b := fun h => lt_of_mul_lt_mul_right h hscale.le
  unfold contains at h
  split at h
  · next hends =>
    rw [Bool.and_eq_true, decide_eq_true_eq, decide_eq_true_eq] at h
    have hfrom : (r'.low : ℚ) ≤ n := by exact_mod_cast h.1
    have hto : (n : ℚ) ≤ r'.high := by exact_mod_cast h.2
    rw [hn, hlow] at hfrom
    rw [hn, hhigh] at hto
    rw [hclosed] at hends
    exact ⟨hle hfrom, hle hto, by simp [hends], by simp [hends]⟩
  · rw [Bool.and_eq_true, decide_eq_true_eq, decide_eq_true_eq] at h
    have hfrom : (r'.low : ℚ) < n := by exact_mod_cast h.1
    have hto : (n : ℚ) < r'.high := by exact_mod_cast h.2
    rw [hn, hlow] at hfrom
    rw [hn, hhigh] at hto
    exact ⟨(hlt hfrom).le, (hlt hto).le, fun _ => (hlt hfrom).ne, fun _ => (hlt hto).ne⟩

/-- **What the search finds on a grid is in the interval.** -/
theorem holds_of_gridPoint? {e : ℤ} {n : Nat} (h : r.gridPoint? e = some n) :
    r.Holds (Decimal.value ⟨n, e⟩) := by
  cases e with
  | ofNat e =>
    refine holds_of_contains 1 one_pos (by simp) (by simp) rfl ?_ (contains_of_nearestMultiple? h)
    simp only [Decimal.value, Nat.pow_eq, Int.ofNat_eq_natCast, zpow_natCast]
    push_cast
    ring
  | negSucc e =>
    have hscale : (0 : ℚ) < 10 ^ (e + 1) := by positivity
    have hcontains : (r.scaleUp (e + 1)).contains (n * r.unit) := contains_of_nearestMultiple? h
    refine holds_of_contains (10 ^ (e + 1)) hscale ?_ ?_ ?_ ?_ hcontains
    · simp [scaleUp]
    · simp [scaleUp]
    · rfl
    · simp only [Decimal.value, zpow_negSucc]
      push_cast
      field_simp

/-- The search finds the first grid with a point, if there is one in reach. Grids that it passes over do
not matter. -/
theorem exists_firstPointWithin {fuel : Nat} {exponent : ℤ}
    (h : ∃ i < fuel, (r.gridPoint? (exponent - i)).isSome) :
    ∃ n e, r.firstPointWithin fuel exponent = ⟨n, e⟩ ∧ r.gridPoint? e = some n := by
  induction fuel generalizing exponent with
  | zero =>
    obtain ⟨i, hi, _⟩ := h
    omega
  | succ fuel ih =>
    unfold firstPointWithin
    split
    · next n hn => exact ⟨n, exponent, rfl, hn⟩
    · next hnone =>
      obtain ⟨i, hi, hpoint⟩ := h
      cases i with
      | zero => simp [hnone] at hpoint
      | succ i => exact ih ⟨i, by omega, by rwa [Nat.cast_succ, ← sub_sub, sub_right_comm] at hpoint⟩

/-- A grid that the value is on has a point in the interval. -/
theorem isSome_nearestMultiple? {step : Nat} (hstep : step ∣ r.value) (h : r.contains r.value) :
    (r.nearestMultiple? step).isSome := by
  unfold nearestMultiple?
  dsimp only
  rw [Nat.div_mul_cancel hstep, h]
  split <;> simp_all

variable {b : BinaryFloat}

theorem contains_of_lt {n : Nat} (hlow : r.low < n) (hhigh : n < r.high) : r.contains n := by
  unfold contains
  split <;> simp [hlow, hlow.le, hhigh, hhigh.le]

/-- The double itself is in its interval, in any unit. -/
theorem contains_value_scaleUp (hpos : 0 < b.significand) (places : Nat) :
    ((ofBinary b).scaleUp places).contains ((ofBinary b).scaleUp places).value := by
  have hup : 0 < Nat.pow 2 (b.exponent - 2).toNat := Nat.pow_pos (by decide)
  have hfactor : 0 < Nat.pow 10 places := Nat.pow_pos (by decide)
  have hlow : (4 * b.significand - if b.isBoundary then 1 else 2) < 4 * b.significand := by
    split <;> omega
  exact contains_of_lt
    (Nat.mul_lt_mul_of_pos_right (Nat.mul_lt_mul_of_pos_right hlow hup) hfactor)
    (Nat.mul_lt_mul_of_pos_right (Nat.mul_lt_mul_of_pos_right (by omega) hup) hfactor)

/-- With as many decimal places as its exponent asks for, a double is a multiple of the unit: a power of
two divides the same power of ten. -/
theorem unit_dvd_value_scaleUp {places : Nat} (h : -(places : ℤ) ≤ b.exponent) :
    (ofBinary b).unit ∣ ((ofBinary b).scaleUp places).value := by
  have hunit : (ofBinary b).unit ∣ 2 ^ (places + 2) :=
    Nat.pow_dvd_pow 2 (by omega : (-(b.exponent - 2)).toNat ≤ places + 2)
  have hten : 2 ^ (places + 2) * 5 ^ places = 4 * 10 ^ places := by
    rw [pow_add, mul_right_comm, ← mul_pow, mul_comm]
    norm_num
  have hvalue : ((ofBinary b).scaleUp places).value =
      4 * 10 ^ places * (b.significand * Nat.pow 2 (b.exponent - 2).toNat) := by
    simp only [scaleUp, ofBinary, Nat.pow_eq]
    ring
  rw [hvalue, ← hten, mul_assoc]
  exact hunit.trans (Nat.dvd_mul_right _ _)

/-- Every double is on the finest grid of the search, which has as many places as the least double has.
-/
theorem isSome_gridPoint?_finest (h : b.IsCanonical) (hpos : 0 < b.significand) :
    ((ofBinary b).gridPoint? (-1074)).isSome :=
  isSome_nearestMultiple? (unit_dvd_value_scaleUp h.le_exponent) (contains_value_scaleUp hpos 1074)

/-- **The search succeeds**: the shortest decimal of a double is in its interval. The search has fuel
for every grid down to the finest one. -/
theorem holds_shortest (h : b.IsCanonical) (hpos : 0 < b.significand) :
    (ofBinary b).Holds (ofBinary b).shortest.value := by
  have hpoint : ∃ i < 1384, ((ofBinary b).gridPoint? ((309 : ℤ) - (i : Nat))).isSome :=
    ⟨1383, by omega, isSome_gridPoint?_finest h hpos⟩
  obtain ⟨n, e, heq, hpoint⟩ := exists_firstPointWithin hpoint
  rw [shortest, heq]
  exact holds_of_gridPoint? hpoint

theorem two_pow_toNat (x : ℤ) : (2 : ℚ) ^ x.toNat = 2 ^ x * 2 ^ (-x).toNat := by
  rw [← zpow_natCast, ← zpow_natCast, ← zpow_add₀ two_ne_zero]
  congr 1
  omega

/-- The interval is what is near the double. Its ends are kept as whole numbers, four times as fine as
the last place. -/
theorem isNear_of_holds {q : ℚ} (hpos : 0 < b.significand) (h : (ofBinary b).Holds q) : b.IsNear q := by
  have hplace : (2 : ℚ) ^ b.exponent = 4 * 2 ^ (b.exponent - 2) := by
    rw [show (4 : ℚ) = 2 ^ (2 : ℤ) by norm_num, ← zpow_add₀ two_ne_zero]
    congr 1
    omega
  have hhalf : (2 : ℚ) ^ (b.exponent - 1) = 2 * 2 ^ (b.exponent - 2) := by
    rw [← zpow_one_add₀ two_ne_zero]
    congr 1
    omega
  have hunit : (0 : ℚ) < (ofBinary b).unit := by
    simp only [ofBinary, Nat.pow_eq]
    positivity
  have hup : ((Nat.pow 2 (b.exponent - 2).toNat : Nat) : ℚ) =
      2 ^ (b.exponent - 2) * (ofBinary b).unit := by
    simpa [ofBinary] using two_pow_toNat (b.exponent - 2)
  -- Both ends of the interval, in the unit that makes them whole numbers.
  have hlow : ((ofBinary b).low : ℚ) = (b.value - b.gapBelow / 2) * (ofBinary b).unit := by
    have hcast : (ofBinary b).low =
        (4 * b.significand - if b.isBoundary then 1 else 2) * Nat.pow 2 (b.exponent - 2).toNat := rfl
    rw [hcast, Nat.cast_mul, hup, Nat.cast_sub (by split <;> omega)]
    unfold BinaryFloat.value BinaryFloat.gapBelow
    split
    · rw [hplace, hhalf]
      push_cast
      ring
    · rw [hplace]
      push_cast
      ring
  have hhigh : ((ofBinary b).high : ℚ) = (b.value + 2 ^ b.exponent / 2) * (ofBinary b).unit := by
    have hcast : (ofBinary b).high =
        (4 * b.significand + 2) * Nat.pow 2 (b.exponent - 2).toNat := rfl
    rw [hcast, Nat.cast_mul, hup, BinaryFloat.value, hplace]
    push_cast
    ring
  have hopen : b.significand % 2 ≠ 0 → (ofBinary b).isClosed = false := fun hodd => by
    simp [ofBinary, hodd]
  have hfrom := h.low
  have hto := h.high
  rw [hlow] at hfrom
  rw [hhigh] at hto
  exact {
    low := le_of_mul_le_mul_right hfrom hunit
    high := le_of_mul_le_mul_right hto hunit
    low_ne := fun hodd heq => h.low_ne (hopen hodd) (by rw [hlow, heq])
    high_ne := fun hodd heq => h.high_ne (hopen hodd) (by rw [hhigh, heq]) }

end RoundingInterval

/-- **The shortest decimal of a double is read back as the double.** -/
theorem BinaryFloat.IsCanonical.isReadFrom_shortest {b : BinaryFloat} (h : b.IsCanonical)
    (hpos : 0 < b.significand) : b.IsReadFrom (RoundingInterval.ofBinary b).shortest.value :=
  h.isReadFrom (RoundingInterval.isNear_of_holds hpos (RoundingInterval.holds_shortest h hpos))

end ForeignDecl
