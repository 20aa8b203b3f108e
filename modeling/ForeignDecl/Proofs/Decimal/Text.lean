import Mathlib.Tactic.SplitIfs
import ForeignDecl.Document.JsonForm
import ForeignDecl.Extract.Build
import ForeignDecl.Proofs.Json.Reading

/-!
# Numbers in documents

What the library writes without quotation marks is a number: natural numbers, integers, and decimals
in positional notation. Of a double this holds unless its text is one of the words for what is not
finite, and those are in the list of texts that get quotation marks.
-/

set_option autoImplicit false

namespace ForeignDecl

namespace Json

/-! ## Natural numbers and integers -/

/-- A number that is not zero does not begin with a zero. -/
theorem toDigits_head {n : Nat} (h : 0 < n) :
    ∃ c cs, Nat.toDigits 10 n = c :: cs ∧ c ≠ '0' := by
  induction n using Nat.strongRecOn with
  | ind n ih =>
    by_cases hn : n < 10
    · have hdigit : ∀ i : Fin 10, 0 < i.val → Nat.digitChar i.val ≠ '0' := by decide
      exact ⟨n.digitChar, [], Nat.toDigits_of_lt_base hn, hdigit ⟨n, hn⟩ h⟩
    · have hlt : n / 10 < n := by omega
      obtain ⟨c, cs, hdigits, hc⟩ := ih (n / 10) hlt (by omega)
      refine ⟨c, cs ++ [(n % 10).digitChar], ?_, hc⟩
      rw [Nat.toDigits_of_base_le (by decide) (by omega), hdigits, List.cons_append]

theorem isDigit_of_mem_toString {n : Nat} {c : Char} (h : c ∈ (toString n).toList) :
    c.isDigit := by
  rw [Nat.toString_eq_repr, Nat.toList_repr] at h
  exact Nat.isDigit_of_mem_toDigits (by decide) (by decide) h

theorem toString_head {n : Nat} (h : 0 < n) :
    ∃ c cs, (toString n).toList = c :: cs ∧ c ≠ '0' := by
  rw [Nat.toString_eq_repr, Nat.toList_repr]
  exact toDigits_head h

theorem IsWhole.isMagnitude {cs : List Char} (h : IsWhole cs) : IsMagnitude cs :=
  ⟨cs, [], by simp, h, .inl rfl⟩

/-- Natural numbers are written without needless zeros. -/
theorem isWhole_toString (n : Nat) : IsWhole (toString n).toList := by
  rcases Nat.eq_zero_or_pos n with rfl | h
  · exact .inl rfl
  · obtain ⟨c, cs, hdigits, hc⟩ := toString_head h
    exact .inr ⟨c, cs, hdigits, hc, fun _ => isDigit_of_mem_toString⟩

theorem isNumber_nat (n : Nat) : IsNumber (toString n) := .inl (isWhole_toString n).isMagnitude

/-- The text of an integer is a number, with its sign in front of it. -/
theorem isNumber_int (n : Int) : IsNumber (toString n) := by
  cases n with
  | ofNat n => exact isNumber_nat n
  | negSucc n =>
    have htext : (toString (Int.negSucc n)).toList = '-' :: (toString (n + 1)).toList := by
      change ("-" ++ toString (n + 1)).toList = _
      simp
    exact .inr ⟨_, htext, (isWhole_toString (n + 1)).isMagnitude⟩

end Json

/-! ## Decimals -/

namespace Decimal

open Json

theorem toList_zeros (n : Nat) : (zeros n).toList = List.replicate n '0' := by
  simp [zeros]

/-- Zeros may follow a whole number that is not zero. -/
theorem isWhole_zeros {n : Nat} (h : 0 < n) (e : Nat) :
    IsWhole (toString n ++ zeros e).toList := by
  obtain ⟨c, cs, hdigits, hc⟩ := toString_head h
  rw [String.toList_append, toList_zeros]
  refine .inr ⟨c, cs ++ List.replicate e '0', by rw [hdigits, List.cons_append], hc, fun d hd => ?_⟩
  rw [List.mem_append] at hd
  rcases hd with hd | hd
  · exact isDigit_of_mem_toString hd
  · obtain rfl := List.eq_of_mem_replicate hd
    decide

/-- The point is put into the digits of the number, and zeros in front of them when there are too few.
Both what the text looks like and what it says are told at once, since both depend on where the point
is. -/
theorem toList_withPoint (n : Nat) {places : Nat} (h : 0 < places) :
    ∃ whole fraction, (withPoint n places).toList = whole ++ '.' :: fraction ∧ IsWhole whole ∧
      fraction.length = places ∧ (∀ d ∈ fraction, d.isDigit) ∧
      Nat.ofDigitChars 10 (whole ++ fraction) 0 = n := by
  have hwhole := isWhole_toString n
  have hdigit : ∀ d ∈ (toString n).toList, d.isDigit := fun _ => isDigit_of_mem_toString
  have hvalue : Nat.ofDigitChars 10 (toString n).toList 0 = n := by
    rw [Nat.toString_eq_repr, Nat.toList_repr, Nat.ofDigitChars_ten_toDigits]
  unfold withPoint
  dsimp only
  generalize (toString n).toList = ds at hwhole hdigit hvalue
  split
  · refine ⟨['0'], List.replicate (places - ds.length) '0' ++ ds, by simp [toList_zeros], .inl rfl,
      by simp; omega, fun d hd => ?_, ?_⟩
    · rcases List.mem_append.1 hd with hd | hd
      · obtain rfl := List.eq_of_mem_replicate hd
        decide
      · exact hdigit d hd
    · have hzeros : ['0'] ++ List.replicate (places - ds.length) '0' =
          List.replicate (places - ds.length + 1) '0' := by simp [List.replicate_succ]
      rw [← List.append_assoc, hzeros, Nat.ofDigitChars_append, Nat.ofDigitChars_replicate_zero,
        Nat.mul_zero, hvalue]
  · next hmany =>
    rw [Nat.not_le] at hmany
    refine ⟨ds.take (ds.length - places), ds.drop (ds.length - places), by simp, ?_, by simp; omega,
      fun d hd => hdigit d (List.mem_of_mem_drop hd), by rw [List.take_append_drop, hvalue]⟩
    -- With a digit in front of the point and one behind it there are two, so this is not zero.
    obtain ⟨c, cs, rfl, hc, _⟩ : ∃ c cs, ds = c :: cs ∧ c ≠ '0' ∧ ∀ d ∈ ds, d.isDigit := by
      rcases hwhole with rfl | hwhole
      · simp at hmany
        omega
      · exact hwhole
    obtain ⟨k, hk⟩ : ∃ k, (c :: cs).length - places = k + 1 :=
      ⟨(c :: cs).length - places - 1, by omega⟩
    rw [hk]
    exact .inr ⟨c, cs.take k, rfl, hc, fun d hd => hdigit d (List.mem_of_mem_take hd)⟩

theorem isMagnitude_withPoint (n : Nat) {places : Nat} (h : 0 < places) :
    IsMagnitude (withPoint n places).toList := by
  obtain ⟨whole, fraction, htext, hwhole, hlength, hdigit, _⟩ := toList_withPoint n h
  refine ⟨whole, '.' :: fraction, htext, hwhole, .inr ⟨fraction, rfl, ?_, hdigit⟩⟩
  rintro rfl
  simp at hlength
  omega

/-- **A decimal is written as a number.** -/
theorem isMagnitude_text (d : Decimal) : IsMagnitude d.text.toList := by
  unfold text
  split
  · split
    · exact IsWhole.isMagnitude (.inl rfl)
    · exact (isWhole_zeros (by omega) _).isMagnitude
  · exact isMagnitude_withPoint _ (by omega)

end Decimal

/-! ## Constants -/

open Json

/-- **A double is written as a number, or as a text that gets quotation marks.** Which of them, its bits
decide; every case is one of the branches of `doubleText`. -/
theorem doubleText_isNumber (bits : UInt64) :
    doubleText bits ∈ nonNumericValues ∨ IsNumber (doubleText bits) := by
  unfold doubleText
  dsimp only
  generalize hs : (if bits.toNat / Nat.pow 2 63 = 0 then "" else "-") = sign
  have hsign : sign = "" ∨ sign = "-" := by
    rw [← hs]
    split
    · exact .inl rfl
    · exact .inr rfl
  have hnumber : ∀ text : String, IsMagnitude text.toList → IsNumber (sign ++ text) := by
    intro text htext
    rcases hsign with rfl | rfl
    · exact .inl (by simpa using htext)
    · exact .inr ⟨text.toList, by simp, htext⟩
  split_ifs
  · rcases hsign with rfl | rfl
    · exact .inl (by decide)
    · exact .inl (by decide)
  · exact .inl (by decide)
  · exact .inr (hnumber "0" (IsWhole.isMagnitude (.inl rfl)))
  · exact .inr (hnumber _ (Decimal.isMagnitude_text _))

/-- **A constant that is no string literal is written as a number**, or gets quotation marks. -/
theorem Constant.text_isNumber {c : Constant} {value : String} (h : c.text = (some value, false)) :
    value ∈ nonNumericValues ∨ IsNumber value := by
  cases c with
  | signed n =>
    cases h
    exact .inr (isNumber_int n)
  | unsigned n =>
    cases h
    exact .inr (isNumber_nat n)
  | double bits =>
    cases h
    exact doubleText_isNumber bits
  | string literal => simp [Constant.text] at h
  | address => cases h

end ForeignDecl
