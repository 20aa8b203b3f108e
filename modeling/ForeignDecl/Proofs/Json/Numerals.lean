import ForeignDecl.Proofs.Json.Reading

/-!
# Numerals of the standard

The numbers of the library's own are in positional notation (`IsNumber`). A caller who makes entries
may give any number of the standard as the value of a variable, also one with an exponent: this is
`IsNumeral`, and such a number is read to its end like the others (`reads_numeral`).
-/

set_option autoImplicit false

namespace ForeignDecl.Json

/-- Nothing, or an `e` with digits behind it, which may have a sign of either kind. -/
def IsExponent (cs : List Char) : Prop :=
  cs = [] ∨ ∃ e sign ds, cs = e :: (sign ++ ds) ∧ (e = 'e' ∨ e = 'E') ∧
    (sign = [] ∨ sign = ['+'] ∨ sign = ['-']) ∧ ds ≠ [] ∧ ∀ d ∈ ds, d.isDigit

/-- A number of the standard. It is what a document asks of the value of a variable that is not quoted,
whoever made the entry. -/
def IsNumeral (text : String) : Prop :=
  ∃ sign whole fraction exponent, text.toList = sign ++ (whole ++ (fraction ++ exponent)) ∧
    (sign = [] ∨ sign = ['-']) ∧ IsWhole whole ∧ IsFraction fraction ∧ IsExponent exponent

theorem exponentSign_append {sign ds : List Char} (hsign : sign = [] ∨ sign = ['+'] ∨ sign = ['-'])
    (hne : ds ≠ []) (hds : ∀ d ∈ ds, d.isDigit) (rest : List Char) :
    exponentSign (sign ++ (ds ++ rest)) = (sign, ds ++ rest) := by
  rcases hsign with rfl | rfl | rfl
  · cases ds with
    | nil => exact absurd rfl hne
    | cons d ds =>
      -- Digits are not taken for a sign.
      have hd : d.isDigit := hds d (by simp)
      rw [List.nil_append, List.cons_append, exponentSign.eq_3]
      · rintro tail heq
        obtain rfl := (List.cons.inj heq).1
        exact absurd hd (by decide)
      · rintro tail heq
        obtain rfl := (List.cons.inj heq).1
        exact absurd hd (by decide)
  · rfl
  · rfl

/-- An exponent is read to its end, also if there is none. -/
theorem exponent?_append {cs rest : List Char} (hcs : IsExponent cs) (hrest : EndsNumber rest) :
    exponent? (cs ++ rest) = some (cs, rest) := by
  rcases hcs with rfl | ⟨e, sign, ds, rfl, he, hsign, hne, hds⟩
  · exact exponent?_of_endsNumber hrest
  · have hread := exponentSign_append hsign hne hds rest
    have hdigits := digits?_append hne hds fun c hc => (hrest c hc).1
    simp [exponent?, he, hread, hdigits]

/-- An exponent goes on neither the digits nor the fraction before it. -/
theorem IsExponent.head?_append {cs rest : List Char} (hcs : IsExponent cs)
    (hrest : EndsNumber rest) : ∀ c ∈ (cs ++ rest).head?, c.isDigit = false ∧ c ≠ '.' := by
  rcases hcs with rfl | ⟨e, sign, ds, rfl, he, -, -, -⟩
  · exact fun c hc => ⟨(hrest c hc).1, (hrest c hc).2.1⟩
  · intro c hc
    obtain rfl : e = c := by simpa using hc
    rcases he with rfl | rfl <;> decide

/-- **The text of a numeral is read to its end**, and no further. -/
theorem number?_append_numeral {text : String} (h : IsNumeral text) {rest : List Char}
    (hrest : EndsNumber rest) :
    number? (text.toList ++ rest) = some (text.toList, rest) := by
  obtain ⟨sign, whole, fraction, exponent, htext, hsign, hwhole, hfraction, hexponent⟩ := h
  have hbehind := hexponent.head?_append hrest
  have hread := whole?_append hwhole (hfraction.head?_append fun c hc => (hbehind c hc).1)
  have hpoint := fraction?_append hfraction hbehind
  have hpower := exponent?_append hexponent hrest
  have hmagnitude : magnitude? (whole ++ (fraction ++ (exponent ++ rest))) =
      some (whole ++ (fraction ++ exponent), rest) := by
    simp [magnitude?, hread, hpoint, hpower]
  rcases hsign with rfl | rfl
  · obtain ⟨c, cs, hhead, hc⟩ := hwhole.head
    rw [htext]
    simp only [List.nil_append, List.append_assoc]
    rw [hhead, List.cons_append] at hmagnitude ⊢
    rw [number?.eq_2]
    · exact hmagnitude
    · intro tail heq
      obtain rfl := (List.cons.inj heq).1
      exact absurd hc (by decide)
  · simp [htext, number?, hmagnitude]

/-- A numeral begins with a digit or its sign, so it is not taken for another value. -/
theorem IsNumeral.head {text : String} (h : IsNumeral text) :
    ∃ c cs, text.toList = c :: cs ∧ (c.isDigit ∨ c = '-') := by
  obtain ⟨sign, whole, fraction, exponent, htext, hsign, hwhole, -, -⟩ := h
  rcases hsign with rfl | rfl
  · obtain ⟨c, cs, hhead, hc⟩ := hwhole.head
    exact ⟨c, cs ++ (fraction ++ exponent), by simp [htext, hhead], .inl hc⟩
  · exact ⟨'-', whole ++ (fraction ++ exponent), by simp [htext], .inr rfl⟩

/-- **The text of a numeral is read back**, like that of any other value. -/
theorem reads_numeral {text : String} (h : IsNumeral text) : Reads (.number text) :=
  reads_of_number? h.head fun _ => number?_append_numeral h

end ForeignDecl.Json
