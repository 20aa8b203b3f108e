import Mathlib.Data.List.Infix
import ForeignDecl.Macro.Literal

/-!
# The grammar of numeric literals

`Literal.type?` goes by letters: it cuts the trailing ones off, counts them, and looks for a point or an
exponent letter anywhere. The language goes by a grammar. Here the grammar is written down, as what
literals are put together from, and on the literals of the grammar the two agree (`type?_of_grammar`):
the letters that digits, exponents and suffixes share never mislead the count.

Everything is about spellings without separators and in lower case, which is what `normalize` leaves.
-/

set_option autoImplicit false

namespace ForeignDecl.Literal

/-- To decide something about the characters of a list it takes only these, and not all that there are. -/
instance decidableForallChar {cs : List Char} {p : Char → Prop} [DecidablePred p] :
    Decidable (∀ c ∈ cs, p c) :=
  List.decidableBAll p cs

/-! ## The grammar -/

/-- The digits of a radix, as a list, so that what holds of all digits can be decided. It is the same as
`Radix.isDigit` (`isDigit_iff`). -/
def Radix.digits : Radix → List Char
  | binary => ['0', '1']
  | decimal => ['0', '1', '2', '3', '4', '5', '6', '7', '8', '9']
  | hexadecimal =>
    ['0', '1', '2', '3', '4', '5', '6', '7', '8', '9', 'a', 'b', 'c', 'd', 'e', 'f']

/-- What stands in front of the digits. -/
def Radix.mark : Radix → List Char
  | binary => ['0', 'b']
  | decimal => []
  | hexadecimal => ['0', 'x']

/-- One or more digits. Every literal has some, so that a suffix alone is none. -/
def IsDigits (r : Radix) (s : List Char) : Prop := s ≠ [] ∧ ∀ c ∈ s, c ∈ r.digits

/-- Digits with a point in front of them, between them or behind them. Either side may be missing, as in
`.5` and `1.`, but not both. -/
def IsFraction (r : Radix) (s : List Char) : Prop :=
  ∃ whole part, s = whole ++ '.' :: part ∧ IsDigits r (whole ++ part)

/-- The exponent letter, and decimal digits behind it, which may have a sign. They are decimal in
hexadecimal literals too. -/
def IsExponent (letter : Char) (s : List Char) : Prop :=
  ∃ sign ds, s = letter :: (sign ++ ds) ∧ sign ∈ [[], ['+'], ['-']] ∧ IsDigits .decimal ds

/-- The suffixes of integer literals, in lower case. A `u` and the letters of a size come in any order,
and the two letters of `ll` stand together. -/
def integerSuffixes : List (List Char) :=
  [[], ['u'], ['l'], ['u', 'l'], ['l', 'u'], ['l', 'l'], ['u', 'l', 'l'], ['l', 'l', 'u'], ['z'],
    ['u', 'z'], ['z', 'u']]

/-- The suffixes of floating literals, in lower case. -/
def floatingSuffixes : List (List Char) := [[], ['f'], ['l']]

/-- An integer literal with this suffix. An octal one is put together like a decimal one, from a zero
and other digits. -/
def IsIntegerLiteral (suffix s : List Char) : Prop :=
  ∃ (r : Radix) (ds : List Char), s = r.mark ++ (ds ++ suffix) ∧ IsDigits r ds ∧
    suffix ∈ integerSuffixes

/-- A floating literal. A decimal one has a point or an exponent; a hexadecimal one may have a point and
has an exponent. -/
inductive IsFloatingLiteral : List Char → Prop where
  | point {mantissa suffix : List Char} (hmantissa : IsFraction .decimal mantissa)
    (hsuffix : suffix ∈ floatingSuffixes) : IsFloatingLiteral (mantissa ++ suffix)
  | exponent {mantissa exponent suffix : List Char}
    (hmantissa : IsDigits .decimal mantissa ∨ IsFraction .decimal mantissa)
    (hexponent : IsExponent 'e' exponent) (hsuffix : suffix ∈ floatingSuffixes) :
    IsFloatingLiteral (mantissa ++ exponent ++ suffix)
  | hexadecimal {mantissa exponent suffix : List Char}
    (hmantissa : IsDigits .hexadecimal mantissa ∨ IsFraction .hexadecimal mantissa)
    (hexponent : IsExponent 'p' exponent) (hsuffix : suffix ∈ floatingSuffixes) :
    IsFloatingLiteral ('0' :: 'x' :: (mantissa ++ exponent ++ suffix))

/-- The type that an integer suffix asks for. A single `l` makes no difference, and neither does a `z`.
-/
def suffixType (suffix : List Char) : ConstantType :=
  if 'u' ∈ suffix then
    if ['l', 'l'] <:+: suffix then .unsignedLongLong else .unsigned
  else
    if ['l', 'l'] <:+: suffix then .longLong else .int

/-- The radix of a spelling, by the mark that it starts with. It is the radix that `splitRadix` finds
(`splitRadix_eq`), which says nothing about the digits behind the mark. -/
def radixOf (s : List Char) : Radix :=
  if Radix.hexadecimal.mark <+: s then .hexadecimal
  else if Radix.binary.mark <+: s then .binary
  else .decimal

/-- There is neither a point nor an exponent letter of the radix, so nothing suggests a floating
literal. Only of such spellings is it claimed that they are refused when they are not literals. -/
def IsPlain (s : List Char) : Prop :=
  '.' ∉ s ∧ ∀ letter, (radixOf s).exponentLetter? = some letter → letter ∉ s

/-! ## Digits -/

variable {r : Radix} {c : Char} {s ds suffix : List Char}

/-- The test of the library and the list of digits agree. Letters and decimal digits are intervals of
code points. -/
theorem isDigit_iff (r : Radix) (c : Char) : r.isDigit c ↔ c ∈ r.digits := by
  have heq : ∀ d : Char, c = d ↔ c.toNat = d.toNat := fun d => Char.toNat_inj.symm
  have hdecimal : c.isDigit ↔ 48 ≤ c.toNat ∧ c.toNat ≤ 57 := by
    simp only [Char.isDigit, Bool.and_eq_true, decide_eq_true_eq, ge_iff_le, UInt32.le_iff_toNat_le]
    exact Iff.rfl
  have hletter : 'a' ≤ c ∧ c ≤ 'f' ↔ 97 ≤ c.toNat ∧ c.toNat ≤ 102 := by
    simp only [Char.le_def, UInt32.le_iff_toNat_le]
    exact Iff.rfl
  cases r with
  | binary => simp [Radix.isDigit, Radix.digits]
  | decimal =>
    simp only [Radix.isDigit, Radix.digits, hdecimal, List.mem_cons, List.not_mem_nil, or_false, heq,
      Char.reduceToNat]
    omega
  | hexadecimal =>
    simp only [Radix.isDigit, Radix.digits, Bool.or_eq_true, hdecimal, Bool.and_eq_true,
      decide_eq_true_eq, hletter, List.mem_cons, List.not_mem_nil, or_false, heq, Char.reduceToNat]
    omega

theorem isDigit_iff_decimal (c : Char) : c.isDigit ↔ c ∈ Radix.decimal.digits :=
  isDigit_iff .decimal c

/-- Every digit is one of a hexadecimal number, so what no hexadecimal digit is, no digit is. -/
theorem mem_hexadecimal_of_mem (h : c ∈ r.digits) : c ∈ Radix.hexadecimal.digits := by
  have hall : ∀ d ∈ r.digits, d ∈ Radix.hexadecimal.digits := by
    cases r <;> decide
  exact hall c h

/-- There is nothing in a fraction but digits and its point. -/
theorem mem_digits_of_isFraction (h : IsFraction r s) (hc : c ∈ s) : c ∈ r.digits ∨ c = '.' := by
  obtain ⟨whole, part, rfl, -, hdigits⟩ := h
  rcases List.mem_append.1 hc with hc | hc
  · exact .inl (hdigits c (List.mem_append_left _ hc))
  · rcases List.mem_cons.1 hc with rfl | hc
    · exact .inr rfl
    · exact .inl (hdigits c (List.mem_append_right _ hc))

/-! ## Cutting off a suffix -/

/-- Letters behind something that does not end in such a letter are cut off, all of them and nothing
else. That is where a suffix begins. -/
theorem splitTail_append {p : Char → Bool} (hsuffix : ∀ c ∈ suffix, p c)
    (hs : ∀ c, s.getLast? = some c → p c = false) : splitTail p (s ++ suffix) = (s, suffix) := by
  have hrev : ∀ c ∈ suffix.reverse, p c := fun c hc => hsuffix c (List.mem_reverse.1 hc)
  have hhead : ∀ c, s.reverse.head? = some c → p c = false := by
    intro c hc
    exact hs c (List.head?_reverse ▸ hc)
  have hstop : s.reverse.dropWhile p = s.reverse ∧ s.reverse.takeWhile p = [] := by
    cases hrest : s.reverse with
    | nil => exact ⟨rfl, rfl⟩
    | cons c cs =>
      have hc : p c = false := hhead c (by rw [hrest]; rfl)
      exact ⟨List.dropWhile_cons_of_neg (by simp [hc]), List.takeWhile_cons_of_neg (by simp [hc])⟩
  unfold splitTail
  rw [List.reverse_append, List.dropWhile_append_of_pos hrev, List.takeWhile_append_of_pos hrev,
    hstop.1, hstop.2]
  simp

theorem splitTail_fst_append_snd (p : Char → Bool) (s : List Char) :
    (splitTail p s).1 ++ (splitTail p s).2 = s := by
  unfold splitTail
  rw [← List.reverse_append, List.takeWhile_append_dropWhile, List.reverse_reverse]

theorem of_mem_splitTail_snd {p : Char → Bool} (h : c ∈ (splitTail p s).2) : p c := by
  unfold splitTail at h
  have hall := List.all_takeWhile (l := s.reverse) (p := p)
  exact List.all_eq_true.1 hall c (List.mem_reverse.1 h)

/-! ## Integer literals -/

/-- The letters of integer suffixes. -/
def suffixLetters : List Char := ['u', 'l', 'z']

theorem mem_suffixLetters_of_mem (h : suffix ∈ integerSuffixes) (hc : c ∈ suffix) :
    c ∈ suffixLetters := by
  have hall : ∀ s ∈ integerSuffixes, ∀ d ∈ s, d ∈ suffixLetters := by decide
  exact hall suffix h c hc

theorem length_eq_count (h : ∀ c ∈ s, c ∈ suffixLetters) :
    s.length = s.count 'u' + s.count 'l' + s.count 'z' := by
  induction s with
  | nil => rfl
  | cons c s ih =>
    obtain ⟨hc, hs⟩ := List.forall_mem_cons.1 h
    have hrest := ih hs
    simp only [suffixLetters, List.mem_cons, List.not_mem_nil, or_false] at hc
    rcases hc with rfl | rfl | rfl
    · simp [hrest]
      omega
    · simp [hrest]
      omega
    · simp [hrest]
      omega

/-- Counting the letters finds the suffixes of the language. None of them is longer than three letters,
and a longer word has too many of one letter. -/
theorem suffixType?_eq (h : ∀ c ∈ suffix, c ∈ suffixLetters) :
    suffixType? suffix = if suffix ∈ integerSuffixes then some (suffixType suffix) else none := by
  have hlength := length_eq_count h
  match suffix with
  | [] => rfl
  | [a] =>
    have hone : ∀ a ∈ suffixLetters, suffixType? [a] =
        if [a] ∈ integerSuffixes then some (suffixType [a]) else none := by decide
    exact hone a (h a (by simp))
  | [a, b] =>
    have htwo : ∀ a ∈ suffixLetters, ∀ b ∈ suffixLetters, suffixType? [a, b] =
        if [a, b] ∈ integerSuffixes then some (suffixType [a, b]) else none := by decide
    exact htwo a (h a (by simp)) b (h b (by simp))
  | [a, b, c] =>
    have hthree : ∀ a ∈ suffixLetters, ∀ b ∈ suffixLetters, ∀ c ∈ suffixLetters,
        suffixType? [a, b, c] =
          if [a, b, c] ∈ integerSuffixes then some (suffixType [a, b, c]) else none := by decide
    exact hthree a (h a (by simp)) b (h b (by simp)) c (h c (by simp))
  | a :: b :: c :: d :: rest =>
    have hnot : a :: b :: c :: d :: rest ∉ integerSuffixes := by
      have hbound : ∀ s ∈ integerSuffixes, s.length ≤ 3 := by decide
      intro hmem
      have hle := hbound _ hmem
      simp only [List.length_cons] at hle
      omega
    have hmany : suffixType? (a :: b :: c :: d :: rest) = none := by
      unfold suffixType?
      simp only [List.length_cons] at hlength
      exact if_pos (by omega)
    rw [hmany, if_neg hnot]

/-- The digits and the suffix of an integer literal are told apart, and the suffix is understood. -/
theorem integerType?_append (hds : IsDigits r ds) (hsuffix : suffix ∈ integerSuffixes) :
    integerType? r (ds ++ suffix) = some (suffixType suffix) := by
  have hletters : ∀ c ∈ suffix, c ∈ suffixLetters := fun c => mem_suffixLetters_of_mem hsuffix
  -- No suffix letter is a digit of any radix.
  have hcut : ∀ c ∈ Radix.hexadecimal.digits, (c = 'u' || c = 'l' || c = 'z') = false := by decide
  have hsplit : splitTail (fun c => c = 'u' || c = 'l' || c = 'z') (ds ++ suffix) = (ds, suffix) := by
    apply splitTail_append
    · intro c hc
      simpa [suffixLetters, or_assoc] using hletters c hc
    · intro c hc
      exact hcut c (mem_hexadecimal_of_mem (hds.2 c (List.mem_of_getLast? hc)))
  have hall : ds.all r.isDigit := List.all_eq_true.2 fun c hc => (isDigit_iff r c).2 (hds.2 c hc)
  have hne : ds.isEmpty = false := List.isEmpty_eq_false_iff.2 hds.1
  unfold integerType?
  rw [hsplit]
  simp [hall, hne, suffixType?_eq hletters, hsuffix]

/-- Whatever passes for an integer literal is one. This is the direction that the refusal of everything
else rests on. -/
theorem exists_of_integerType? {type : ConstantType} (h : integerType? r s = some type) :
    ∃ ds suffix, s = ds ++ suffix ∧ IsDigits r ds ∧ suffix ∈ integerSuffixes := by
  unfold integerType? at h
  have happend := splitTail_fst_append_snd (fun c => c = 'u' || c = 'l' || c = 'z') s
  have htail := fun c => of_mem_splitTail_snd (c := c) (s := s)
    (p := fun c => c = 'u' || c = 'l' || c = 'z')
  generalize splitTail (fun c => c = 'u' || c = 'l' || c = 'z') s = parts at h happend htail
  obtain ⟨ds, suffix⟩ := parts
  dsimp only at h happend htail
  split at h
  · next hdigits =>
    obtain ⟨hne, hall⟩ := hdigits
    have hletters : ∀ c ∈ suffix, c ∈ suffixLetters := by
      intro c hc
      simpa [suffixLetters, or_assoc] using htail c hc
    rw [suffixType?_eq hletters] at h
    split at h
    · next hsuffix =>
      refine ⟨ds, suffix, happend.symm, ⟨by simpa using hne, fun c hc => ?_⟩, hsuffix⟩
      exact (isDigit_iff r c).1 (List.all_eq_true.1 hall c hc)
    · cases h
  · cases h

/-! ## Floating literals -/

/-- What may stand anywhere in a mantissa may stand in front of anything. -/
theorem isFloatingBody_append {t : List Char} (hs : ∀ c ∈ s, c ∈ r.digits ∨ c = '.')
    (ht : ∀ previous?, isFloatingBody r previous? t) (previous? : Option Char) :
    isFloatingBody r previous? (s ++ t) := by
  induction s generalizing previous? with
  | nil => exact ht previous?
  | cons c s ih =>
    obtain ⟨hc, hs⟩ := List.forall_mem_cons.1 hs
    have hrest := ih hs (some c)
    have hallowed : r.isDigit c ∨ c = '.' := hc.imp_left (isDigit_iff r c).2
    rw [List.cons_append, isFloatingBody, hrest]
    rcases hallowed with hdigit | rfl
    · simp [hdigit]
    · simp

theorem isFloatingBody_mantissa (hs : ∀ c ∈ s, c ∈ r.digits ∨ c = '.') (previous? : Option Char) :
    isFloatingBody r previous? s := by
  simpa using isFloatingBody_append hs (t := []) (fun _ => rfl) previous?

/-- An exponent may stand anywhere: its sign, if it has one, is behind its letter. -/
theorem isFloatingBody_exponent {letter : Char} (hletter : r.exponentLetter? = some letter)
    (hs : IsExponent letter s) (previous? : Option Char) : isFloatingBody r previous? s := by
  obtain ⟨sign, ds, rfl, hsign, -, hds⟩ := hs
  have hdigits : ∀ c ∈ ds, c ∈ r.digits ∨ c = '.' := by
    intro c hc
    have hall : ∀ d ∈ Radix.decimal.digits, r.exponentLetter? ≠ none → d ∈ r.digits := by
      cases r <;> decide
    exact .inl (hall c (hds c hc) (by simp [hletter]))
  have hbehind := isFloatingBody_mantissa hdigits
  have hintroduces : letter = 'e' ∨ letter = 'p' := by
    cases r <;> simp [Radix.exponentLetter?] at hletter <;> simp [← hletter]
  simp only [List.mem_cons, List.not_mem_nil, or_false] at hsign
  rcases hsign with rfl | rfl | rfl
  · simp [isFloatingBody, hletter, hbehind]
  · rcases hintroduces with rfl | rfl
    · simp [isFloatingBody, hletter, hbehind]
    · simp [isFloatingBody, hletter, hbehind]
  · rcases hintroduces with rfl | rfl
    · simp [isFloatingBody, hletter, hbehind]
    · simp [isFloatingBody, hletter, hbehind]

/-- A body with a decimal digit in it is a floating literal, with any suffix. It must not end in a
letter of a suffix, which would be cut off with it. -/
theorem floatingType?_append (hsuffix : suffix ∈ floatingSuffixes) (hbody : isFloatingBody r none s)
    (hdigit : ∃ c ∈ s, c ∈ Radix.decimal.digits)
    (hlast : ∀ c, s.getLast? = some c → c ∈ Radix.decimal.digits ∨ c = '.') :
    floatingType? r (s ++ suffix) = some .float := by
  have hshort : ∀ t ∈ floatingSuffixes, t.length ≤ 1 ∧ ∀ c ∈ t, c = 'f' ∨ c = 'l' := by decide
  obtain ⟨hlength, hletters⟩ := hshort suffix hsuffix
  have hcut : ∀ c ∈ Radix.decimal.digits, (c = 'f' || c = 'l') = false := by decide
  have hsplit : splitTail (fun c => c = 'f' || c = 'l') (s ++ suffix) = (s, suffix) := by
    apply splitTail_append
    · intro c hc
      simpa using hletters c hc
    · intro c hc
      rcases hlast c hc with hmem | rfl
      · exact hcut c hmem
      · rfl
  have hany : s.any Char.isDigit := by
    obtain ⟨c, hc, hmem⟩ := hdigit
    exact List.any_eq_true.2 ⟨c, hc, (isDigit_iff_decimal c).2 hmem⟩
  unfold floatingType?
  rw [hsplit]
  simp [hlength, hbody, hany]

/-- An exponent ends with a decimal digit, and so it is set apart from the suffix. Its digits are
decimal in a hexadecimal literal too, where an `f` would be a digit. -/
theorem getLast?_exponent {letter : Char} {mantissa exponent : List Char}
    (h : IsExponent letter exponent) :
    ∀ c, (mantissa ++ exponent).getLast? = some c → c ∈ Radix.decimal.digits := by
  obtain ⟨sign, ds, rfl, -, hne, hds⟩ := h
  intro c hc
  have hlast : (mantissa ++ letter :: (sign ++ ds)).getLast? = ds.getLast? := by
    cases ds with
    | nil => exact absurd rfl hne
    | cons d ds =>
      rw [show mantissa ++ letter :: (sign ++ d :: ds) = (mantissa ++ letter :: sign) ++ d :: ds by simp,
        List.getLast?_append_cons]
  exact hds c (List.mem_of_getLast? (hlast ▸ hc))

/-! ## The radix -/

theorem splitRadix_of_not_mem (hx : 'x' ∉ s) (hb : 'b' ∉ s) : splitRadix s = (.decimal, s) := by
  unfold splitRadix
  split
  · simp at hx
  · simp at hb
  · rfl

/-- The spelling is its mark and what is behind it, whatever that is. -/
theorem splitRadix_eq (s : List Char) :
    s = (splitRadix s).1.mark ++ (splitRadix s).2 ∧ (splitRadix s).1 = radixOf s := by
  unfold splitRadix radixOf
  split
  · simp [Radix.mark]
  · simp [Radix.mark]
  · next hx hb =>
    have hnotx : ¬ Radix.hexadecimal.mark <+: s := by
      rintro ⟨rest, rfl⟩
      exact hx rest rfl
    have hnotb : ¬ Radix.binary.mark <+: s := by
      rintro ⟨rest, rfl⟩
      exact hb rest rfl
    rw [if_neg hnotx, if_neg hnotb]
    exact ⟨rfl, rfl⟩

/-- What is in front of the digits does not say anything else than their radix: a decimal literal has no
letter of a mark, even in its suffix. -/
theorem splitRadix_mark (hds : IsDigits r ds) (hsuffix : suffix ∈ integerSuffixes) :
    splitRadix (r.mark ++ (ds ++ suffix)) = (r, ds ++ suffix) := by
  cases r with
  | binary => rfl
  | hexadecimal => rfl
  | decimal =>
    have hchars : ∀ c ∈ ds ++ suffix, c ∈ Radix.decimal.digits ++ suffixLetters := by
      intro c hc
      rcases List.mem_append.1 hc with hc | hc
      · exact List.mem_append_left _ (hds.2 c hc)
      · exact List.mem_append_right _ (mem_suffixLetters_of_mem hsuffix hc)
    exact splitRadix_of_not_mem (fun hx => absurd (hchars _ hx) (by decide))
      fun hb => absurd (hchars _ hb) (by decide)

/-! ## Both together -/

variable {spelling : String}

/-- **Integer literals have the type of their suffix.** None of their characters suggests a floating
literal. In a hexadecimal one `e` is a digit, and there the exponent letter is `p`. -/
theorem type?_of_isIntegerLiteral (h : IsIntegerLiteral suffix (normalize spelling)) :
    type? spelling = some (suffixType suffix) := by
  obtain ⟨r, ds, hs, hds, hsuffix⟩ := h
  have hplain : isFloating r (ds ++ suffix) = false := by
    have hchars : ∀ c ∈ ds ++ suffix, c ∈ r.digits ++ suffixLetters := by
      intro c hc
      rcases List.mem_append.1 hc with hc | hc
      · exact List.mem_append_left _ (hds.2 c hc)
      · exact List.mem_append_right _ (mem_suffixLetters_of_mem hsuffix hc)
    have hnone : ∀ letter, r.exponentLetter? = some letter →
        ∀ c ∈ r.digits ++ suffixLetters, (c = '.' || c = letter) = false := by
      intro letter hletter
      cases r <;> cases hletter <;> decide
    unfold isFloating
    split
    · next letter hletter =>
      exact List.any_eq_false.2 fun c hc => by simp [hnone letter hletter c (hchars c hc)]
    · rfl
  unfold type?
  rw [hs, splitRadix_mark hds hsuffix]
  simp [hplain, integerType?_append hds hsuffix]

/-- What is left to show of a floating literal: where its radix mark ends, that there is a point or an
exponent in it, and that its last character is not one of the suffix. -/
theorem type?_of_body {letter : Char} {body : List Char}
    (hsplit : splitRadix (normalize spelling) = (r, body ++ suffix))
    (hletter : r.exponentLetter? = some letter) (hmark : ∃ c ∈ body, c = '.' ∨ c = letter)
    (hsuffix : suffix ∈ floatingSuffixes) (hbody : isFloatingBody r none body)
    (hdigit : ∃ c ∈ body, c ∈ Radix.decimal.digits)
    (hlast : ∀ c, body.getLast? = some c → c ∈ Radix.decimal.digits ∨ c = '.') :
    type? spelling = some .float := by
  have hfloating : isFloating r (body ++ suffix) := by
    obtain ⟨c, hc, hmark⟩ := hmark
    unfold isFloating
    rw [hletter]
    exact List.any_eq_true.2 ⟨c, List.mem_append_left _ hc, by simpa using hmark⟩
  unfold type?
  rw [hsplit]
  simp [hfloating, floatingType?_append hsuffix hbody hdigit hlast]

/-- A mantissa has a digit, and nothing else but a point. Both kinds of mantissa are treated alike from
here on. -/
theorem mantissa_chars {mantissa : List Char} (h : IsDigits r mantissa ∨ IsFraction r mantissa) :
    (∃ c ∈ mantissa, c ∈ r.digits) ∧ ∀ c ∈ mantissa, c ∈ r.digits ∨ c = '.' := by
  rcases h with ⟨hne, hdigits⟩ | hfraction
  · obtain ⟨c, hc⟩ := List.exists_mem_of_ne_nil _ hne
    exact ⟨⟨c, hc, hdigits c hc⟩, fun c hc => .inl (hdigits c hc)⟩
  · refine ⟨?_, fun c hc => mem_digits_of_isFraction hfraction hc⟩
    obtain ⟨whole, part, rfl, hne, hdigits⟩ := hfraction
    obtain ⟨c, hc⟩ := List.exists_mem_of_ne_nil _ hne
    refine ⟨c, ?_, hdigits c hc⟩
    rcases List.mem_append.1 hc with hc | hc
    · simp [hc]
    · simp [hc]

theorem mem_of_isExponent {letter : Char} (h : IsExponent letter s) (hc : c ∈ s) :
    c ∈ letter :: '+' :: '-' :: Radix.decimal.digits := by
  obtain ⟨sign, ds, rfl, hsign, -, hds⟩ := h
  have hsigns : ∀ t ∈ [[], ['+'], ['-']], ∀ d ∈ t, d = '+' ∨ d = '-' := by decide
  rcases List.mem_cons.1 hc with rfl | hc
  · simp
  · rcases List.mem_append.1 hc with hc | hc
    · rcases hsigns sign hsign c hc with rfl | rfl
      · simp
      · simp
    · simp [hds c hc]

/-- Without a mark in front, the digits are decimal ones: no decimal literal has the letters of a mark.
The suffixes do not have them either. -/
theorem splitRadix_decimal (h : ∀ c ∈ s, c ∈ '.' :: 'e' :: '+' :: '-' :: Radix.decimal.digits)
    (hsuffix : suffix ∈ floatingSuffixes) : splitRadix (s ++ suffix) = (.decimal, s ++ suffix) := by
  have hletters : ∀ t ∈ floatingSuffixes, 'x' ∉ t ∧ 'b' ∉ t := by decide
  obtain ⟨hx, hb⟩ := hletters suffix hsuffix
  apply splitRadix_of_not_mem
  · intro hmem
    rcases List.mem_append.1 hmem with hmem | hmem
    · exact absurd (h _ hmem) (by decide)
    · exact hx hmem
  · intro hmem
    rcases List.mem_append.1 hmem with hmem | hmem
    · exact absurd (h _ hmem) (by decide)
    · exact hb hmem

/-- **Floating literals have the floating type.** One case for each way to put one together; they differ
in where the decimal digit is and in what the body ends with. -/
theorem type?_of_isFloatingLiteral (h : IsFloatingLiteral (normalize spelling)) :
    type? spelling = some .float := by
  generalize hs : normalize spelling = s at h
  cases h with
  | @point mantissa suffix hmantissa hsuffix =>
    obtain ⟨⟨d, hd, hdigit⟩, hchars⟩ := mantissa_chars (.inr hmantissa)
    have hsplit : splitRadix (mantissa ++ suffix) = (.decimal, mantissa ++ suffix) := by
      refine splitRadix_decimal (fun c hc => ?_) hsuffix
      rcases hchars c hc with hc | rfl
      · simp [hc]
      · simp
    have hpoint : '.' ∈ mantissa := by
      obtain ⟨whole, part, rfl, -⟩ := hmantissa
      simp
    exact type?_of_body (hs ▸ hsplit) rfl ⟨'.', hpoint, .inl rfl⟩ hsuffix
      (isFloatingBody_mantissa hchars none) ⟨d, hd, hdigit⟩
      fun c hc => hchars c (List.mem_of_getLast? hc)
  | @exponent mantissa exponent suffix hmantissa hexponent hsuffix =>
    obtain ⟨⟨d, hd, hdigit⟩, hchars⟩ := mantissa_chars hmantissa
    have hsplit : splitRadix (mantissa ++ exponent ++ suffix) =
        (.decimal, mantissa ++ exponent ++ suffix) := by
      refine splitRadix_decimal (fun c hc => ?_) hsuffix
      rcases List.mem_append.1 hc with hc | hc
      · rcases hchars c hc with hc | rfl
        · simp [hc]
        · simp
      · exact List.mem_cons_of_mem _ (mem_of_isExponent hexponent hc)
    have hletter : 'e' ∈ mantissa ++ exponent := by
      obtain ⟨sign, ds, rfl, -⟩ := hexponent
      simp
    exact type?_of_body (hs ▸ hsplit) rfl ⟨'e', hletter, .inr rfl⟩ hsuffix
      (isFloatingBody_append hchars (isFloatingBody_exponent rfl hexponent) none)
      ⟨d, List.mem_append_left _ hd, hdigit⟩ fun c hc => .inl (getLast?_exponent hexponent c hc)
  | @hexadecimal mantissa exponent suffix hmantissa hexponent hsuffix =>
    obtain ⟨-, hchars⟩ := mantissa_chars hmantissa
    have hsplit : splitRadix ('0' :: 'x' :: (mantissa ++ exponent ++ suffix)) =
        (.hexadecimal, mantissa ++ exponent ++ suffix) := rfl
    -- The decimal digit that a body needs is in the exponent, since all others may be letters.
    have hdigit : 'p' ∈ mantissa ++ exponent ∧
        ∃ d ∈ mantissa ++ exponent, d ∈ Radix.decimal.digits := by
      obtain ⟨sign, ds, rfl, -, hne, hds⟩ := hexponent
      obtain ⟨d, hd⟩ := List.exists_mem_of_ne_nil _ hne
      exact ⟨by simp, d, by simp [hd], hds d hd⟩
    exact type?_of_body (hs ▸ hsplit) rfl ⟨'p', hdigit.1, .inr rfl⟩ hsuffix
      (isFloatingBody_append hchars (isFloatingBody_exponent rfl hexponent) none) hdigit.2
      fun c hc => .inl (getLast?_exponent hexponent c hc)

/-- **Whatever is plain and no integer literal is refused.** It is not taken for a floating literal, and
what passes for an integer literal is one. -/
theorem type?_of_isPlain (hplain : IsPlain (normalize spelling))
    (h : ∀ suffix, ¬ IsIntegerLiteral suffix (normalize spelling)) : type? spelling = none := by
  obtain ⟨happend, hradix⟩ := splitRadix_eq (normalize spelling)
  obtain ⟨hpoint, hletter⟩ := hplain
  unfold type?
  generalize splitRadix (normalize spelling) = parts at happend hradix
  obtain ⟨r, s⟩ := parts
  dsimp only at happend hradix ⊢
  have hfloating : isFloating r s = false := by
    have hmem : ∀ c ∈ s, c ∈ normalize spelling := by
      intro c hc
      rw [happend]
      exact List.mem_append_right _ hc
    unfold isFloating
    split
    · next letter hr =>
      refine List.any_eq_false.2 fun c hc => ?_
      have hne : c ≠ '.' := fun heq => hpoint (heq ▸ hmem c hc)
      have hne' : c ≠ letter := fun heq => hletter letter (hradix ▸ hr) (heq ▸ hmem c hc)
      simp [hne, hne']
    · rfl
  rw [if_neg (by simp [hfloating])]
  cases htype : integerType? r s with
  | none => rfl
  | some type =>
    obtain ⟨ds, suffix, hs, hds, hsuffix⟩ := exists_of_integerType? htype
    exact absurd ⟨r, ds, by rw [happend, hs], hds, hsuffix⟩ (h suffix)

/-- **Literals are told by their letters.** An integer literal has the type that its suffix asks for, a
floating literal has the floating type, and where neither a point nor an exponent letter suggests a
floating literal, everything but an integer literal is refused. -/
theorem type?_of_grammar (spelling : String) :
    (∀ suffix, IsIntegerLiteral suffix (normalize spelling) →
      type? spelling = some (suffixType suffix)) ∧
    (IsFloatingLiteral (normalize spelling) → type? spelling = some .float) ∧
    (IsPlain (normalize spelling) → (∀ suffix, ¬ IsIntegerLiteral suffix (normalize spelling)) →
      type? spelling = none) :=
  ⟨fun _ => type?_of_isIntegerLiteral, type?_of_isFloatingLiteral, type?_of_isPlain⟩

/-- A hexadecimal integer with a separator in it, a decimal with an exponent, and a suffix that
separates the two letters of `ll`. -/
theorem type?_of_grammar_mixed :
    type? "0xF'FULL" = some .unsignedLongLong ∧ type? ".8E-3L" = some .float ∧
      IsPlain (normalize "1LUL") ∧ (∀ suffix, ¬ IsIntegerLiteral suffix (normalize "1LUL")) ∧
        type? "1LUL" = none := by
  have hlong : normalize "0xF'FULL" = ['0', 'x', 'f', 'f', 'u', 'l', 'l'] := by decide +kernel
  have hfloat : normalize ".8E-3L" = ['.', '8', 'e', '-', '3', 'l'] := by decide +kernel
  have hwrong : normalize "1LUL" = ['1', 'l', 'u', 'l'] := by decide +kernel
  have hinteger : IsIntegerLiteral ['u', 'l', 'l'] (normalize "0xF'FULL") :=
    ⟨.hexadecimal, ['f', 'f'], hlong, ⟨by simp, by decide⟩, by decide⟩
  have hfloating : IsFloatingLiteral (normalize ".8E-3L") := by
    have hmantissa : IsFraction .decimal ['.', '8'] := ⟨[], ['8'], rfl, by simp, by decide⟩
    have hexponent : IsExponent 'e' ['e', '-', '3'] :=
      ⟨['-'], ['3'], rfl, by simp, by simp, by decide⟩
    rw [hfloat]
    exact .exponent (.inr hmantissa) hexponent (show ['l'] ∈ floatingSuffixes by decide)
  have hplain : IsPlain (normalize "1LUL") := by
    rw [hwrong]
    refine ⟨by decide, fun letter hletter => ?_⟩
    cases hletter
    decide
  have hnot : ∀ suffix, ¬ IsIntegerLiteral suffix (normalize "1LUL") := by
    rintro suffix ⟨r, ds, hs, ⟨hne, hds⟩, hsuffix⟩
    rw [hwrong] at hs
    -- The suffix would have to hold all three letters, and no suffix ends like that.
    have hmark : ∀ letter ∈ ['u', 'l'], letter ∉ r.mark := by
      cases r <;> decide
    have hdigit : ∀ letter ∈ ['u', 'l'], letter ∉ Radix.hexadecimal.digits := by decide
    have hbefore : ∀ letter ∈ ['u', 'l'], letter ∉ r.mark ++ ds := by
      intro letter hletter hmem
      rcases List.mem_append.1 hmem with hmem | hmem
      · exact hmark letter hletter hmem
      · exact hdigit letter hletter (mem_hexadecimal_of_mem (hds letter hmem))
    have hcount : ∀ letter ∈ ['u', 'l'], suffix.count letter = ['1', 'l', 'u', 'l'].count letter := by
      intro letter hletter
      rw [hs, ← List.append_assoc, List.count_append, List.count_eq_zero_of_not_mem
        (hbefore letter hletter), Nat.zero_add]
    have hend : suffix <:+ ['1', 'l', 'u', 'l'] := ⟨r.mark ++ ds, by rw [hs, List.append_assoc]⟩
    have hnone : ∀ t ∈ integerSuffixes, ¬ (t.count 'u' = 1 ∧ t.count 'l' = 2 ∧
        t <:+ ['1', 'l', 'u', 'l']) := by decide
    exact hnone suffix hsuffix ⟨hcount 'u' (by decide), hcount 'l' (by decide), hend⟩
  exact ⟨(type?_of_grammar _).1 _ hinteger, (type?_of_grammar _).2.1 hfloating, hplain, hnot,
    (type?_of_grammar _).2.2 hplain hnot⟩

end ForeignDecl.Literal
