import ForeignDecl.Json.Reader
import ForeignDecl.Proofs.Text.Quoted

/-!
# Printed values are read back

`Json.WellFormed` is what a value tree needs for its text to be JSON that nobody can misread: its
numbers are written as numbers, and no object has a key twice. The text of a well-formed value is
read back as the value (`WellFormed.reads`), whatever follows it, as long as that does not continue a
number.

A list of values is read by one lemma for every way to set them apart (`items?_continued`), because
arrays inside a document and the document itself are laid out differently.
-/

set_option autoImplicit false

namespace ForeignDecl.Json

/-! ## Numbers -/

/-- Digits of a natural number, without needless zeros in front. -/
def IsWhole (ds : List Char) : Prop :=
  ds = ['0'] ∨ ∃ c cs, ds = c :: cs ∧ c ≠ '0' ∧ ∀ d ∈ ds, d.isDigit

/-- Nothing, or a point with digits behind it. -/
def IsFraction (cs : List Char) : Prop :=
  cs = [] ∨ ∃ ds, cs = '.' :: ds ∧ ds ≠ [] ∧ ∀ d ∈ ds, d.isDigit

/-- A number in positional notation, without its sign. -/
def IsMagnitude (cs : List Char) : Prop :=
  ∃ whole fraction, cs = whole ++ fraction ∧ IsWhole whole ∧ IsFraction fraction

/-- A number in positional notation, maybe with a sign. The numbers of the library's own have no
exponent; those that have one are in `IsNumeral`. -/
def IsNumber (text : String) : Prop :=
  IsMagnitude text.toList ∨ ∃ cs, text.toList = '-' :: cs ∧ IsMagnitude cs

/-- A number ends before this text: it goes on with none of the characters that numbers have. A reader
takes as much as it can, so without this a number could be read too far. -/
def EndsNumber (rest : List Char) : Prop :=
  ∀ c ∈ rest.head?, c.isDigit = false ∧ c ≠ '.' ∧ c ≠ 'e' ∧ c ≠ 'E'

theorem EndsNumber.cons {c : Char} {rest : List Char} (hdigit : c.isDigit = false)
    (hpoint : c ≠ '.') (he : c ≠ 'e') (hE : c ≠ 'E') : EndsNumber (c :: rest) := by
  intro d hd
  obtain rfl : c = d := by simpa using hd
  exact ⟨hdigit, hpoint, he, hE⟩

theorem takeWhile_isDigit {ds rest : List Char} (hds : ∀ d ∈ ds, d.isDigit)
    (hrest : ∀ c ∈ rest.head?, c.isDigit = false) :
    (ds ++ rest).takeWhile Char.isDigit = ds ∧ (ds ++ rest).dropWhile Char.isDigit = rest := by
  induction ds with
  | nil =>
    cases rest with
    | nil => exact ⟨rfl, rfl⟩
    | cons c cs =>
      have hc : c.isDigit = false := hrest c rfl
      simp [hc]
  | cons d ds ih =>
    have hd : d.isDigit := hds d (by simp)
    obtain ⟨htake, hdrop⟩ := ih fun d' hd' => hds d' (by simp [hd'])
    simp [hd, htake, hdrop]

theorem digits?_append {ds rest : List Char} (hne : ds ≠ []) (hds : ∀ d ∈ ds, d.isDigit)
    (hrest : ∀ c ∈ rest.head?, c.isDigit = false) : digits? (ds ++ rest) = some (ds, rest) := by
  obtain ⟨htake, hdrop⟩ := takeWhile_isDigit hds hrest
  cases ds with
  | nil => exact absurd rfl hne
  | cons d ds => rw [digits?, htake, hdrop]

/-- A whole number is read to its end. A zero ends right behind itself, as the standard has it. -/
theorem whole?_append {ds rest : List Char} (hds : IsWhole ds)
    (hrest : ∀ c ∈ rest.head?, c.isDigit = false) : whole? (ds ++ rest) = some (ds, rest) := by
  rcases hds with rfl | ⟨c, cs, rfl, hc, hds⟩
  · rfl
  · rw [List.cons_append, whole?.eq_2, ← List.cons_append]
    · exact digits?_append (by simp) hds hrest
    · intro tail heq
      exact hc (List.cons.inj heq).1

theorem fraction?_append {cs rest : List Char} (hcs : IsFraction cs)
    (hrest : ∀ c ∈ rest.head?, c.isDigit = false ∧ c ≠ '.') :
    fraction? (cs ++ rest) = some (cs, rest) := by
  rcases hcs with rfl | ⟨ds, rfl, hne, hds⟩
  · rw [List.nil_append, fraction?.eq_2]
    intro tail heq
    subst heq
    exact (hrest '.' rfl).2 rfl
  · have hdigits := digits?_append hne hds fun c hc => (hrest c hc).1
    simp [fraction?, hdigits]

/-- Where a number ends, no exponent begins. -/
theorem exponent?_of_endsNumber {rest : List Char} (hrest : EndsNumber rest) :
    exponent? rest = some ([], rest) := by
  cases rest with
  | nil => rfl
  | cons c cs =>
    obtain ⟨_, _, he, hE⟩ := hrest c rfl
    simp [exponent?, he, hE]

/-- A fraction begins with its point, so the digits before it end there. -/
theorem IsFraction.head?_append {cs rest : List Char} (hcs : IsFraction cs)
    (hrest : ∀ c ∈ rest.head?, c.isDigit = false) :
    ∀ c ∈ (cs ++ rest).head?, c.isDigit = false := by
  rcases hcs with rfl | ⟨ds, rfl, _, _⟩
  · exact hrest
  · intro c hc
    obtain rfl : '.' = c := by simpa using hc
    decide

/-- The parts of a number are read one after another, as each ends where the next one begins. -/
theorem magnitude?_append {cs rest : List Char} (hcs : IsMagnitude cs) (hrest : EndsNumber rest) :
    magnitude? (cs ++ rest) = some (cs, rest) := by
  obtain ⟨whole, fraction, rfl, hwhole, hfraction⟩ := hcs
  have hread := whole?_append hwhole (hfraction.head?_append fun c hc => (hrest c hc).1)
  have hpoint := fraction?_append hfraction fun c hc => ⟨(hrest c hc).1, (hrest c hc).2.1⟩
  have hexponent := exponent?_of_endsNumber hrest
  simp [magnitude?, hread, hpoint, hexponent]

theorem IsWhole.head {ds : List Char} (h : IsWhole ds) : ∃ c cs, ds = c :: cs ∧ c.isDigit := by
  rcases h with rfl | ⟨c, cs, rfl, _, hds⟩
  · exact ⟨'0', [], rfl, by decide⟩
  · exact ⟨c, cs, rfl, hds c (by simp)⟩

theorem IsMagnitude.head {cs : List Char} (h : IsMagnitude cs) :
    ∃ c cs', cs = c :: cs' ∧ c.isDigit := by
  obtain ⟨whole, fraction, rfl, hwhole, _⟩ := h
  obtain ⟨c, cs, rfl, hc⟩ := hwhole.head
  exact ⟨c, cs ++ fraction, rfl, hc⟩

/-- **The text of a number is read to its end**, and no further. -/
theorem number?_append {text : String} (h : IsNumber text) {rest : List Char}
    (hrest : EndsNumber rest) :
    number? (text.toList ++ rest) = some (text.toList, rest) := by
  rcases h with hcs | ⟨cs, htext, hcs⟩
  · have hmagnitude := magnitude?_append hcs hrest
    obtain ⟨c, cs, htext, hc⟩ := hcs.head
    rw [htext, List.cons_append] at hmagnitude ⊢
    rw [number?.eq_2]
    · exact hmagnitude
    · intro tail heq
      obtain rfl := (List.cons.inj heq).1
      exact absurd hc (by decide)
  · rw [htext]
    simp [number?, magnitude?_append hcs hrest]

/-- A number begins with a digit or its sign. -/
theorem IsNumber.head {text : String} (h : IsNumber text) :
    ∃ c cs, text.toList = c :: cs ∧ (c.isDigit ∨ c = '-') := by
  rcases h with hcs | ⟨cs, htext, _⟩
  · obtain ⟨c, cs, htext, hc⟩ := hcs.head
    exact ⟨c, cs, htext, .inl hc⟩
  · exact ⟨'-', cs, htext, .inr rfl⟩

/-! ## Values with a reader -/

/-- Every number is written as one, and no object has a key twice. The first is needed for the text to
be read at all, the second for its members to be found. -/
inductive WellFormed : Json → Prop where
  | null : WellFormed .null
  | bool (b : Bool) : WellFormed (.bool b)
  | number {text : String} (h : IsNumber text) : WellFormed (.number text)
  | string (text : String) : WellFormed (.string text)
  | array {items : List Json} (h : ∀ j ∈ items, WellFormed j) : WellFormed (.array items)
  | object {members : List (String × Json)} (keys : (members.map Prod.fst).Nodup)
    (values : ∀ m ∈ members, WellFormed m.2) : WellFormed (.object members)

/-- The text of `j` is read as `j`, and what follows it is left. In an array a value must not begin with
a closing bracket, since the array would be taken for an empty one. -/
structure Reads (j : Json) : Prop where
  head : ∃ c cs, j.render.toList = c :: cs ∧ isBlank c = false ∧ c ≠ ']'
  value : ∀ fuel rest, j.render.length < fuel → EndsNumber rest →
    value? fuel (j.render.toList ++ rest) = some (j, rest)

/-! ### Blanks -/

theorem skipBlank_blank {c : Char} (h : isBlank c = true) (s : List Char) :
    skipBlank (c :: s) = skipBlank s := by
  simp [skipBlank, h]

theorem skipBlank_append {blanks : List Char} (h : ∀ c ∈ blanks, isBlank c) (s : List Char) :
    skipBlank (blanks ++ s) = skipBlank s := by
  induction blanks with
  | nil => rfl
  | cons c cs ih =>
    rw [List.cons_append, skipBlank_blank (h c (by simp))]
    exact ih fun d hd => h d (by simp [hd])

theorem skipBlank_cons {c : Char} (h : isBlank c = false) (s : List Char) :
    skipBlank (c :: s) = c :: s := by
  simp [skipBlank, h]

/-- Blanks in front of a value make no difference. -/
theorem items?_append {blanks : List Char} (h : ∀ c ∈ blanks, isBlank c) (fuel : Nat)
    (s : List Char) : items? fuel (blanks ++ s) = items? fuel s := by
  have hvalue : ∀ n, value? n (blanks ++ s) = value? n s := by
    intro n
    cases n with
    | zero => rfl
    | succ n => rw [value?, value?, skipBlank_append h]
  cases fuel with
  | zero => rfl
  | succ fuel => rw [items?, items?, hvalue]

/-- A number ends before a blank, and with no blanks before what follows them. -/
theorem endsNumber_append {blanks : List Char} (h : ∀ c ∈ blanks, isBlank c) {s : List Char}
    (hs : EndsNumber s) : EndsNumber (blanks ++ s) := by
  cases blanks with
  | nil => exact hs
  | cons c cs =>
    have hc : isBlank c := h c (by simp)
    simp only [isBlank, Bool.or_eq_true, decide_eq_true_eq] at hc
    rcases hc with ((rfl | rfl) | rfl) | rfl
    all_goals exact .cons (by decide) (by decide) (by decide) (by decide)

/-- Behind a bracket an array is read. The equation is stated since `value?` has a case for every first
character. -/
theorem value?_bracket (fuel : Nat) (s : List Char) :
    value? (fuel + 1) ('[' :: s) =
      match skipBlank s with
      | ']' :: rest => some (.array [], rest)
      | rest => items? fuel rest >>= fun (items, rest) => some (.array items, rest) := by
  rw [value?, skipBlank_cons (by decide)]
  rfl

/-- Behind a brace an object is read. -/
theorem value?_brace (fuel : Nat) (s : List Char) :
    value? (fuel + 1) ('\x7b' :: s) =
      match skipBlank s with
      | '\x7d' :: rest => some (.object [], rest)
      | rest => members? fuel rest >>= fun (members, rest) => some (.object members, rest) := by
  rw [value?, skipBlank_cons (by decide)]
  rfl

/-! ### Arrays, however they are laid out -/

/-- More values, each with the separator in front of it. This is the part of an array that is read by
recursion. -/
def continued (separator : String) : List Json → String
  | [] => ""
  | item :: items => separator ++ item.render ++ continued separator items

/-- Values with the separator between them. Inside a document it is a comma and a blank, between its
objects a comma and a line break. -/
def joined (separator : String) : List Json → String
  | [] => ""
  | item :: items => item.render ++ continued separator items

section Layout

variable {separator : String} {blanks opening closing : List Char}

/-- **One or more values are read up to the closing bracket.** The separator is a comma and blanks. -/
theorem items?_continued (hseparator : separator.toList = ',' :: blanks)
    (hblanks : ∀ c ∈ blanks, isBlank c) (hclosing : ∀ c ∈ closing, isBlank c) :
    ∀ (items : List Json) (item : Json) (fuel : Nat) (rest : List Char),
      (∀ j ∈ item :: items, Reads j) → (joined separator (item :: items)).length + 1 < fuel →
      items? fuel ((joined separator (item :: items)).toList ++ (closing ++ ']' :: rest)) =
        some (item :: items, rest) := by
  -- The first item has no separator, so the induction is on those behind it.
  intro items
  induction items with
  | nil =>
    intro item fuel rest hread hfuel
    obtain ⟨fuel, rfl⟩ : ∃ n, fuel = n + 1 := ⟨fuel - 1, by omega⟩
    have hends : EndsNumber (closing ++ ']' :: rest) :=
      endsNumber_append hclosing (.cons (by decide) (by decide) (by decide) (by decide))
    have hitem := (hread item (by simp)).value fuel (closing ++ ']' :: rest)
      (by simp [joined, continued] at hfuel; omega) hends
    have hbracket : skipBlank (closing ++ ']' :: rest) = ']' :: rest :=
      (skipBlank_append hclosing _).trans (skipBlank_cons (by decide) _)
    simp [items?, joined, continued, hitem, hbracket]
  | cons item' items ih =>
    intro item fuel rest hread hfuel
    obtain ⟨fuel, rfl⟩ : ∃ n, fuel = n + 1 := ⟨fuel - 1, by omega⟩
    have hlength : separator.length = blanks.length + 1 := by
      rw [← String.length_toList, hseparator, List.length_cons]
    simp only [joined, continued, String.length_append] at hfuel
    have htext : (joined separator (item :: item' :: items)).toList ++ (closing ++ ']' :: rest) =
        item.render.toList ++ ',' :: (blanks ++
          ((joined separator (item' :: items)).toList ++ (closing ++ ']' :: rest))) := by
      simp [joined, continued, hseparator]
    have hitem := (hread item (by simp)).value fuel
      (',' :: (blanks ++ ((joined separator (item' :: items)).toList ++ (closing ++ ']' :: rest))))
      (by omega) (.cons (by decide) (by decide) (by decide) (by decide))
    have hitems := ih item' fuel rest (fun j hj => hread j (by simp [hj]))
      (by simp only [joined, String.length_append]; omega)
    rw [← items?_append hblanks] at hitems
    rw [htext]
    simp [items?, hitem, skipBlank_cons (c := ',') (by decide), hitems]

/-- **An array is read back**, whatever blanks its brackets have on the inside. -/
theorem value?_array (hseparator : separator.toList = ',' :: blanks)
    (hblanks : ∀ c ∈ blanks, isBlank c) (hopening : ∀ c ∈ opening, isBlank c)
    (hclosing : ∀ c ∈ closing, isBlank c) {items : List Json} (hread : ∀ j ∈ items, Reads j)
    {fuel : Nat} (rest : List Char) (hfuel : (joined separator items).length + 2 < fuel) :
    value? fuel ('[' :: (opening ++ ((joined separator items).toList ++ (closing ++ ']' :: rest)))) =
      some (.array items, rest) := by
  obtain ⟨fuel, rfl⟩ : ∃ n, fuel = n + 1 := ⟨fuel - 1, by omega⟩
  rw [value?_bracket, skipBlank_append hopening]
  cases items with
  | nil =>
    have hbracket : skipBlank (closing ++ ']' :: rest) = ']' :: rest :=
      (skipBlank_append hclosing _).trans (skipBlank_cons (by decide) _)
    simp [joined, hbracket]
  | cons item items =>
    have hitems := items?_continued hseparator hblanks hclosing items item fuel rest hread (by omega)
    -- No value begins with a closing bracket, so the array is not taken for an empty one.
    obtain ⟨c, cs, hhead, hblank, hbracket⟩ := (hread item (by simp)).head
    simp only [joined, String.toList_append, hhead, List.cons_append] at hitems ⊢
    rw [skipBlank_cons hblank]
    split
    · next heq => exact absurd (List.cons.inj heq).1 hbracket
    · rw [hitems]
      rfl

end Layout

/-! ### Objects -/

/-- A key and its colon are read, whatever the key is made of. -/
theorem key?_append {blanks : List Char} (h : ∀ c ∈ blanks, isBlank c) (key : String)
    (rest : List Char) :
    key? (blanks ++ ((Text.Quoted.encode key).toList ++ ':' :: rest)) = some (key, rest) := by
  have hcolon : skipBlank (':' :: rest) = ':' :: rest := skipBlank_cons (by decide) _
  have hkey : (Text.Quoted.encode key).toList ++ ':' :: rest =
      '"' :: (key.toList.flatMap Text.Quoted.escape ++ '"' :: ':' :: rest) := by
    simp [Text.Quoted.toList_encode]
  have hquote : skipBlank ('"' :: (key.toList.flatMap Text.Quoted.escape ++ '"' :: ':' :: rest)) =
      '"' :: (key.toList.flatMap Text.Quoted.escape ++ '"' :: ':' :: rest) :=
    skipBlank_cons (by decide) _
  rw [key?, skipBlank_append h, hkey, hquote]
  simp [Text.Quoted.chars?_flatMap_escape, hcolon]

theorem value?_blank {j : Json} (h : Reads j) (fuel : Nat) (rest : List Char)
    (hfuel : j.render.length < fuel) (hrest : EndsNumber rest) :
    value? fuel (' ' :: (j.render.toList ++ rest)) = some (j, rest) := by
  obtain ⟨fuel, rfl⟩ : ∃ n, fuel = n + 1 := ⟨fuel - 1, by omega⟩
  have hvalue := h.value (fuel + 1) rest hfuel hrest
  rw [value?, skipBlank_blank rfl, ← value?, hvalue]

/-- **One or more members are read up to the closing brace.** -/
theorem members?_renderMembers :
    ∀ (members : List (String × Json)) (member : String × Json) (blanks : List Char) (fuel : Nat)
      (rest : List Char), (∀ c ∈ blanks, isBlank c) → (∀ m ∈ member :: members, Reads m.2) →
      (renderMembers (member :: members)).length + 1 < fuel →
      members? fuel (blanks ++ ((renderMembers (member :: members)).toList ++ ' ' :: '\x7d' :: rest)) =
        some (member :: members, rest) := by
  -- The blank behind a comma is left to the key that follows, so the blanks vary.
  intro members
  induction members with
  | nil =>
    intro (key, value) blanks fuel rest hblanks hread hfuel
    obtain ⟨fuel, rfl⟩ : ∃ n, fuel = n + 1 := ⟨fuel - 1, by omega⟩
    simp only [renderMembers, String.length_append] at hfuel
    have htext : (renderMembers [(key, value)]).toList ++ ' ' :: '\x7d' :: rest =
        (Text.Quoted.encode key).toList ++
          ':' :: ' ' :: (value.render.toList ++ ' ' :: '\x7d' :: rest) := by
      simp [renderMembers]
    have hkey := key?_append hblanks key (' ' :: (value.render.toList ++ ' ' :: '\x7d' :: rest))
    have hvalue := value?_blank (hread (key, value) (by simp)) fuel (' ' :: '\x7d' :: rest)
      (by dsimp only; omega) (.cons (by decide) (by decide) (by decide) (by decide))
    have hbrace : skipBlank (' ' :: '\x7d' :: rest) = '\x7d' :: rest := rfl
    rw [htext]
    simp [members?, hkey, hvalue, hbrace]
  | cons member' members ih =>
    intro (key, value) blanks fuel rest hblanks hread hfuel
    obtain ⟨fuel, rfl⟩ : ∃ n, fuel = n + 1 := ⟨fuel - 1, by omega⟩
    simp only [renderMembers, String.length_append] at hfuel
    have hcomma : ", ".length = 2 := rfl
    have htext : (renderMembers ((key, value) :: member' :: members)).toList ++ ' ' :: '\x7d' :: rest =
        (Text.Quoted.encode key).toList ++ ':' :: ' ' :: (value.render.toList ++
          ',' :: ' ' :: ((renderMembers (member' :: members)).toList ++ ' ' :: '\x7d' :: rest)) := by
      simp [renderMembers]
    have hkey := key?_append hblanks key (' ' :: (value.render.toList ++
      ',' :: ' ' :: ((renderMembers (member' :: members)).toList ++ ' ' :: '\x7d' :: rest)))
    have hvalue := value?_blank (hread (key, value) (by simp)) fuel
      (',' :: ' ' :: ((renderMembers (member' :: members)).toList ++ ' ' :: '\x7d' :: rest))
      (by dsimp only; omega) (.cons (by decide) (by decide) (by decide) (by decide))
    have hmembers := ih member' [' '] fuel rest (by simp [isBlank])
      (fun m hm => hread m (by simp [hm])) (by omega)
    rw [htext]
    rw [List.singleton_append] at hmembers
    simp [members?, hkey, hvalue, skipBlank_cons (c := ',') (by decide), hmembers]

/-! ### All values -/

/-- Arrays inside a document have a comma and a blank between their values. -/
theorem renderItems_eq_joined (items : List Json) : renderItems items = joined ", " items := by
  cases items with
  | nil => rfl
  | cons item items =>
    induction items generalizing item with
    | nil => simp [renderItems, joined, continued]
    | cons item' items ih =>
      rw [renderItems, ih item']
      · simp [joined, continued, String.append_assoc]
      · simp

/-- A value that begins like no other is read as soon as there is fuel. -/
theorem reads_word {j : Json} (word : List Char) (hrender : j.render.toList = word)
    (hhead : ∃ c cs, word = c :: cs ∧ isBlank c = false ∧ c ≠ ']')
    (hvalue : ∀ fuel rest, value? (fuel + 1) (word ++ rest) = some (j, rest)) : Reads j where
  head := hrender ▸ hhead
  value fuel rest hfuel _ := by
    obtain ⟨fuel, rfl⟩ : ∃ n, fuel = n + 1 := ⟨fuel - 1, by omega⟩
    rw [hrender]
    exact hvalue fuel rest

theorem reads_string (text : String) : Reads (.string text) := by
  have hrender : (render (.string text)).toList =
      '"' :: (text.toList.flatMap Text.Quoted.escape ++ ['"']) := Text.Quoted.toList_encode text
  refine reads_word _ hrender ⟨'"', _, rfl, by decide, by decide⟩ fun fuel rest => ?_
  rw [value?, List.cons_append, skipBlank_cons (by decide)]
  simp [Text.Quoted.chars?_flatMap_escape]

/-- A text that is read as a number to its end is the text of a number. -/
theorem reads_of_number? {text : String}
    (hhead : ∃ c cs, text.toList = c :: cs ∧ (c.isDigit ∨ c = '-'))
    (h : ∀ rest, EndsNumber rest → number? (text.toList ++ rest) = some (text.toList, rest)) :
    Reads (.number text) := by
  obtain ⟨c, cs, htext, hc⟩ := hhead
  have hne : ∀ d : Char, d.isDigit = false → d ≠ '-' → c ≠ d := by
    rintro d hd hsign rfl
    rcases hc with hc | hc
    · simp [hd] at hc
    · exact hsign hc
  have hblank : isBlank c = false := by
    simp only [isBlank, Bool.or_eq_false_iff, decide_eq_false_iff_not]
    exact ⟨⟨⟨hne _ (by decide) (by decide), hne _ (by decide) (by decide)⟩,
      hne _ (by decide) (by decide)⟩, hne _ (by decide) (by decide)⟩
  refine ⟨⟨c, cs, htext, hblank, hne ']' (by decide) (by decide)⟩, fun fuel rest hfuel hrest => ?_⟩
  obtain ⟨fuel, rfl⟩ : ∃ n, fuel = n + 1 := ⟨fuel - 1, by omega⟩
  have hrender : (render (.number text)).toList ++ rest = c :: (cs ++ rest) := by
    simp [render, htext]
  -- No word of the grammar begins like a number, so the number is what is left to try.
  have hscalar : scalar? (c :: (cs ++ rest)) = some (.number text, rest) := by
    have hnumber := h rest hrest
    rw [htext, List.cons_append] at hnumber
    unfold scalar?
    split
    · next heq => exact absurd (List.cons.inj heq).1 (hne _ (by decide) (by decide))
    · next heq => exact absurd (List.cons.inj heq).1 (hne _ (by decide) (by decide))
    · next heq => exact absurd (List.cons.inj heq).1 (hne _ (by decide) (by decide))
    · simp [hnumber, ← htext]
  rw [hrender, value?, skipBlank_cons hblank]
  split
  · next heq => exact absurd (List.cons.inj heq).1 (hne _ (by decide) (by decide))
  · next heq => exact absurd (List.cons.inj heq).1 (hne _ (by decide) (by decide))
  · next heq => exact absurd (List.cons.inj heq).1 (hne _ (by decide) (by decide))
  · exact hscalar

theorem reads_number {text : String} (h : IsNumber text) : Reads (.number text) :=
  reads_of_number? h.head fun _ => number?_append h

theorem reads_array {items : List Json} (h : ∀ j ∈ items, Reads j) : Reads (.array items) := by
  have hrender : (render (.array items)).toList = '[' :: ((joined ", " items).toList ++ [']']) := by
    simp [render, renderItems_eq_joined]
  refine ⟨⟨'[', _, hrender, by decide, by decide⟩, fun fuel rest hfuel _ => ?_⟩
  have hseparator : ", ".toList = ',' :: [' '] := rfl
  have hblank : ∀ c ∈ [' '], isBlank c := by simp [isBlank]
  have hnone : ∀ c ∈ ([] : List Char), isBlank c := by simp
  have hlength : (joined ", " items).length + 2 < fuel := by
    have hrender' := congrArg List.length hrender
    simp only [String.length_toList, List.length_cons, List.length_append, List.length_nil]
      at hrender'
    omega
  have hvalue := value?_array hseparator hblank hnone hnone h rest hlength
  simpa [hrender] using hvalue

/-- An object is read back if its values are. A key may occur twice here: reading keeps both. -/
theorem reads_object {members : List (String × Json)} (h : ∀ m ∈ members, Reads m.2) :
    Reads (.object members) := by
  have hrender : (render (.object members)).toList =
      '\x7b' :: ' ' :: ((renderMembers members).toList ++ [' ', '\x7d']) := by
    simp [render]
  refine ⟨⟨'\x7b', _, hrender, by decide, by decide⟩, fun fuel rest hfuel _ => ?_⟩
  obtain ⟨fuel, rfl⟩ : ∃ n, fuel = n + 1 := ⟨fuel - 1, by omega⟩
  have hlength : (renderMembers members).length + 1 < fuel := by
    have hrender' := congrArg List.length hrender
    simp only [String.length_toList, List.length_cons, List.length_append, List.length_nil]
      at hrender'
    omega
  rw [hrender, List.cons_append, value?_brace]
  cases members with
  | nil => rfl
  | cons member members =>
    have hmembers := members?_renderMembers members member [] fuel rest (by simp) h hlength
    -- A member begins with its key, so the object is not taken for an empty one.
    have hquote : ∃ cs, (renderMembers (member :: members)).toList = '"' :: cs := by
      cases members with
      | nil => exact ⟨_, by simp [renderMembers, Text.Quoted.toList_encode]; rfl⟩
      | cons member' members => exact ⟨_, by simp [renderMembers, Text.Quoted.toList_encode]; rfl⟩
    obtain ⟨cs, hcs⟩ := hquote
    rw [hcs] at hmembers
    have hskip : skipBlank (' ' :: ((renderMembers (member :: members)).toList ++ [' ', '\x7d']) ++ rest) =
        '"' :: (cs ++ ' ' :: '\x7d' :: rest) := by
      simp [hcs, skipBlank, isBlank]
    rw [List.nil_append, List.cons_append] at hmembers
    rw [hskip]
    simp [hmembers]

/-- **A well-formed value is read back from its text.** -/
theorem WellFormed.reads {j : Json} (h : j.WellFormed) : Reads j := by
  induction h with
  | null => exact reads_word "null".toList rfl ⟨'n', _, rfl, by decide, by decide⟩ fun _ _ => rfl
  | bool b =>
    cases b with
    | false => exact reads_word "false".toList rfl ⟨'f', _, rfl, by decide, by decide⟩ fun _ _ => rfl
    | true => exact reads_word "true".toList rfl ⟨'t', _, rfl, by decide, by decide⟩ fun _ _ => rfl
  | number h => exact reads_number h
  | string text => exact reads_string text
  | array _ ih => exact reads_array ih
  | object _ _ ih => exact reads_object ih

/-- **A list of values is read back as a document**, set apart by commas and line breaks. -/
theorem ofString?_of_reads {items : List Json} (h : ∀ j ∈ items, Reads j) :
    ofString? ("[\n" ++ joined ",\n" items ++ "\n]\n") = some (.array items) := by
  have hline : ∀ c ∈ ['\n'], isBlank c := by simp [isBlank]
  have hseparator : ",\n".toList = ',' :: ['\n'] := rfl
  have htext : ("[\n" ++ joined ",\n" items ++ "\n]\n").toList =
      '[' :: (['\n'] ++ ((joined ",\n" items).toList ++ (['\n'] ++ ']' :: ['\n']))) := by simp
  have hlength : (joined ",\n" items).length + 2 <
      ("[\n" ++ joined ",\n" items ++ "\n]\n").toList.length + 1 := by
    rw [htext]
    simp only [List.length_cons, List.length_append, String.length_toList]
    omega
  have hvalue := value?_array hseparator hline hline hline h ['\n'] hlength
  have hend : skipBlank ['\n'] = [] := rfl
  rw [← htext] at hvalue
  rw [ofString?, ofList?, hvalue]
  simp [hend]

/-- A list of well-formed values is read back as a document. -/
theorem ofString?_joined {items : List Json} (h : ∀ j ∈ items, j.WellFormed) :
    ofString? ("[\n" ++ joined ",\n" items ++ "\n]\n") = some (.array items) :=
  ofString?_of_reads fun j hj => (h j hj).reads

end ForeignDecl.Json
