import ForeignDecl.Json.Value

/-!
# Reading JSON

The strict grammar: no comments, no trailing commas, no byte order mark, and only the four blank
characters of the standard around tokens. `Json.ofString?` reads a whole text and refuses anything
that is left over. Repeated keys are kept; whether they are an error is for the reader of the
members to say.

Every function takes the text from the front of a list and returns the rest. A value takes up at
least one character, so the length of the text bounds the depth of the search.
-/

set_option autoImplicit false

namespace ForeignDecl.Json

/-- The blank characters of the standard. -/
def isBlank (c : Char) : Bool := c = ' ' || c = '\t' || c = '\n' || c = '\r'

/-- The text without the blanks at its front. -/
def skipBlank (s : List Char) : List Char := s.dropWhile isBlank

/-! ## Numbers -/

/-- One or more digits. -/
def digits? (s : List Char) : Option (List Char × List Char) :=
  match s.takeWhile Char.isDigit with
  | [] => none
  | ds => some (ds, s.dropWhile Char.isDigit)

/-- The digits before the point: a zero stands alone. -/
def whole? : List Char → Option (List Char × List Char)
  | '0' :: rest => some (['0'], rest)
  | s => digits? s

/-- The point and the digits after it, if there is a point. -/
def fraction? : List Char → Option (List Char × List Char)
  | '.' :: rest => do
    let (ds, rest) ← digits? rest
    some ('.' :: ds, rest)
  | s => some ([], s)

/-- The sign of an exponent, if there is one. -/
def exponentSign : List Char → List Char × List Char
  | '+' :: rest => (['+'], rest)
  | '-' :: rest => (['-'], rest)
  | s => ([], s)

/-- The exponent, if there is one. -/
def exponent? : List Char → Option (List Char × List Char)
  | [] => some ([], [])
  | c :: rest =>
    if c = 'e' ∨ c = 'E' then do
      let (sign, rest) := exponentSign rest
      let (ds, rest) ← digits? rest
      some (c :: (sign ++ ds), rest)
    else some ([], c :: rest)

/-- A number without its sign. -/
def magnitude? (s : List Char) : Option (List Char × List Char) := do
  let (w, rest) ← whole? s
  let (f, rest) ← fraction? rest
  let (e, rest) ← exponent? rest
  some (w ++ f ++ e, rest)

/-- The text of a number. -/
def number? : List Char → Option (List Char × List Char)
  | '-' :: rest => do
    let (m, rest) ← magnitude? rest
    some ('-' :: m, rest)
  | s => magnitude? s

/-! ## Values -/

/-- A word of the grammar, or else a number. -/
def scalar? : List Char → Option (Json × List Char)
  | 'n' :: 'u' :: 'l' :: 'l' :: rest => some (.null, rest)
  | 't' :: 'r' :: 'u' :: 'e' :: rest => some (.bool true, rest)
  | 'f' :: 'a' :: 'l' :: 's' :: 'e' :: rest => some (.bool false, rest)
  | s => (number? s).map fun (text, rest) => (.number (String.ofList text), rest)

/-- A key and the colon after it. -/
def key? (s : List Char) : Option (String × List Char) :=
  match skipBlank s with
  | '"' :: rest => do
    let (key, rest) ← Text.Quoted.chars? rest
    match skipBlank rest with
    | ':' :: rest => some (String.ofList key, rest)
    | _ => none
  | _ => none

mutual

/-- A value nested at most `fuel` deep, with blanks allowed before it. -/
def value? : Nat → List Char → Option (Json × List Char)
  | 0, _ => none
  | fuel + 1, s =>
    match skipBlank s with
    | '"' :: rest => do
      let (text, rest) ← Text.Quoted.chars? rest
      some (.string (String.ofList text), rest)
    | '[' :: rest =>
      match skipBlank rest with
      | ']' :: rest => some (.array [], rest)
      | rest => do
        let (items, rest) ← items? fuel rest
        some (.array items, rest)
    | '{' :: rest =>
      match skipBlank rest with
      | '}' :: rest => some (.object [], rest)
      | rest => do
        let (members, rest) ← members? fuel rest
        some (.object members, rest)
    | s => scalar? s

/-- One or more values up to the closing bracket. -/
def items? : Nat → List Char → Option (List Json × List Char)
  | 0, _ => none
  | fuel + 1, s => do
    let (item, rest) ← value? fuel s
    match skipBlank rest with
    | ',' :: rest =>
      let (items, rest) ← items? fuel rest
      some (item :: items, rest)
    | ']' :: rest => some ([item], rest)
    | _ => none

/-- One or more members up to the closing brace. -/
def members? : Nat → List Char → Option (List (String × Json) × List Char)
  | 0, _ => none
  | fuel + 1, s => do
    let (key, rest) ← key? s
    let (value, rest) ← value? fuel rest
    match skipBlank rest with
    | ',' :: rest =>
      let (members, rest) ← members? fuel rest
      some ((key, value) :: members, rest)
    | '}' :: rest => some ([(key, value)], rest)
    | _ => none

end

/-- A whole text: one value with nothing but blanks around it. -/
def ofList? (s : List Char) : Option Json :=
  match value? (s.length + 1) s with
  | some (value, rest) => if (skipBlank rest).isEmpty then some value else none
  | none => none

/-- Read a JSON text. -/
def ofString? (s : String) : Option Json := ofList? s.toList

end ForeignDecl.Json
