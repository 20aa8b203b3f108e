/-!
# Numeric literals

The type that a numeric literal of C suggests, told from its spelling alone. Digit separators do not
count, and neither does the case of letters.

A literal is a floating one if it has a point or the exponent letter of its radix. Only then may it
end in `f`; otherwise what follows the digits is an integer suffix, made of at most one `u`, at most
two `l` next to each other, and at most one `z`, which goes with `u` only.
-/

set_option autoImplicit false

namespace ForeignDecl

/-- The type of a macro constant, from narrow to wide. -/
inductive ConstantType where
  | int
  | unsigned
  | longLong
  | unsignedLongLong
  | float
  | string
deriving DecidableEq, Repr, Inhabited

namespace ConstantType

/-- Position in the order from narrow to wide. -/
def rank : ConstantType → Nat
  | int => 0
  | unsigned => 1
  | longLong => 2
  | unsignedLongLong => 3
  | float => 4
  | string => 5

/-- The wider of two types. -/
def widest (a b : ConstantType) : ConstantType := if a.rank ≤ b.rank then b else a

end ConstantType

namespace Literal

/-- Bases of numeric literals. -/
inductive Radix where
  | binary
  | decimal
  | hexadecimal
deriving DecidableEq, Repr, Inhabited

/-- Whether a lower-case character is a digit of a radix. -/
def Radix.isDigit : Radix → Char → Bool
  | binary, c => c = '0' || c = '1'
  | decimal, c => c.isDigit
  | hexadecimal, c => c.isDigit || ('a' ≤ c && c ≤ 'f')

/-- The letter in front of an exponent; binary literals have none. -/
def Radix.exponentLetter? : Radix → Option Char
  | binary => none
  | decimal => some 'e'
  | hexadecimal => some 'p'

/-- A spelling without separators and in lower case. -/
def normalize (spelling : String) : List Char :=
  (spelling.toList.filter (· ≠ '\'')).map Char.toLower

/-- The radix and what stands behind its mark. -/
def splitRadix : List Char → Radix × List Char
  | '0' :: 'x' :: rest => (.hexadecimal, rest)
  | '0' :: 'b' :: rest => (.binary, rest)
  | s => (.decimal, s)

/-- A list without the longest tail of characters that satisfy `p`, and that tail. -/
def splitTail (p : Char → Bool) (s : List Char) : List Char × List Char :=
  ((s.reverse.dropWhile p).reverse, (s.reverse.takeWhile p).reverse)

/-! ## Floating literals -/

/-- A point or an exponent makes a literal a floating one. -/
def isFloating (r : Radix) (s : List Char) : Bool :=
  match r.exponentLetter? with
  | some letter => s.any fun c => c = '.' || c = letter
  | none => false

/-- Whether every character may stand where it does: a sign only behind a letter that can introduce
an exponent. `previous?` is the character in front. -/
def isFloatingBody (r : Radix) : Option Char → List Char → Bool
  | _, [] => true
  | previous?, c :: rest =>
    (r.isDigit c || c = '.' || r.exponentLetter? = some c ||
      ((c = '+' || c = '-') && (previous? = some 'e' || previous? = some 'p'))) &&
    isFloatingBody r (some c) rest

/-- The type of a floating literal: a body with some digit in it, and at most one letter `f` or `l`
behind it. -/
def floatingType? (r : Radix) (s : List Char) : Option ConstantType :=
  let (body, suffix) := splitTail (fun c => c = 'f' || c = 'l') s
  if suffix.length ≤ 1 ∧ isFloatingBody r none body ∧ body.any Char.isDigit then some .float
  else none

/-! ## Integer literals -/

/-- Two `l` next to each other. -/
def hasDoubleL : List Char → Bool
  | 'l' :: 'l' :: _ => true
  | _ :: rest => hasDoubleL rest
  | [] => false

/-- The type that an integer suffix asks for. -/
def suffixType? (suffix : List Char) : Option ConstantType :=
  let unsigned := suffix.count 'u'
  let longs := suffix.count 'l'
  let sizes := suffix.count 'z'
  if 1 < unsigned ∨ 2 < longs ∨ 1 < sizes ∨ (sizes = 1 ∧ 0 < longs) then none
  else if longs = 2 ∧ !hasDoubleL suffix then none
  else
    match decide (unsigned = 1), decide (longs = 2) with
    | true, true => some .unsignedLongLong
    | false, true => some .longLong
    | true, false => some .unsigned
    | false, false => some .int

/-- The type of an integer literal: some digits of the radix and a suffix. -/
def integerType? (r : Radix) (s : List Char) : Option ConstantType :=
  let (body, suffix) := splitTail (fun c => c = 'u' || c = 'l' || c = 'z') s
  if !body.isEmpty ∧ body.all r.isDigit then suffixType? suffix else none

/-- The type that the spelling of a numeric literal suggests; `none` when it is not one. -/
def type? (spelling : String) : Option ConstantType :=
  let (r, s) := splitRadix (normalize spelling)
  if isFloating r s then floatingType? r s else integerType? r s

end Literal

end ForeignDecl
