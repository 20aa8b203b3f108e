/-!
# Decimal numbers in positional notation

A decimal number is a natural coefficient scaled by a power of ten. `Decimal.text` writes it with
all its places and never with an exponent.
-/

set_option autoImplicit false

namespace ForeignDecl

/-- The number `coefficient * 10 ^ exponent`. -/
structure Decimal where
  coefficient : Nat
  exponent : Int
deriving DecidableEq, Repr, Inhabited

namespace Decimal

/-- As many zeros as asked for. -/
def zeros (n : Nat) : String := String.ofList (List.replicate n '0')

/-- The digits of `coefficient` with a point in front of the last `places` of them, and zeros up to
the point when there are too few. -/
def withPoint (coefficient places : Nat) : String :=
  let digits := (toString coefficient).toList
  let missing := places - digits.length
  if digits.length ≤ places then "0." ++ zeros missing ++ String.ofList digits
  else
    let whole := digits.length - places
    String.ofList (digits.take whole) ++ "." ++ String.ofList (digits.drop whole)

/-- The number in positional notation. -/
def text (d : Decimal) : String :=
  match d.exponent with
  | .ofNat e => if d.coefficient = 0 then "0" else toString d.coefficient ++ zeros e
  | .negSucc e => withPoint d.coefficient (e + 1)

end Decimal

end ForeignDecl
