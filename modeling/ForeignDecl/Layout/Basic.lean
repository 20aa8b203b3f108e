import ForeignDecl.Unit.Handle

/-!
# Layout answers

Sizes, alignments and offsets, and the reasons for which there may be none. Everything is in bits,
except for the offsets of base classes, which are in bytes.

Whoever needs a layout asks a `LayoutOracle`: four questions, each answered or refused. The
extraction works with any oracle; `Layout.Natural` gives one that computes its answers from the
unit and the target, `Layout.Words` one that computes them in words of 64 bits, and `Layout.Table` one
that looks them up.
-/

set_option autoImplicit false

namespace ForeignDecl

/-- Size and alignment of a type, in bits. -/
structure TypeLayout where
  size : Nat
  align : Nat
deriving DecidableEq, Repr, Inhabited

/-- Size and alignment of a record and the offsets of its fields, in bits. There is one offset for
each field, in the order of declaration. -/
structure RecordLayout where
  size : Nat
  align : Nat
  fieldOffsets : List Nat := []
deriving DecidableEq, Repr, Inhabited

/-- Why a layout question has no answer. -/
inductive LayoutError where
  /-- Nothing of this type can be stored: `void`, functions. -/
  | noLayout (what : String)
  /-- The record is declared but not defined. -/
  | incomplete (record : String)
  /-- The size in bits does not fit into 64 bits. -/
  | tooLarge (what : String)
  /-- The type depends on a template parameter. -/
  | dependent (what : String)
  | notABase (record base : String)
  /-- The oracle gave fewer offsets than the record has fields. -/
  | missingField (record : String) (index : Nat)
  /-- The record contains itself by value. -/
  | recursive (record : String)
  /-- Not an answer: a sum or a product in the computation went beyond 64 bits, and the computation was
  given up. Whoever asked is stopped, as by any reason but `noLayout` and `tooLarge`. -/
  | overflow
deriving DecidableEq, Repr, Inhabited

/-- The text of a layout error. -/
def LayoutError.message : LayoutError → String
  | noLayout what => "Type has no layout: " ++ what
  | incomplete record => "Record is incomplete: " ++ record
  | tooLarge what => "Type is too large: " ++ what
  | dependent what => "Type is dependent: " ++ what
  | notABase record base => base ++ " is not a base of " ++ record
  | missingField record index => "No offset for field " ++ toString index ++ " of " ++ record
  | recursive record => "Record contains itself: " ++ record
  | overflow => "Size computation overflows"

/-- Answers to layout questions. Offsets of bases are in bytes, all else is in bits. -/
structure LayoutOracle where
  type : TypeId → Except LayoutError TypeLayout
  record : DeclId → Except LayoutError RecordLayout
  /-- The offset of a non-virtual base in a record. -/
  baseOffset (record base : DeclId) : Except LayoutError Nat
  /-- The offset of a virtual base in a record. -/
  virtualBaseOffset (record base : DeclId) : Except LayoutError Nat

end ForeignDecl
