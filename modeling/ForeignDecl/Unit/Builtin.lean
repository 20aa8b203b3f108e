/-!
# Builtin types

The arithmetic types, `void` and the type of `nullptr`. Each has two names: the one a binding
generator sees, and the one C source uses.
-/

set_option autoImplicit false

namespace ForeignDecl

/-- A type the language defines. Whether plain `char` is signed is a property of the target. -/
inductive Builtin where
  | void
  | bool
  | char
  | signedChar
  | unsignedChar
  | wideChar
  | char16
  | char32
  | short
  | unsignedShort
  | int
  | unsignedInt
  | long
  | unsignedLong
  | longLong
  | unsignedLongLong
  | int128
  | unsignedInt128
  | half
  | float
  | double
  | longDouble
  | float128
  | nullPointer
deriving DecidableEq, Repr, Inhabited

namespace Builtin

/-- Every builtin, in the order of the declaration above. -/
def all : List Builtin :=
  [void, bool, char, signedChar, unsignedChar, wideChar, char16, char32, short, unsignedShort, int,
    unsignedInt, long, unsignedLong, longLong, unsignedLongLong, int128, unsignedInt128, half,
    float, double, longDouble, float128, nullPointer]

/-- The name a binding generator sees. -/
def foreignName : Builtin → String
  | void => ":void"
  | bool => ":_Bool"
  | char => ":char"
  | signedChar => ":signed-char"
  | unsignedChar => ":unsigned-char"
  | wideChar => ":wchar_t"
  | char16 => ":char16_t"
  | char32 => ":char32_t"
  | short => ":short"
  | unsignedShort => ":unsigned-short"
  | int => ":int"
  | unsignedInt => ":unsigned-int"
  | long => ":long"
  | unsignedLong => ":unsigned-long"
  | longLong => ":long-long"
  | unsignedLongLong => ":unsigned-long-long"
  | int128 => ":__int128"
  | unsignedInt128 => ":unsigned-__int128"
  | half => ":half"
  | float => ":float"
  | double => ":double"
  | longDouble => ":long-double"
  | float128 => ":float128"
  | nullPointer => ":nullptr_t"

/-- The name in C source. -/
def spelling : Builtin → String
  | void => "void"
  | bool => "bool"
  | char => "char"
  | signedChar => "signed char"
  | unsignedChar => "unsigned char"
  | wideChar => "wchar_t"
  | char16 => "char16_t"
  | char32 => "char32_t"
  | short => "short"
  | unsignedShort => "unsigned short"
  | int => "int"
  | unsignedInt => "unsigned int"
  | long => "long"
  | unsignedLong => "unsigned long"
  | longLong => "long long"
  | unsignedLongLong => "unsigned long long"
  | int128 => "__int128"
  | unsignedInt128 => "unsigned __int128"
  | half => "__fp16"
  | float => "float"
  | double => "double"
  | longDouble => "long double"
  | float128 => "__float128"
  | nullPointer => "decltype(nullptr)"

end Builtin

end ForeignDecl
