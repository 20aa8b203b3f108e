import ForeignDecl.Layout.Basic
import ForeignDecl.Unit.Builtin

/-!
# Targets

Sizes and alignments of the builtin types on one machine, and how they follow from a target triple
such as `x86_64-unknown-linux-gnu`.

A triple starts with an architecture, which selects one of two data models: `lp64`, where `long`
and pointers have 64 bits, and `ilp32`, where they have 32. The parts after it may name an operating
system and an environment, which change a few of the types. `Target.ofTriple?` accepts a triple only
if the result passes `Target.check`.
-/

set_option autoImplicit false

namespace ForeignDecl

/-! ## Targets and their faults -/

/-- Layouts of the builtin types of a machine, in bits. -/
structure Target where
  triple : String
  pointer : TypeLayout
  bool : TypeLayout
  short : TypeLayout
  int : TypeLayout
  long : TypeLayout
  longLong : TypeLayout
  int128 : TypeLayout
  half : TypeLayout
  float : TypeLayout
  double : TypeLayout
  longDouble : TypeLayout
  float128 : TypeLayout
  wideChar : TypeLayout
  charIsSigned : Bool
deriving DecidableEq, Repr, Inhabited

/-- What is wrong with a target. -/
inductive TargetFault where
  /-- There is no architecture, or nothing after it. -/
  | malformedTriple
  | unsupportedArchitecture (name : String)
  | badSize (type : String) (bits : Nat)
  | badAlignment (type : String) (bits : Nat)
deriving DecidableEq, Repr, Inhabited

/-- The text of a fault. -/
def TargetFault.message : TargetFault → String
  | malformedTriple => "expected arch-vendor-os"
  | unsupportedArchitecture name => "unsupported architecture " ++ name
  | badSize type bits => type ++ " has size " ++ toString bits ++ " bits"
  | badAlignment type bits => type ++ " has alignment " ++ toString bits ++ " bits"

/-- A target that cannot be used. -/
structure TargetError where
  triple : String
  fault : TargetFault
deriving DecidableEq, Repr, Inhabited

/-- The text of a target error. -/
def TargetError.message (e : TargetError) : String :=
  "Invalid target " ++ e.triple ++ ": " ++ e.fault.message

namespace Target

/-! ## Builtin types -/

/-- The layout of a builtin type; `void` has none. -/
def builtin? (t : Target) : Builtin → Option TypeLayout
  | .void => none
  | .bool => some t.bool
  | .char | .signedChar | .unsignedChar => some ⟨8, 8⟩
  | .wideChar => some t.wideChar
  | .char16 => some ⟨16, 16⟩
  | .char32 => some ⟨32, 32⟩
  | .short | .unsignedShort => some t.short
  | .int | .unsignedInt => some t.int
  | .long | .unsignedLong => some t.long
  | .longLong | .unsignedLongLong => some t.longLong
  | .int128 | .unsignedInt128 => some t.int128
  | .half => some t.half
  | .float => some t.float
  | .double => some t.double
  | .longDouble => some t.longDouble
  | .float128 => some t.float128
  | .nullPointer => some t.pointer

/-- The layouts that a target chooses, by the names that messages use. -/
def entries (t : Target) : List (String × TypeLayout) :=
  [("pointer", t.pointer), ("bool", t.bool), ("short", t.short), ("int", t.int), ("long", t.long),
    ("long long", t.longLong), ("__int128", t.int128), ("half", t.half), ("float", t.float),
    ("double", t.double), ("long double", t.longDouble), ("__float128", t.float128),
    ("wchar_t", t.wideChar)]

/-! ## Checking -/

/-- A whole number of bytes, and not none. -/
def isByteSized (bits : Nat) : Bool := bits ≠ 0 && bits % 8 = 0

/-- A power of two of at least a byte. -/
def isByteAlignment (bits : Nat) : Bool := 8 ≤ bits && Nat.pow 2 bits.log2 = bits

/-- The fault of one layout, the size looked at first. -/
def faultOf? (name : String) (l : TypeLayout) : Option TargetFault :=
  if !isByteSized l.size then some (.badSize name l.size)
  else if !isByteAlignment l.align then some (.badAlignment name l.align)
  else none

/-- Every layout must have whole bytes and be aligned to a power of two of them; the first that is
not is the fault. -/
def check (t : Target) : Except TargetError Unit :=
  match t.entries.findSome? fun e => faultOf? e.1 e.2 with
  | some fault => .error ⟨t.triple, fault⟩
  | none => .ok ()

/-! ## Data models -/

/-- `long` and pointers have 64 bits. -/
def lp64 (triple : String) : Target where
  triple := triple
  pointer := ⟨64, 64⟩
  bool := ⟨8, 8⟩
  short := ⟨16, 16⟩
  int := ⟨32, 32⟩
  long := ⟨64, 64⟩
  longLong := ⟨64, 64⟩
  int128 := ⟨128, 128⟩
  half := ⟨16, 16⟩
  float := ⟨32, 32⟩
  double := ⟨64, 64⟩
  longDouble := ⟨128, 128⟩
  float128 := ⟨128, 128⟩
  wideChar := ⟨32, 32⟩
  charIsSigned := true

/-- `int`, `long` and pointers have 32 bits. -/
def ilp32 (triple : String) : Target :=
  { lp64 triple with pointer := ⟨32, 32⟩, long := ⟨32, 32⟩, longDouble := ⟨64, 64⟩ }

/-! ## Triples -/

/-- What the parts of a triple after the architecture say about the system. -/
structure System where
  isWindows : Bool
  /-- Windows without a GNU environment. -/
  isMsvc : Bool
  isApple : Bool
deriving DecidableEq, Repr, Inhabited

/-- Read the parts after the architecture, wherever in the triple they stand. -/
def System.ofParts (parts : List String) : System :=
  let windows := parts.any fun p => p.startsWith "windows" || p.startsWith "win32"
  { isWindows := windows
    isMsvc := windows && !parts.any (·.startsWith "gnu")
    isApple := parts.any fun p => p = "apple" || p = "darwin" || p = "macos" || p = "ios" }

/-- The target of an architecture before the system's own types are put in; `none` for an
architecture that is not known. -/
def ofArchitecture? (triple arch : String) (system : System) : Option Target :=
  if arch ∈ ["x86_64", "amd64"] then some (lp64 triple)
  else if arch ∈ ["aarch64", "arm64"] then
    some { lp64 triple with charIsSigned := system.isApple || system.isWindows }
  else if arch ∈ ["riscv64", "powerpc64", "powerpc64le", "s390x", "mips64", "mips64el"] then
    some { lp64 triple with charIsSigned := arch.startsWith "mips" }
  else if arch ∈ ["i386", "i486", "i586", "i686", "x86"] then
    if system.isMsvc then some (ilp32 triple)
    else some { ilp32 triple with
      longLong := ⟨64, 32⟩, double := ⟨64, 32⟩, longDouble := ⟨96, 32⟩ }
  else if arch.startsWith "arm" || arch.startsWith "thumb" then
    some { ilp32 triple with charIsSigned := system.isApple }
  else if arch ∈ ["riscv32", "wasm32"] then
    some { ilp32 triple with longDouble := ⟨128, 128⟩, charIsSigned := arch = "wasm32" }
  else none

/-- Windows has a 32 bit `long` and a 16 bit `wchar_t` everywhere. -/
def withWindowsTypes (system : System) (t : Target) : Target :=
  if system.isWindows then { t with long := ⟨32, 32⟩, wideChar := ⟨16, 16⟩ } else t

/-- `long double` is `double` in an MSVC environment, and for `aarch64` on Apple systems. -/
def withShortLongDouble (arch : String) (system : System) (t : Target) : Target :=
  if system.isMsvc || (system.isApple && arch = "aarch64") then { t with longDouble := t.double }
  else t

/-- The target of a triple. -/
def ofTriple? (triple : String) : Except TargetError Target :=
  match triple.splitOn "-" with
  | [] => .error ⟨triple, .malformedTriple⟩
  | arch :: parts =>
    if arch.isEmpty || parts.isEmpty then .error ⟨triple, .malformedTriple⟩
    else
      let system := System.ofParts parts
      match ofArchitecture? triple arch system with
      | none => .error ⟨triple, .unsupportedArchitecture arch⟩
      | some t => do
        let t := withShortLongDouble arch system (withWindowsTypes system t)
        t.check
        return t

end Target

end ForeignDecl
