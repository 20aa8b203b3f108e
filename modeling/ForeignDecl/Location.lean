/-!
# Source locations

Where a declaration or a macro was written. Nodes of a translation unit and macro definitions carry
a `Location`; documents carry only its text, `file:line:column`.

Entities that the compiler itself introduces are written in a file whose name starts with
`<built-in>`, and `Location.isBuiltin` is how the rest of the library recognises them.
-/

set_option autoImplicit false

namespace ForeignDecl

/-- A position in a source file; lines and columns count from one, as compilers report them. -/
structure Location where
  file : String
  line : Nat
  column : Nat
deriving DecidableEq, Repr, Inhabited

namespace Location

/-- The text compilers use for a position. -/
def text (l : Location) : String :=
  l.file ++ ":" ++ toString l.line ++ ":" ++ toString l.column

/-- Positions the compiler made up have no real file. -/
def isBuiltin (l : Location) : Bool := l.file.startsWith "<built-in>"

/-- By file, then line, then column. Files compare by code points, which is also the order of
their UTF-8 bytes. -/
def le (a b : Location) : Bool :=
  if a.file = b.file then
    if a.line = b.line then decide (a.column ≤ b.column) else decide (a.line < b.line)
  else decide (a.file < b.file)

/-- Locations in the order of `le`; equal ones keep their places. -/
def sort (ls : List Location) : List Location := ls.mergeSort le

end Location

end ForeignDecl
