import ForeignDecl.Macro.Literal
import ForeignDecl.Macro.Table
import ForeignDecl.OrderedSet

/-!
# Types of macros

The type of the constant that a macro stands for, guessed from its tokens. A macro that mentions
another macro is as wide as that one, and so on along all mentions; it stands for no constant if any
macro on the way cannot, because it takes arguments, has no tokens, or has a token that fits no
constant.

Macros may mention themselves and each other. Each is looked into once: a macro that was looked into
already has had its say.
-/

set_option autoImplicit false

namespace ForeignDecl

namespace MacroTable

/-- What has been found out so far: the widest type met, and the macros looked into. -/
structure Survey where
  type : ConstantType := .int
  visited : OrderedSet String := ∅

/-- Meet a type. -/
def Survey.meet (s : Survey) (type : ConstantType) : Survey := { s with type := s.type.widest type }

/-- Meet a token. `visit` looks into another macro. Names that are no macros are left for the
compiler to judge: keywords, enumerators. -/
def surveyToken (t : MacroTable) (visit : MacroDefinition → Survey → Option Survey) (s : Survey)
    (token : MacroToken) : Option Survey :=
  match token.kind with
  | .number => (Literal.type? token.spelling).map s.meet
  | .string => some (s.meet .string)
  | .character => some (s.meet .unsignedLongLong)
  | .otherLiteral => none
  | .identifier =>
    if token.spelling ∈ s.visited then some s
    else match t.find? token.spelling with
      | some m => visit m s
      | none => some s
  | .punctuation => some s

/-- Look into a macro, and into at most `fuel` macros behind each other. -/
def surveyWithin (t : MacroTable) : Nat → MacroDefinition → Survey → Option Survey
  | 0, _, _ => none
  | fuel + 1, m, s =>
    if m.isFunctionLike || m.tokens.isEmpty then none
    else
      m.tokens.foldlM (surveyToken t (surveyWithin t fuel))
        { s with visited := s.visited.insert m.name }

/-- The type of the constant that the macro called `name` stands for; `none` when it stands for
none. Macros behind each other are all different, so there are at most as many as the table has. -/
def guess? (t : MacroTable) (name : String) : Option ConstantType := do
  let m ← t.find? name
  let s ← t.surveyWithin (t.size + 1) m {}
  return s.type

end MacroTable

/-- The C type of a variable that holds a constant of some type. Whatever is not a number is written
as a string. -/
def constantSpelling : Option ConstantType → String
  | some .int => "long"
  | some .unsigned => "unsigned long"
  | some .longLong => "long long"
  | some .unsignedLongLong => "unsigned long long"
  | some .float => "double"
  | some .string | none => "char*"

end ForeignDecl
