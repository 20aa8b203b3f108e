/-!
# Names of macro constants

A macro can be turned into a constant variable whose name is the macro's behind a reserved prefix.
`constantName` makes such a name and `macroOfConstant?` recognises it again.
-/

set_option autoImplicit false

namespace ForeignDecl

/-- What the names of variables that stand for macros begin with. -/
def constantNamePrefix : String := "__bindscan_"

/-- The name of the variable that stands for a macro. -/
def constantName (macroName : String) : String := constantNamePrefix ++ macroName

/-- The macro that a variable stands for, by the name of the variable. -/
def macroOfConstant? (name : String) : Option String :=
  (name.dropPrefix? constantNamePrefix).map (·.toString)

end ForeignDecl
