import ForeignDecl.Document.Sink
import ForeignDecl.Macro.ConstantName
import ForeignDecl.Macro.Guess

/-!
# Macro constants

A piece of C that declares a constant variable for every macro that stands for a constant,
initialized with the macro:

    const long __bindscan_BUFSIZE = BUFSIZE;

Compiled behind the input, it turns macros into variables, which the extraction then reports under
the names of the macros. Macros whose value does not compile end up as invalid declarations there.

With definitions, the piece stands on its own: the definitions of the macros it uses come first,
each behind a comment that says where it was.
-/

set_option autoImplicit false

namespace ForeignDecl

namespace MacroTable

/-- Macros of the headers that stand for constants, with the types of the constants, in the order of
the table. Built-in macros and those with arguments are no candidates. -/
def constants (t : MacroTable) : List (MacroDefinition × ConstantType) :=
  t.entries.filterMap fun m =>
    if m.isBuiltin || m.isFunctionLike then none else (t.guess? m.name).map (m, ·)

end MacroTable

/-- The text that defines a macro again. -/
def MacroDefinition.definitionText (m : MacroDefinition) : String :=
  "/* " ++ m.locationText ++ " */\n#define " ++ m.name ++ " " ++ m.body ++ "\n\n"

/-- The text that declares the variable of a macro. -/
def MacroDefinition.constantText (m : MacroDefinition) (type : ConstantType) : String :=
  "const " ++ constantSpelling (some type) ++ " " ++ constantName m.name ++ " = " ++ m.name ++ ";\n"

namespace MacroTable

/-- The variables for all macro constants, behind the definitions of the macros if they are asked
for. -/
def fragment (t : MacroTable) (withDefinitions : Bool) : String :=
  let definitions :=
    if withDefinitions then t.constants.map fun c => c.1.definitionText else []
  String.join (definitions ++ t.constants.map fun c => c.1.constantText c.2)

/-- Write the macro constants, and tell how many there are. -/
def writeConstants (t : MacroTable) (withDefinitions : Bool) : Emit Sink Nat := do
  Sink.put (t.fragment withDefinitions)
  return t.constants.length

end MacroTable

end ForeignDecl
