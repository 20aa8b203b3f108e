import ForeignDecl.Unit.Basic

/-!
# Spelling types in C++

Types as they are written in the argument list of a template. Sugar is not written; records,
enumerations and typedefs go by their names.
-/

set_option autoImplicit false

namespace ForeignDecl

namespace TranslationUnit

/-- Spell a template argument, given how to spell a type. -/
def argSpellingWith (spell : TypeId → String) : TemplateArgument → String
  | .type t => spell t
  | .integral _ value => toString value
  | .other spelling => spelling

/-- Spell template arguments, given how to spell a type. -/
def argsSpellingWith (spell : TypeId → String) (args : List TemplateArgument) : String :=
  ", ".intercalate (args.map (argSpellingWith spell))

/-- Spell a type of at most `fuel` layers. -/
def spellingWithin (u : TranslationUnit) : Nat → TypeId → String
  | 0, _ => ""
  | fuel + 1, t =>
    match u.type t with
    | .builtin kind => kind.spelling
    | .pointer target => spellingWithin u fuel target ++ " *"
    | .lvalueReference target => spellingWithin u fuel target ++ " &"
    | .rvalueReference target => spellingWithin u fuel target ++ " &&"
    | .array element count => spellingWithin u fuel element ++ "[" ++ toString count ++ "]"
    | .incompleteArray element | .variableArray element => spellingWithin u fuel element ++ "[]"
    | .record d | .enum d | .typedef d => (u.node d).name
    | .elaborated inner | .paren inner => spellingWithin u fuel inner
    | .function result params variadic =>
      let params := params.map (spellingWithin u fuel) ++ if variadic then ["..."] else []
      spellingWithin u fuel result ++ " (" ++ ", ".intercalate params ++ ")"
    | .specialization template args _ =>
      template ++ "<" ++ argsSpellingWith (spellingWithin u fuel) args ++ ">"
    | .templateParameter name => name
    | .objcPointer (some d) => (u.node d).name ++ " *"
    | .objcPointer none => "id"
    | .unsupported spelling => spelling

/-- The spelling of a type. Types nest at most as deep as there are types. -/
def typeSpelling (u : TranslationUnit) (t : TypeId) : String := u.spellingWithin u.typeBudget t

/-- The spelling of template arguments. -/
def argsSpelling (u : TranslationUnit) (args : List TemplateArgument) : String :=
  argsSpellingWith u.typeSpelling args

end TranslationUnit

end ForeignDecl
