/-!
# Source languages and their standards

The four languages of the C family, the file name extensions that suggest them, and the language
standards that belong to each of the two families.
-/

set_option autoImplicit false

namespace ForeignDecl

/-- Languages with and without C++. -/
inductive LanguageFamily where
  | c
  | cxx
deriving DecidableEq, Repr, Inhabited

/-- The language of an input file. -/
inductive Language where
  | c
  | cxx
  | objc
  | objcxx
deriving DecidableEq, Repr, Inhabited

namespace Language

/-- Every language. -/
def all : List Language := [c, cxx, objc, objcxx]

/-- The name of a language. -/
def label : Language → String
  | c => "c"
  | cxx => "c++"
  | objc => "objc"
  | objcxx => "objc++"

/-- The language with a given label. -/
def ofLabel? (s : String) : Option Language := all.find? (·.label = s)

/-- The language that a name stands for; some have other names beside their label. -/
def ofName? (s : String) : Option Language :=
  if s = "c" then some c
  else if s = "c++" ∨ s = "cxx" ∨ s = "cpp" then some cxx
  else if s = "objc" ∨ s = "objective-c" then some objc
  else if s = "objc++" ∨ s = "objective-c++" then some objcxx
  else none

/-- Whether C++ can be written in a language. -/
def isCxx : Language → Bool
  | cxx | objcxx => true
  | c | objc => false

/-- The family whose standards apply. -/
def family (l : Language) : LanguageFamily := if l.isCxx then .cxx else .c

/-! ## File names -/

/-- The language that a file name extension suggests; C unless there is a reason for another. -/
def ofExtension (extension : String) : Language :=
  if extension ∈ ["cpp", "cxx", "cc", "c++", "hpp", "hxx", "hh"] then cxx
  else if extension = "m" then objc
  else if extension = "mm" then objcxx
  else c

end Language

/-- The name of the file a path leads to. Empty parts and single dots lead nowhere, and two dots
lead to no file. -/
def fileName? (path : String) : Option String :=
  match ((path.splitOn "/").filter fun p => p ≠ "" && p ≠ ".").getLast? with
  | some name => if name = ".." then none else some name
  | none => none

/-- What stands behind the last dot of a file name. A dot in front of everything else starts no
extension. -/
def extensionOf? (path : String) : Option String := do
  let name ← fileName? path
  match (name.splitOn ".").reverse with
  | [] | [_] | [_, ""] => none
  | extension :: _ => some extension

namespace Language

/-- The language that a path suggests. -/
def ofPath (path : String) : Language := ((extensionOf? path).map ofExtension).getD c

end Language

/-! ## Standards -/

/-- The language standards, each with the family it belongs to. -/
def languageStandards : List (String × LanguageFamily) :=
  [("c89", .c), ("c90", .c), ("iso9899:1990", .c), ("gnu89", .c), ("c99", .c), ("iso9899:1999", .c),
    ("gnu99", .c), ("c11", .c), ("iso9899:2011", .c), ("gnu11", .c), ("c17", .c), ("c18", .c),
    ("iso9899:2017", .c), ("gnu17", .c), ("c23", .c), ("gnu23", .c),
    ("c++98", .cxx), ("c++03", .cxx), ("gnu++98", .cxx), ("c++11", .cxx), ("gnu++11", .cxx),
    ("c++14", .cxx), ("gnu++14", .cxx), ("c++17", .cxx), ("gnu++17", .cxx), ("c++20", .cxx),
    ("gnu++20", .cxx), ("c++23", .cxx), ("gnu++23", .cxx)]

/-- The family of a language standard. -/
def standardFamily? (name : String) : Option LanguageFamily := languageStandards.lookup name

end ForeignDecl
