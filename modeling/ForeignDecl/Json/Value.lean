import ForeignDecl.Text.Quoted

/-!
# JSON values

The value tree of a JSON text and its printed form. Numbers are kept as they are written: the
library copies numbers into documents and never computes with one that it read.

The printed form is the one documents have: a blank inside the braces of an object, after a comma
and after a colon, and none inside brackets.
-/

set_option autoImplicit false

namespace ForeignDecl

/-- A JSON value. The members of an object keep their order. -/
inductive Json where
  | null
  | bool (value : Bool)
  /-- A number, by its text. -/
  | number (text : String)
  | string (text : String)
  | array (items : List Json)
  | object (members : List (String × Json))

namespace Json

/-- A number that is a natural number. -/
def nat (n : Nat) : Json := .number (toString n)

/-- A number that is an integer. -/
def int (n : Int) : Json := .number (toString n)

mutual

/-- The text of a value. -/
def render : Json → String
  | .null => "null"
  | .bool true => "true"
  | .bool false => "false"
  | .number text => text
  | .string text => Text.Quoted.encode text
  | .array items => "[" ++ renderItems items ++ "]"
  | .object members => "\x7b " ++ renderMembers members ++ " \x7d"

/-- Values with a comma and a blank between them. -/
def renderItems : List Json → String
  | [] => ""
  | [item] => render item
  | item :: items => render item ++ ", " ++ renderItems items

/-- Members with a comma and a blank between them. -/
def renderMembers : List (String × Json) → String
  | [] => ""
  | [(key, value)] => Text.Quoted.encode key ++ ": " ++ render value
  | (key, value) :: members =>
    Text.Quoted.encode key ++ ": " ++ render value ++ ", " ++ renderMembers members

end

end Json

end ForeignDecl
