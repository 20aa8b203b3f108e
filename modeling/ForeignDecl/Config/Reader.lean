import ForeignDecl.Config.Basic
import ForeignDecl.Json.Reader

/-!
# Reading configurations

A configuration is a JSON object with the members listed in `Config.keys`, any of which may be left
out. Other members are refused, and so is one that occurs twice. Only what may be absent from a
configuration may also be `null`. The members can also be given without their keys, as an array in
the order of the list that ends where the rest is left out.
-/

set_option autoImplicit false

namespace ForeignDecl

namespace Config

/-! ## Values of members -/

/-- The value of a member that is a text. -/
def textOf? : Json → Option String
  | .string s => some s
  | _ => none

/-- The value of a member that is a truth value. -/
def flagOf? : Json → Option Bool
  | .bool b => some b
  | _ => none

/-- The value of a member that is a language: its label, alone or as the key of a `null`. -/
def languageOf? : Json → Option Language
  | .string s => Language.ofLabel? s
  | .object [(key, .null)] => Language.ofLabel? key
  | _ => none

/-- The value of a member that may be `null`. -/
def optional? {α : Type} (read? : Json → Option α) : Json → Option (Option α)
  | .null => some none
  | v => (read? v).map some

/-! ## Members -/

/-- What a configuration can say, in the order of the array form. -/
def keys : List String :=
  ["driver", "namespace", "language", "std", "arch", "with-macro-defs", "template-instantiations"]

/-- Put in the value of one member. -/
def set? (c : Config) (key : String) (v : Json) : Option Config :=
  match key with
  | "driver" => (textOf? v).map fun driver => { c with driver }
  | "namespace" => (optional? textOf? v).map fun namespaceName? => { c with namespaceName? }
  | "language" => (optional? languageOf? v).map fun language? => { c with language? }
  | "std" => (optional? textOf? v).map fun standard? => { c with standard? }
  | "arch" => (optional? textOf? v).map fun arch? => { c with arch? }
  | "with-macro-defs" => (flagOf? v).map fun withMacroDefs => { c with withMacroDefs }
  | "template-instantiations" =>
    (flagOf? v).map fun templateInstantiations => { c with templateInstantiations }
  | _ => none

/-- Put in the values of some members, one after the other. -/
def setAll? (c : Config) (members : List (String × Json)) : Option Config :=
  members.foldlM (fun c m => c.set? m.1 m.2) c

/-- The configuration a JSON value describes. -/
def ofJson? : Json → Option Config
  | .object members =>
    if (members.map (·.1)).Nodup then ({} : Config).setAll? members else none
  | .array items =>
    if items.length ≤ keys.length then ({} : Config).setAll? (keys.zip items) else none
  | _ => none

/-! ## Texts and files -/

/-- The configuration a text describes. -/
def ofText (text : String) : Except ConfigError Config :=
  match (Json.ofString? text).bind ofJson? with
  | some c => .ok c
  | none => .error (.parse .malformed)

/-- The configuration of a file, whose format follows from the extension of its name. There is no
content when the file cannot be read. -/
def ofFile (path : String) (content? : Option String) : Except ConfigError Config :=
  match content? with
  | none => .error .unreadable
  | some content =>
    match extensionOf? path with
    | some "json" => ofText content
    | some "yaml" | some "yml" => .error (.parse .yaml)
    | _ => .error (.parse (.unrecognized path))

end Config

end ForeignDecl
