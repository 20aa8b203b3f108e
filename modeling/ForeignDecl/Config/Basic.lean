import ForeignDecl.Config.Language
import ForeignDecl.Document.Format
import ForeignDecl.Target

/-!
# Run configurations

What a run can be asked for, and which of it makes sense. `Config.check` looks at everything a
configuration says before anything is written. A language that is not stated is not held against a
configuration: it follows from the name of the input file.
-/

set_option autoImplicit false

namespace ForeignDecl

/-! ## Errors -/

/-- Requests that cannot be met together. -/
inductive Conflict where
  /-- Template instantiations from a language without templates. -/
  | templatesWithoutCxx (language : Language)
  /-- Definitions of macros, and no output for macros. -/
  | noMacroOutput
  /-- Template instantiations, and no output for them. -/
  | noTemplateOutput
deriving DecidableEq, Repr, Inhabited

/-- The text of a conflict. -/
def Conflict.message : Conflict → String
  | templatesWithoutCxx language =>
    "template instantiations need C++ input, not " ++ language.label
  | noMacroOutput => "with-macro-defs needs a macro output"
  | noTemplateOutput => "template-instantiations needs a template output"

/-- Why a text is no configuration. -/
inductive ParseFault where
  | malformed
  /-- The format is known by its extension, but there is no reader for it. -/
  | yaml
  | unrecognized (path : String)
deriving DecidableEq, Repr, Inhabited

/-- The text of a parse fault. -/
def ParseFault.message : ParseFault → String
  | malformed => "malformed document"
  | yaml => "YAML configuration requires the `yaml` feature"
  | unrecognized path => "unrecognized configuration format: " ++ path

/-- Why there is no usable configuration. -/
inductive ConfigError where
  | unknownFormat (error : UnknownFormat)
  | unknownStandard (name : String)
  /-- The standard is not one of the language. -/
  | standardMismatch (standard : String) (language : Language)
  | unknownLanguage (name : String)
  | target (error : TargetError)
  | conflict (conflict : Conflict)
  | parse (fault : ParseFault)
  /-- The file cannot be read. -/
  | unreadable
deriving DecidableEq, Repr, Inhabited

/-- The text of a configuration error. -/
def ConfigError.message : ConfigError → String
  | unknownFormat e => e.message
  | unknownStandard name => "Unknown language standard: " ++ name
  | standardMismatch standard language =>
    "Language standard " ++ standard ++ " is not valid for " ++ language.label
  | unknownLanguage name => "Unknown language: " ++ name
  | target e => e.message
  | conflict c => "Conflicting output configuration: " ++ c.message
  | parse f => "Invalid configuration: " ++ f.message
  | unreadable => "IO error: cannot read the file"

/-- The language that a name stands for, or the error that it stands for none. -/
def Language.named (name : String) : Except ConfigError Language :=
  match Language.ofName? name with
  | some l => .ok l
  | none => .error (.unknownLanguage name)

/-! ## Configurations -/

/-- What a run is asked for. -/
structure Config where
  /-- The name of the format of the document. -/
  driver : String := DocumentFormat.preferred.name
  /-- Announced before the first entry. -/
  namespaceName? : Option String := none
  /-- Follows from the file name when it is not stated. -/
  language? : Option Language := none
  standard? : Option String := none
  /-- The target triple; the machine of the run when it is not stated. -/
  arch? : Option String := none
  /-- Define macros again in front of the macro constants. -/
  withMacroDefs : Bool := false
  /-- Write template instantiations after the document. -/
  templateInstantiations : Bool := false
deriving DecidableEq, Repr, Inhabited

namespace Config

/-- The language of an input file. -/
def languageFor (c : Config) (path : String) : Language := c.language?.getD (.ofPath path)

/-- The target, given the triple of the machine of the run. -/
def target (c : Config) (host : String) : Except ConfigError Target :=
  match Target.ofTriple? (c.arch?.getD host) with
  | .ok t => .ok t
  | .error e => .error (.target e)

/-- The format of the document. -/
def format (c : Config) : Except ConfigError DocumentFormat :=
  match DocumentFormat.ofName? c.driver with
  | .ok f => .ok f
  | .error e => .error (.unknownFormat e)

/-- A stated standard has to be known, and to be one of the language if that is stated too. -/
def checkStandard (c : Config) : Except ConfigError Unit :=
  match c.standard? with
  | none => .ok ()
  | some standard =>
    match standardFamily? standard, c.language? with
    | none, _ => .error (.unknownStandard standard)
    | some family, some language =>
      if language.family = family then .ok () else .error (.standardMismatch standard language)
    | some _, none => .ok ()

/-- Template instantiations need a language with templates, if a language is stated. -/
def checkTemplates (c : Config) : Except ConfigError Unit :=
  match c.language? with
  | some language =>
    if c.templateInstantiations && !language.isCxx then
      .error (.conflict (.templatesWithoutCxx language))
    else .ok ()
  | none => .ok ()

/-- A stated target has to be known. -/
def checkTarget (c : Config) : Except ConfigError Unit :=
  match c.arch? with
  | some triple =>
    match Target.ofTriple? triple with
    | .ok _ => .ok ()
    | .error e => .error (.target e)
  | none => .ok ()

/-- Look at everything a configuration says; the first fault counts. -/
def check (c : Config) : Except ConfigError Unit := do
  let _ ← c.format
  c.checkStandard
  c.checkTemplates
  c.checkTarget

end Config

end ForeignDecl
