import ForeignDecl.Document.Writer

/-!
# The outline form of documents

A line for every entry of C, and lines for the types it mentions. Nothing else leaves a trace: no
header, separator or footer, no comment, no entry and no type that C does not have.
-/

set_option autoImplicit false

namespace ForeignDecl

namespace Outline

/-- A line of words. -/
def line (words : List String) : String := " ".intercalate words ++ "\n"

/-- The lines of a type. -/
def typeLines : TypeRef → String
  | .simple name => line ["simple", name]
  | .basic name size align => line ["basic", name, toString size, toString align]
  | .bitfield base width => line ["bitfield", toString width] ++ typeLines base
  | .pointer target => line ["pointer"] ++ typeLines target
  | .array element count => line ["array", toString count] ++ typeLines element
  | .record name id isUnion isClass =>
    line ["record", name, toString id, toString isUnion, toString isClass]
  | .enum name id => line ["enum", name, toString id]
  | .reference _ | .template _ _ _ => ""

/-- The lines of an entry. -/
def entryLines : Entry → String
  | .unhandled i kind => line ["UNHANDLED", i.name, kind]
  | .var i type value? isExternal isString =>
    line ["VAR", i.name, value?.getD "-", toString isExternal, toString isString] ++ typeLines type
  | .function f =>
    line ["FUNCTION", f.info.name, toString f.params.length] ++ typeLines f.result ++
      String.join (f.params.map fun p => typeLines p.type)
  | .typedef i type => line ["TYPEDEF", i.name] ++ typeLines type
  | .record r =>
    line ["RECORD", r.info.name, toString r.id, toString r.fields.length] ++
      String.join (r.fields.map fun f => typeLines f.type)
  | .enum i id constants => line ["ENUM", i.name, toString id, toString constants.length]
  | .method _ | .classRecord _ | .namespaceBlock .. | .typeAlias .. | .aliasTemplate ..
  | .varTemplate .. | .usingDecl _ | .usingShadow _ | .usingDirective _ | .objcInterface _
  | .objcCategory .. | .objcProtocol .. => ""

/-- The writer of the outline form. -/
def writer : DocumentWriter Page where
  header := pure ()
  announce _ := pure ()
  separator := pure ()
  entry e := Page.put (entryLines e)
  footer := pure ()
  comment _ := pure ()
  type t := Page.put (typeLines t)

end Outline

end ForeignDecl
