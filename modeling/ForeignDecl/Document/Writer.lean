import ForeignDecl.Document.Sink
import ForeignDecl.Entry.Basic

/-!
# Document writers

A document is written as a stream. It opens with a header, which a namespace may follow; then come
its entries with a separator between any two of them, and a footer closes it. A `DocumentWriter` says
what each of these does to a state of its own.

No separator is asked for between the namespace and the first entry. A writer that needs one there
has to remember that the namespace was written.

Comments may stand between entries. The extraction never writes one; they are for callers that
annotate a document. `type` writes a single type and belongs to no document.
-/

set_option autoImplicit false

namespace ForeignDecl

/-- What a writer does for each part of a document. -/
structure DocumentWriter (σ : Type) where
  header : Emit σ Unit
  announce (namespaceName : String) : Emit σ Unit
  separator : Emit σ Unit
  entry (e : Entry) : Emit σ Unit
  footer : Emit σ Unit
  comment (text : String) : Emit σ Unit
  type (t : TypeRef) : Emit σ Unit

/-- The state of the writers of this library: a sink, and whether a namespace stands in front of the
place where the next entry goes. -/
structure Page where
  sink : Sink := {}
  afterNamespace : Bool := false
deriving Inhabited

namespace Page

/-- Write a text to the sink. -/
def put (text : String) : Emit Page Unit := fun p =>
  match Sink.put text p.sink with
  | .ok () sink => .ok () { p with sink }
  | .error e sink => .error e { p with sink }

end Page

end ForeignDecl
