/-!
# Sinks

Where the text of a document goes: a sequence of bytes that may have a limit. A sink with a limit
takes exactly the first `limit` bytes that are ever written to it. A text that does not fit any more
is cut off there, and the write fails; writing nothing never fails.

Because the bytes that fit are kept, what a sink holds does not depend on how a text is cut into
writes, as long as writing ends at the first failure.
-/

set_option autoImplicit false

namespace ForeignDecl

/-- Why a text could not be written. -/
inductive WriteError where
  | sinkFull
deriving DecidableEq, Repr, Inhabited

/-- The text of a write error. -/
def WriteError.message : WriteError → String
  | sinkFull => "sink full"

/-- Writing to a state of type `σ`. The state outlives a failure. -/
abbrev Emit (σ : Type) := EStateM WriteError σ

/-- The bytes written so far, and how many there may be. -/
structure Sink where
  contents : ByteArray := .empty
  limit? : Option Nat := none

namespace Sink

instance : Inhabited Sink := ⟨{}⟩

/-- Write a text, or as much of it as fits. -/
def put (text : String) : Emit Sink Unit := fun s =>
  let bytes := text.toUTF8
  match s.limit? with
  | none => .ok () { s with contents := s.contents ++ bytes }
  | some limit =>
    let room := limit - s.contents.size
    if bytes.size ≤ room then .ok () { s with contents := s.contents ++ bytes }
    else .error .sinkFull { s with contents := s.contents ++ bytes.extract 0 room }

theorem put_of_unlimited {s : Sink} (h : s.limit? = none) (text : String) :
    put text s = .ok () { s with contents := s.contents ++ text.toUTF8 } := by
  simp [put, h]

/-- The text of the bytes from `start` on; `none` when they end inside a character. -/
def textFrom? (s : Sink) (start : Nat) : Option String :=
  String.fromUTF8? (s.contents.extract start s.contents.size)

end Sink

end ForeignDecl
