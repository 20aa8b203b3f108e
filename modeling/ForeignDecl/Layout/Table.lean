import ForeignDecl.Layout.Basic

/-!
# Layout tables

Answers that were worked out elsewhere, say by a compiler. A table need not be complete: laid over
another oracle it answers what it has an entry for, an error included, and passes everything else
on. Questions are looked up by the very handles that are asked about, not by canonical ones.
-/

set_option autoImplicit false

namespace ForeignDecl.Layout

/-- Known answers, oldest first. A later entry for a question replaces the earlier ones. -/
structure Table where
  types : List (TypeId × Except LayoutError TypeLayout) := []
  records : List (DeclId × Except LayoutError RecordLayout) := []
  /-- By record and base, in bytes. -/
  bases : List ((DeclId × DeclId) × Except LayoutError Nat) := []
  /-- By record and base, in bytes. -/
  virtualBases : List ((DeclId × DeclId) × Except LayoutError Nat) := []

namespace Table

/-- The last entry for a key, else the answer of `fallback`. -/
def answer {κ α : Type} [DecidableEq κ] (entries : List (κ × Except LayoutError α)) (key : κ)
    (fallback : Except LayoutError α) : Except LayoutError α :=
  match entries.reverse.find? (·.1 = key) with
  | some (_, known) => known
  | none => fallback

/-- The table first, then `oracle`. -/
def laidOver (t : Table) (oracle : LayoutOracle) : LayoutOracle where
  type id := answer t.types id (oracle.type id)
  record d := answer t.records d (oracle.record d)
  baseOffset record base := answer t.bases (record, base) (oracle.baseOffset record base)
  virtualBaseOffset record base :=
    answer t.virtualBases (record, base) (oracle.virtualBaseOffset record base)

end Table

end ForeignDecl.Layout
