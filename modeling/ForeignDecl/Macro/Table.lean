import ForeignDecl.Location

/-!
# The macro table

Macros of the preprocessor, in the order they were first defined. A later definition of the same
name takes the place of the earlier one, so a name occurs once and keeps its position. That is what
`MacroTable.Distinct` says; a table that is filled one definition after another is distinct
(`MacroTable.Distinct.foldl_define`), and in a distinct table looking up finds every macro.
-/

set_option autoImplicit false

namespace ForeignDecl

/-- What kind of token a macro's replacement list has at some place. -/
inductive TokenKind where
  | identifier
  | number
  /-- An ordinary or UTF-8 string literal. -/
  | string
  /-- A character constant of any width. -/
  | character
  /-- Any other literal: wide strings, header names. -/
  | otherLiteral
  | punctuation
deriving DecidableEq, Repr, Inhabited

/-- Everything but names and punctuation. -/
def TokenKind.isLiteral : TokenKind → Bool
  | identifier | punctuation => false
  | number | string | character | otherLiteral => true

/-- A token of a replacement list. -/
structure MacroToken where
  kind : TokenKind
  spelling : String
  /-- Blank space came before the token. -/
  leadingSpace : Bool := true
deriving DecidableEq, Repr, Inhabited

/-- A macro and its replacement list. -/
structure MacroDefinition where
  name : String
  location? : Option Location := none
  isFunctionLike : Bool := false
  tokens : List MacroToken := []
deriving DecidableEq, Repr, Inhabited

namespace MacroDefinition

/-- Defined by the compiler and not by a header. -/
def isBuiltin (m : MacroDefinition) : Bool := m.location?.all Location.isBuiltin

/-- Tokens after the first, each with the blank before it. -/
private def followingText (t : MacroToken) : String :=
  (if t.leadingSpace then " " else "") ++ t.spelling

/-- The replacement list as it was written; blank space before its first token does not count. -/
def body (m : MacroDefinition) : String :=
  match m.tokens with
  | [] => ""
  | t :: ts => t.spelling ++ String.join (ts.map followingText)

theorem body_nil {m : MacroDefinition} (h : m.tokens = []) : m.body = "" := by
  rw [body, h]

theorem body_singleton {m : MacroDefinition} {t : MacroToken} (h : m.tokens = [t]) :
    m.body = t.spelling := by
  rw [body, h]
  exact String.append_empty

/-- Between two tokens there is a blank if there was blank space. -/
theorem body_cons_cons {m : MacroDefinition} {t t' : MacroToken} {ts : List MacroToken}
    (h : m.tokens = t :: t' :: ts) :
    m.body = t.spelling ++ (if t'.leadingSpace then " " else "") ++
      body { m with tokens := t' :: ts } := by
  simp only [body, h, followingText, List.map_cons, String.join_cons, String.append_assoc]

/-- Where the macro was defined, as text; empty when nowhere. -/
def locationText (m : MacroDefinition) : String := (m.location?.map Location.text).getD ""

end MacroDefinition

/-- Macros in the order of their first definition. -/
structure MacroTable where
  entries : List MacroDefinition := []
deriving DecidableEq, Repr, Inhabited

namespace MacroTable

/-- The macro called `name`. -/
def find? (t : MacroTable) (name : String) : Option MacroDefinition :=
  t.entries.find? (·.name = name)

/-- Put `m` where its name already stands, else at the end. -/
private def place (m : MacroDefinition) : List MacroDefinition → List MacroDefinition
  | [] => [m]
  | x :: xs => if x.name = m.name then m :: xs else x :: place m xs

/-- Define a macro, replacing an earlier definition of its name in place. -/
def define (t : MacroTable) (m : MacroDefinition) : MacroTable := ⟨place m t.entries⟩

/-- No two macros have one name. -/
def Distinct (t : MacroTable) : Prop := (t.entries.map (·.name)).Nodup

instance (t : MacroTable) : Decidable t.Distinct :=
  inferInstanceAs (Decidable (t.entries.map (·.name)).Nodup)

theorem distinct_empty : ({} : MacroTable).Distinct := List.nodup_nil

private theorem name_mem_place {m : MacroDefinition} {ms : List MacroDefinition} {name : String} :
    name ∈ (place m ms).map (·.name) ↔ name = m.name ∨ name ∈ ms.map (·.name) := by
  induction ms with
  | nil => simp [place]
  | cons x xs ih =>
    rw [place]
    split
    · next hx => simp [hx]
    · rw [List.map_cons, List.mem_cons, ih, List.map_cons, List.mem_cons, or_left_comm]

/-- Tables that are filled one definition after another have one macro for a name. -/
theorem Distinct.define {t : MacroTable} (h : t.Distinct) (m : MacroDefinition) :
    (t.define m).Distinct := by
  show ((place m t.entries).map (·.name)).Nodup
  unfold Distinct at h
  generalize t.entries = ms at h ⊢
  induction ms with
  | nil => simp [place]
  | cons x xs ih =>
    rw [List.map_cons, List.nodup_cons] at h
    rw [place]
    split
    · next hx => rwa [List.map_cons, List.nodup_cons, ← hx]
    · next hx =>
      rw [List.map_cons, List.nodup_cons, name_mem_place]
      exact ⟨fun hmem => hmem.elim hx h.1, ih h.2⟩

theorem Distinct.foldl_define {t : MacroTable} (h : t.Distinct) (ms : List MacroDefinition) :
    (ms.foldl MacroTable.define t).Distinct := by
  induction ms generalizing t with
  | nil => exact h
  | cons m ms ih => exact ih (h.define m)

/-- Of a table without repeated names, looking up finds every macro. -/
theorem Distinct.find?_eq_some_iff {t : MacroTable} (h : t.Distinct) {name : String}
    {m : MacroDefinition} : t.find? name = some m ↔ m ∈ t.entries ∧ m.name = name := by
  show t.entries.find? (·.name = name) = some m ↔ _
  unfold Distinct at h
  generalize t.entries = ms at h ⊢
  induction ms with
  | nil => simp
  | cons x xs ih =>
    rw [List.map_cons, List.nodup_cons] at h
    rw [List.find?_cons]
    by_cases hx : x.name = name
    · -- The first one has the name, so none behind it does.
      have hnone : ∀ y ∈ xs, y.name ≠ name := by
        intro y hy hname
        exact h.1 (hx.trans hname.symm ▸ List.mem_map_of_mem hy)
      simp only [hx, decide_true, Option.some.injEq, List.mem_cons]
      constructor
      · rintro rfl
        exact ⟨.inl rfl, hx⟩
      · rintro ⟨rfl | hm, hname⟩
        · rfl
        · exact absurd hname (hnone m hm)
    · simp only [hx, decide_false, ih h.2, List.mem_cons]
      constructor
      · rintro ⟨hm, hname⟩
        exact ⟨.inr hm, hname⟩
      · rintro ⟨rfl | hm, hname⟩
        · exact absurd hname hx
        · exact ⟨hm, hname⟩

/-- The number of macros. -/
def size (t : MacroTable) : Nat := t.entries.length

/-- No macro is defined. -/
def isEmpty (t : MacroTable) : Bool := t.entries.isEmpty

/-- Where the macro called `name` was defined. -/
def location? (t : MacroTable) (name : String) : Option Location :=
  (t.find? name).bind (·.location?)

end MacroTable

end ForeignDecl
