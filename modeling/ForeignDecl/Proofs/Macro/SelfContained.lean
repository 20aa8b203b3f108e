import Mathlib.Data.List.Forall2
import ForeignDecl.Macro.Fragment
import ForeignDecl.Proofs.Macro.Reach

/-!
# The fragment stands on its own

The piece of C with definitions has a directive for every constant and behind them a declaration for
every constant (`fragment_selfContained`). What such a directive and such a declaration look like is said
here once more, without the functions that write them: `IsDefinition` and `DeclaresConstant` give the
texts, and `Spells` the text of a replacement list.

Every macro is judged by a search of its own, and nobody compares the macros that came through. That
the definitions which are written need no others rests on the reach of a macro: what a macro names
reaches no more than the macro itself, so it is not less fit (`exists_guess?_of_names`).
-/

set_option autoImplicit false

namespace ForeignDecl

namespace MacroTable

variable {t : MacroTable} {m m' : MacroDefinition} {type : ConstantType} {token : MacroToken}

/-- The macro is from a header, takes no arguments and stands for a constant. It is a test, so that the
constants of a table can be filtered by it and keep the order of the table. -/
def IsConstant (t : MacroTable) (m : MacroDefinition) : Bool :=
  !m.isBuiltin && !m.isFunctionLike && (t.guess? m.name).isSome

/-! ## The constants of a table -/

/-- What it takes to be written as a constant, and as which type. -/
theorem mem_constants_iff :
    (m, type) ∈ t.constants ↔ m ∈ t.entries ∧ m.isBuiltin = false ∧ m.isFunctionLike = false ∧
      t.guess? m.name = some type := by
  unfold constants
  rw [List.mem_filterMap]
  constructor
  · rintro ⟨m', hm', h⟩
    split at h
    · cases h
    · next hplain =>
      rw [Bool.or_eq_true, not_or, Bool.not_eq_true, Bool.not_eq_true] at hplain
      obtain ⟨type', htype, heq⟩ := Option.map_eq_some_iff.1 h
      cases heq
      exact ⟨hm', hplain.1, hplain.2, htype⟩
  · rintro ⟨hm, hbuiltin, hfunction, htype⟩
    exact ⟨m, hm, by simp [hbuiltin, hfunction, htype]⟩

/-- They stand in the order of the table. -/
theorem map_fst_constants (t : MacroTable) : t.constants.map Prod.fst = t.entries.filter t.IsConstant := by
  unfold constants
  rw [List.map_filterMap, ← List.filterMap_eq_filter]
  refine List.filterMap_congr fun m _ => ?_
  unfold IsConstant Option.guard
  cases hbuiltin : m.isBuiltin with
  | true => simp [hbuiltin]
  | false =>
    cases hfunction : m.isFunctionLike with
    | true => simp [hfunction]
    | false => cases hguess : t.guess? m.name <;> simp [hbuiltin, hfunction, hguess]

/-- No constant is written twice, as no name is defined twice. -/
theorem Distinct.nodup_constants (h : t.Distinct) : (t.constants.map (·.1.name)).Nodup := by
  have hnames : t.constants.map (·.1.name) = (t.entries.filter t.IsConstant).map (·.name) := by
    rw [← map_fst_constants, List.map_map]
    rfl
  rw [hnames]
  exact List.Nodup.sublist (List.filter_sublist.map _) h

/-! ## What constants name -/

/-- What a macro names stands for a constant if the macro does. -/
theorem exists_guess?_of_names (hm : t.find? m.name = some m) (hguess : t.guess? m.name = some type)
    (htoken : token ∈ m.tokens) (hnames : t.Names token m') :
    m'.isFunctionLike = false ∧ ∃ type', t.guess? m'.name = some type' := by
  obtain ⟨_, hfit, _⟩ := guess?_eq_iff.1 hguess
  have hm' : t.Reaches m.name m' := .named (.found hm) htoken hnames
  constructor
  · by_contra hfunction
    exact hfit m' hm' (.inl (by simpa using hfunction))
  · cases hguess' : t.guess? m'.name with
    | some type' => exact ⟨type', rfl⟩
    | none =>
      rcases guess?_eq_iff.1 hguess' with hnone | ⟨m'', hm'', hunfit⟩
      · rw [hm'.find?] at hnone
        cases hnone
      · exact absurd hunfit (hfit m'' (hm'.trans hm''))

/-- A constant names only constants and macros that the compiler defines. -/
theorem Distinct.mem_constants_of_names (h : t.Distinct) (hm : (m, type) ∈ t.constants)
    (htoken : token ∈ m.tokens) (hnames : t.Names token m') :
    m'.isBuiltin ∨ ∃ type', (m', type') ∈ t.constants := by
  obtain ⟨hentry, _, _, hguess⟩ := mem_constants_iff.1 hm
  have hfind : t.find? m.name = some m := h.find?_eq_some_iff.2 ⟨hentry, rfl⟩
  obtain ⟨hfunction, type', hguess'⟩ := exists_guess?_of_names hfind hguess htoken hnames
  by_cases hbuiltin : m'.isBuiltin = true
  · exact .inl hbuiltin
  · rw [Bool.not_eq_true] at hbuiltin
    refine .inr ⟨type', mem_constants_iff.2 ⟨?_, hbuiltin, hfunction, hguess'⟩⟩
    exact List.mem_of_find?_eq_some hnames.2

/-! ## The text -/

/-- Texts of replacement lists: the spellings of the tokens, with a blank between two of them where blank
space was. Blank space before the first token is not part of the list. -/
inductive Spells : List MacroToken → String → Prop
  | nil : Spells [] ""
  | singleton (t : MacroToken) : Spells [t] t.spelling
  | cons {t t' : MacroToken} {ts : List MacroToken} {text : String} (following : Spells (t' :: ts) text) :
      Spells (t :: t' :: ts) (t.spelling ++ (if t'.leadingSpace then " " else "") ++ text)

/-- The text that is written for a replacement list is one that spells it. Induction on the tokens: the
body of a macro without its first token is that of another macro. -/
theorem spells_body (m : MacroDefinition) : Spells m.tokens m.body := by
  generalize htokens : m.tokens = tokens
  induction tokens generalizing m with
  | nil => exact MacroDefinition.body_nil htokens ▸ .nil
  | cons t ts ih =>
    cases ts with
    | nil => exact MacroDefinition.body_singleton htokens ▸ .singleton t
    | cons t' ts =>
      rw [MacroDefinition.body_cons_cons htokens]
      exact .cons (ih { m with tokens := t' :: ts } rfl)

/-- The text defines the macro `m` once more: behind a comment with the place where it was defined, a
directive gives its name its replacement list. -/
def IsDefinition (m : MacroDefinition) (text : String) : Prop :=
  ∃ place body, m.location? = some place ∧ Spells m.tokens body ∧
    text = "/* " ++ place.file ++ ":" ++ toString place.line ++ ":" ++ toString place.column ++
      " */\n#define " ++ m.name ++ " " ++ body ++ "\n\n"

/-- The types in C of the variables that stand for constants. -/
def declaredTypes : List (ConstantType × String) :=
  [(.int, "long"), (.unsigned, "unsigned long"), (.longLong, "long long"),
    (.unsignedLongLong, "unsigned long long"), (.float, "double"), (.string, "char*")]

/-- The text declares the variable for the macro `m`, whose name is the macro's behind a reserved prefix,
and initializes it with the macro. -/
def DeclaresConstant (m : MacroDefinition) (type : ConstantType) (text : String) : Prop :=
  ∃ spelling, (type, spelling) ∈ declaredTypes ∧
    text = "const " ++ spelling ++ " __bindscan_" ++ m.name ++ " = " ++ m.name ++ ";\n"

/-- What is written as the definition of a macro defines it. A macro that is not from the compiler has a
place, which the comment tells. -/
theorem isDefinition_definitionText (h : m.isBuiltin = false) : IsDefinition m m.definitionText := by
  cases hplace : m.location? with
  | none => simp [MacroDefinition.isBuiltin, hplace] at h
  | some place =>
    refine ⟨place, m.body, hplace, spells_body m, ?_⟩
    simp only [MacroDefinition.definitionText, MacroDefinition.locationText, hplace, Option.map_some,
      Option.getD_some, Location.text, String.append_assoc]

/-- What is written as the variable of a macro declares it, with the type that was guessed. -/
theorem declaresConstant_constantText (m : MacroDefinition) (type : ConstantType) :
    DeclaresConstant m type (m.constantText type) := by
  refine ⟨constantSpelling (some type), by cases type <;> decide, ?_⟩
  have hprefix (s : String) : " " ++ (constantNamePrefix ++ s) = " __bindscan_" ++ s := by
    rw [← String.append_assoc]
    rfl
  simp only [MacroDefinition.constantText, constantName, String.append_assoc, hprefix]

/-- **The fragment with definitions is self-contained.** It consists of a definition for each of some
macros and then of a variable for each of them, the macros being those from headers that stand for a
constant, each once and in the order of the table; and whatever a definition names is a macro of the
compiler or defined there too. Writing it tells how many variables there are. -/
theorem fragment_selfContained (t : MacroTable) (ht : t.Distinct) :
    let cs := t.constants
    (∃ definitions declarations : List String,
      t.fragment true = String.join definitions ++ String.join declarations ∧
        List.Forall₂ (fun c text => IsDefinition c.1 text) cs definitions ∧
        List.Forall₂ (fun c text => DeclaresConstant c.1 c.2 text) cs declarations) ∧
      cs.map Prod.fst = t.entries.filter t.IsConstant ∧ (cs.map (·.1.name)).Nodup ∧
      (∀ c ∈ cs, t.guess? c.1.name = some c.2) ∧
      (∀ c ∈ cs, ∀ token ∈ c.1.tokens, ∀ m, t.Names token m →
        m.isBuiltin ∨ m ∈ cs.map Prod.fst) ∧
      ∀ sink : Sink, sink.limit? = none → t.writeConstants true sink =
        .ok cs.length { sink with contents := sink.contents ++ (t.fragment true).toUTF8 } := by
  intro cs
  refine ⟨⟨_, _, String.join_append, ?_, ?_⟩, map_fst_constants t, ht.nodup_constants, ?_, ?_, ?_⟩
  · rw [if_pos rfl, List.forall₂_map_right_iff, List.forall₂_same]
    rintro ⟨m, type⟩ hc
    exact isDefinition_definitionText (mem_constants_iff.1 hc).2.1
  · rw [List.forall₂_map_right_iff, List.forall₂_same]
    exact fun c _ => declaresConstant_constantText c.1 c.2
  · rintro ⟨m, type⟩ hc
    exact (mem_constants_iff.1 hc).2.2.2
  · rintro ⟨m, type⟩ hc token htoken m' hnames
    rcases ht.mem_constants_of_names hc htoken hnames with hbuiltin | ⟨type', hc'⟩
    · exact .inl hbuiltin
    · exact .inr (List.mem_map.2 ⟨_, hc', rfl⟩)
  · intro sink hlimit
    unfold writeConstants
    simp only [bind, EStateM.bind, Sink.put_of_unlimited hlimit]
    rfl

/-- `A` and `B` name each other and a macro of the compiler; `C` names `D`, which takes arguments. The
first definition of `B` is forgotten. -/
def chained : MacroTable :=
  List.foldl define {} [
    { name := "A", location? := some ⟨"a.h", 1, 9⟩, tokens := [⟨.identifier, "B", true⟩] },
    { name := "__X", tokens := [⟨.number, "1", true⟩] },
    { name := "B", location? := some ⟨"a.h", 2, 9⟩, tokens := [⟨.otherLiteral, "L\"\"", true⟩] },
    { name := "C", location? := some ⟨"a.h", 3, 9⟩, tokens := [⟨.identifier, "D", true⟩] },
    { name := "D", location? := some ⟨"a.h", 4, 9⟩, isFunctionLike := true,
      tokens := [⟨.number, "2", true⟩] },
    { name := "B", location? := some ⟨"a.h", 5, 9⟩,
      tokens := [⟨.identifier, "A", true⟩, ⟨.punctuation, "+", false⟩, ⟨.identifier, "__X", true⟩] }]

/-- The first definition of `B` and the constant `C` are not written: one is forgotten, and the other
would need a macro that takes arguments. -/
theorem fragment_selfContained_chained :
    chained.Distinct ∧ chained.constants.map (·.1.name) = ["A", "B"] ∧
      chained.fragment true = "/* a.h:1:9 */\n#define A B\n\n/* a.h:5:9 */\n#define B A+ __X\n\n" ++
        "const long __bindscan_A = A;\nconst long __bindscan_B = B;\n" ∧
      (∃ definitions declarations : List String,
        chained.fragment true = String.join definitions ++ String.join declarations ∧
          List.Forall₂ (fun c text => IsDefinition c.1 text) chained.constants definitions ∧
          List.Forall₂ (fun c text => DeclaresConstant c.1 c.2 text) chained.constants declarations) ∧
      ∀ c ∈ chained.constants, ∀ token ∈ c.1.tokens, ∀ m, chained.Names token m →
        m.isBuiltin ∨ m ∈ chained.constants.map Prod.fst := by
  have ht : chained.Distinct := distinct_empty.foldl_define _
  obtain ⟨htexts, _, _, _, hnames, _⟩ := fragment_selfContained chained ht
  exact ⟨ht, by decide +kernel, by decide +kernel, htexts, hnames⟩

end MacroTable

end ForeignDecl
