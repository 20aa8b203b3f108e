import Mathlib.Order.Bounds.Basic
import Mathlib.Order.MinMax
import ForeignDecl.Macro.Guess

/-!
# What a macro reaches

The search behind `guess?` shares one set of visited names along its whole way, ends at the first
token that fits no constant, and lets a macro it meets again contribute nothing. What the search
answers about a macro half way through therefore means little by itself. `Suggests` is the answer
without any search: it looks at all macros that can be reached from a name, in no order.

The search is compared with it through `Surveys`, which relates a survey to any later one and
composes: every name that is visited in the later survey and was not in the earlier one has all its
tokens met *in the later one*. A name that is visited but still being looked into is visited in both,
so the relation says nothing about it, and it has to say nothing.
-/

set_option autoImplicit false

namespace ForeignDecl

/-! ## The order of types -/

namespace ConstantType

theorem rank_injective : Function.Injective rank := by
  intro a b h
  cases a <;> cases b <;> first | rfl | cases h

/-- From narrow to wide. Being a linear order, it has a maximum of any two types, which is what the search
computes (`widest_eq_max`). -/
instance : LinearOrder ConstantType := LinearOrder.lift' rank rank_injective

/-- An `int` is the least type, with which every search begins. -/
theorem int_le (type : ConstantType) : int ≤ type := Nat.zero_le type.rank

/-- The wider of two types is their maximum, so the order in which types are met makes no difference. -/
theorem widest_eq_max (a b : ConstantType) : a.widest b = max a b := by
  by_cases h : a ≤ b
  · rw [max_eq_right h]
    exact if_pos h
  · rw [max_eq_left (le_of_not_ge h)]
    exact if_neg h

end ConstantType

/-! ## Tokens and macros by themselves -/

/-- The type that a token suggests. Names suggest none themselves; the macros that they name do. -/
def MacroToken.type? (token : MacroToken) : Option ConstantType :=
  match token.kind with
  | .number => Literal.type? token.spelling
  | .string => some .string
  | .character => some .unsignedLongLong
  | .identifier | .otherLiteral | .punctuation => none

/-- No constant has this token in its definition: it is a literal that is not understood. Names and
punctuation are never unfit, not even a name that no macro has. -/
def MacroToken.IsUnfit (token : MacroToken) : Prop :=
  token.kind = .otherLiteral ∨ token.kind = .number ∧ Literal.type? token.spelling = none

/-- No constant is defined with this macro, whatever else the macro reaches. One such macro is enough
for a search to give up. -/
def MacroDefinition.IsUnfit (m : MacroDefinition) : Prop :=
  m.isFunctionLike ∨ m.tokens = [] ∨ ∃ token ∈ m.tokens, token.IsUnfit

namespace MacroTable

variable {t : MacroTable} {name : String} {m m' : MacroDefinition} {token : MacroToken}

/-! ## The answer without a search -/

/-- The token is the name of the macro. A name that no macro has is not an error: it may be a variable
or a keyword. -/
def Names (t : MacroTable) (token : MacroToken) (m : MacroDefinition) : Prop :=
  token.kind = .identifier ∧ t.find? token.spelling = some m

/-- The macro called `name`, and every macro that is named in one of these. A macro may reach itself. A
search follows the same names, but in an order and with marks for what it has visited; here there is
neither, so whatever a search is shown to answer in terms of it does not depend on the order. -/
inductive Reaches (t : MacroTable) (name : String) : MacroDefinition → Prop where
  | found {m : MacroDefinition} (h : t.find? name = some m) : Reaches t name m
  | named {m m' : MacroDefinition} {token : MacroToken} (hm : Reaches t name m)
    (htoken : token ∈ m.tokens) (h : t.Names token m') : Reaches t name m'

/-- The types that the tokens of all these macros suggest. It is a set, in which order and repetition do
not show. -/
def reachedTypes (t : MacroTable) (name : String) : Set ConstantType :=
  { type | ∃ m, t.Reaches name m ∧ ∃ token ∈ m.tokens, token.type? = some type }

/-- What the macros that are reached from `name` say about its type. There is none if there is no such
macro or one of them is unfit; otherwise the widest type counts, and an `int` is the least. There is
exactly one such answer (`Suggests.unique` and `suggests_guess?`). -/
def Suggests (t : MacroTable) (name : String) : Option ConstantType → Prop
  | none => t.find? name = none ∨ ∃ m, t.Reaches name m ∧ m.IsUnfit
  | some type => (∃ m, t.find? name = some m) ∧ (∀ m, t.Reaches name m → ¬m.IsUnfit) ∧
    IsGreatest (insert .int (t.reachedTypes name)) type

theorem name_of_find? (h : t.find? name = some m) : m.name = name := by
  have hname := List.find?_some h
  simpa using hname

theorem Names.name_eq (h : t.Names token m) : m.name = token.spelling := name_of_find? h.2

/-- What is reached is in the table and is not forgotten: it is what its name stands for. -/
theorem Reaches.find? (h : t.Reaches name m) : t.find? m.name = some m := by
  cases h with
  | found h => rwa [name_of_find? h]
  | named _ _ h => rw [h.name_eq, h.2]

theorem Reaches.trans (h : t.Reaches name m) (h' : t.Reaches m.name m') : t.Reaches name m' := by
  induction h' with
  | found h' =>
    rw [h.find?] at h'
    cases h'
    exact h
  | named _ htoken hnames ih => exact .named ih htoken hnames

/-- There is one answer. It cannot be none as well as a type, and a set has one greatest element. -/
theorem Suggests.unique {a b : Option ConstantType} (ha : t.Suggests name a)
    (hb : t.Suggests name b) : a = b := by
  have hexcludes : ∀ {type}, t.Suggests name none → ¬t.Suggests name (some type) := by
    rintro type (hnone | ⟨m, hm, hunfit⟩) ⟨⟨m', hfind⟩, hfit, _⟩
    · rw [hnone] at hfind
      cases hfind
    · exact hfit m hm hunfit
  cases a with
  | none =>
    cases b with
    | none => rfl
    | some _ => exact absurd hb (hexcludes ha)
  | some type =>
    cases b with
    | none => exact absurd ha (hexcludes hb)
    | some type' => rw [ha.2.2.unique hb.2.2]

/-! ## What a search keeps -/

/-- A survey has met a token: the token is fit, its type counts, and the macro that it names was looked
into. To be looked into may mean that it still is. -/
structure Meets (t : MacroTable) (s : Survey) (token : MacroToken) : Prop where
  fit : ¬token.IsUnfit
  le : ∀ type ∈ token.type?, type ≤ s.type
  visited : ∀ m, t.Names token m → m.name ∈ s.visited

/-- A survey has met a macro and all of its tokens, and found nothing about it that makes a search give
up. A search that comes to its end has settled every macro that it visited, which is why it can have
missed none that is reached. -/
structure Settles (t : MacroTable) (s : Survey) (m : MacroDefinition) : Prop where
  plain : m.isFunctionLike = false
  nonempty : m.tokens ≠ []
  meets : ∀ token ∈ m.tokens, t.Meets s token

theorem Settles.not_isUnfit {s : Survey} (h : t.Settles s m) : ¬m.IsUnfit := by
  rintro (hfunction | hempty | ⟨token, htoken, hunfit⟩)
  · rw [h.plain] at hfunction
    cases hfunction
  · exact h.nonempty hempty
  · exact (h.meets token htoken).fit hunfit

/-- Between two surveys of a search from `name`, the first before the second. What was visited in
between is settled by the second one, and the type grew only by what was met. -/
structure Surveys (t : MacroTable) (name : String) (s s' : Survey) : Prop where
  visited : ∀ x ∈ s.visited, x ∈ s'.visited
  le : s.type ≤ s'.type
  settles : ∀ x ∈ s'.visited, x ∈ s.visited ∨ ∃ m, t.find? x = some m ∧ t.Settles s' m
  type : s'.type = s.type ∨ s'.type ∈ t.reachedTypes name

section Surveys

variable {s s' s'' : Survey}

theorem Meets.mono (h : t.Meets s token) (h' : t.Surveys name s s') : t.Meets s' token where
  fit := h.fit
  le type htype := (h.le type htype).trans h'.le
  visited m hm := h'.visited _ (h.visited m hm)

/-- A macro that was settled stays settled, as its tokens stay met. -/
theorem Settles.mono (h : t.Settles s m) (h' : t.Surveys name s s') : t.Settles s' m where
  plain := h.plain
  nonempty := h.nonempty
  meets token htoken := (h.meets token htoken).mono h'

theorem Surveys.refl (s : Survey) : t.Surveys name s s :=
  ⟨fun _ hx => hx, le_rfl, fun _ hx => .inl hx, .inl rfl⟩

/-- One part of a search after another. What the first part settled is settled by the second survey as
well. -/
theorem Surveys.trans (h : t.Surveys name s s') (h' : t.Surveys name s' s'') :
    t.Surveys name s s'' where
  visited x hx := h'.visited x (h.visited x hx)
  le := h.le.trans h'.le
  settles x hx := by
    rcases h'.settles x hx with hx | hsettled
    · rcases h.settles x hx with hx | ⟨m, hm, hsettled⟩
      · exact .inl hx
      · exact .inr ⟨m, hm, hsettled.mono h'⟩
    · exact .inr hsettled
  type := by
    rcases h'.type with hsame | hreached
    · rw [hsame]
      exact h.type
    · exact .inr hreached

/-- A token with a type is met by counting the type. -/
theorem surveys_meet {type : ConstantType} (hm : t.Reaches name m) (htoken : token ∈ m.tokens)
    (htype : token.type? = some type) : t.Surveys name s (s.meet type) where
  visited _ hx := hx
  le := by
    show s.type ≤ s.type.widest type
    rw [ConstantType.widest_eq_max]
    exact le_max_left _ _
  settles _ hx := .inl hx
  type := by
    show s.type.widest type = s.type ∨ s.type.widest type ∈ _
    rw [ConstantType.widest_eq_max]
    rcases max_choice s.type type with h | h
    · exact .inl h
    · rw [h]
      exact .inr ⟨m, hm, token, htoken, htype⟩

theorem le_type_meet (s : Survey) (type : ConstantType) : type ≤ (s.meet type).type := by
  show type ≤ s.type.widest type
  rw [ConstantType.widest_eq_max]
  exact le_max_right _ _

/-- When all its tokens were met, a macro that was marked as visited before them is settled. So the
mark, for which the relation between the two surveys could say nothing, is made good at the end. -/
theorem Surveys.of_mark (hm : t.find? m.name = some m)
    (h : t.Surveys name { s with visited := s.visited.insert m.name } s') (hs : t.Settles s' m) :
    t.Surveys name s s' where
  visited x hx := h.visited x (OrderedSet.mem_insert.2 (.inl hx))
  le := h.le
  settles x hx := by
    rcases h.settles x hx with hx | hsettled
    · rcases OrderedSet.mem_insert.1 hx with hx | rfl
      · exact .inl hx
      · exact .inr ⟨m, hm, hs⟩
    · exact .inr hsettled
  type := h.type

end Surveys

/-! ## What a search answers -/

/-- A search gives up only if an unfit macro is reached, and its survey has `P` otherwise. -/
def Answers (t : MacroTable) (name : String) (P : Survey → Prop) : Option Survey → Prop
  | some s => P s
  | none => ∃ m, t.Reaches name m ∧ m.IsUnfit

/-- A search goes on from the survey of its first part; if the first part gave up, it has given up. -/
theorem Answers.bind {P Q : Survey → Prop} {s? : Option Survey} {f : Survey → Option Survey}
    (h : t.Answers name P s?) (hf : ∀ s, P s → t.Answers name Q (f s)) :
    t.Answers name Q (s?.bind f) := by
  cases s? with
  | none => exact h
  | some s => exact hf s h

theorem Answers.mono {P Q : Survey → Prop} {s? : Option Survey} (h : t.Answers name P s?)
    (hPQ : ∀ s, P s → Q s) : t.Answers name Q s? := by
  cases s? with
  | none => exact h
  | some s => exact hPQ s h

/-- How many macros of the table were not looked into. This is the measure that the fuel of a search is
compared with. -/
def unvisited (t : MacroTable) (s : Survey) : Nat := t.entries.countP fun m => m.name ∉ s.visited

theorem Surveys.unvisited_le {s s' : Survey} (h : t.Surveys name s s') :
    t.unvisited s' ≤ t.unvisited s := by
  refine List.countP_mono_left fun m _ hm => ?_
  simp only [decide_eq_true_eq] at hm ⊢
  exact fun hx => hm (h.visited _ hx)

/-- Looking into a new macro leaves one less to look into. -/
theorem unvisited_mark_lt {s : Survey} (hm : t.find? m.name = some m) (hnew : m.name ∉ s.visited) :
    t.unvisited { s with visited := s.visited.insert m.name } < t.unvisited s := by
  have hmem : m ∈ t.entries := List.mem_of_find?_eq_some hm
  unfold unvisited
  obtain ⟨before, behind, hentries⟩ := List.append_of_mem hmem
  rw [hentries, List.countP_append, List.countP_append, List.countP_cons, List.countP_cons]
  have hle : ∀ ms : List MacroDefinition,
      ms.countP (fun x => x.name ∉ s.visited.insert m.name) ≤
        ms.countP fun x => x.name ∉ s.visited := by
    intro ms
    refine List.countP_mono_left fun x _ hx => ?_
    simp only [decide_eq_true_eq, OrderedSet.mem_insert, not_or] at hx ⊢
    exact hx.1
  have hbefore := hle before
  have hbehind := hle behind
  have hcounted : decide (m.name ∉ s.visited) = true := by simp [hnew]
  have hmarked : decide (m.name ∉ s.visited.insert m.name) = false := by simp
  simp only [hcounted, hmarked, Bool.false_eq_true, if_false, if_true]
  omega

section Search

variable {s : Survey} {fuel : Nat}

/-- What a search relies on when it looks into a macro. A search with one unit of fuel more is built on
it (`surveyWithin_looksInto`), so the proof about tokens is not about the recursion. -/
def LooksInto (t : MacroTable) (name : String) (fuel : Nat)
    (visit : MacroDefinition → Survey → Option Survey) : Prop :=
  ∀ m s, t.Reaches name m → m.name ∉ s.visited → t.unvisited s ≤ fuel →
    t.Answers name (fun s' => t.Surveys name s s' ∧ m.name ∈ s'.visited) (visit m s)

/-- **A token at a time.** -/
theorem surveyToken_answers {visit : MacroDefinition → Survey → Option Survey}
    (hvisit : t.LooksInto name fuel visit) (hm : t.Reaches name m) (htoken : token ∈ m.tokens)
    (hfuel : t.unvisited s ≤ fuel) :
    t.Answers name (fun s' => t.Surveys name s s' ∧ t.Meets s' token)
      (t.surveyToken visit s token) := by
  -- A token that is no name, is fit and has a type, if any, that counts.
  have hmeets : ∀ {s' : Survey}, token.kind ≠ .identifier → ¬token.IsUnfit →
      (∀ type ∈ token.type?, type ≤ s'.type) → t.Meets s' token :=
    fun hkind hfit hle => ⟨hfit, hle, fun _ hnames => absurd hnames.1 hkind⟩
  have hcount : ∀ {type : ConstantType}, token.kind ≠ .identifier → ¬token.IsUnfit →
      token.type? = some type →
      t.Surveys name s (s.meet type) ∧ t.Meets (s.meet type) token := by
    intro type hkind hfit htype
    refine ⟨surveys_meet hm htoken htype, hmeets hkind hfit ?_⟩
    rw [htype]
    rintro _ ⟨⟩
    exact le_type_meet s type
  unfold surveyToken
  cases hkind : token.kind with
  | number =>
    cases htype : Literal.type? token.spelling with
    | none => exact ⟨m, hm, .inr (.inr ⟨token, htoken, .inr ⟨hkind, htype⟩⟩)⟩
    | some type =>
      refine hcount (by simp [hkind]) ?_ (by simp [MacroToken.type?, hkind, htype])
      simp [MacroToken.IsUnfit, hkind, htype]
  | string =>
    exact hcount (by simp [hkind]) (by simp [MacroToken.IsUnfit, hkind])
      (by simp [MacroToken.type?, hkind])
  | character =>
    exact hcount (by simp [hkind]) (by simp [MacroToken.IsUnfit, hkind])
      (by simp [MacroToken.type?, hkind])
  | otherLiteral => exact ⟨m, hm, .inr (.inr ⟨token, htoken, .inl hkind⟩)⟩
  | punctuation =>
    refine ⟨.refl s, hmeets (by simp [hkind]) (by simp [MacroToken.IsUnfit, hkind]) ?_⟩
    simp [MacroToken.type?, hkind]
  | identifier =>
    -- A name is met once the macro of that name, if there is one, was looked into.
    have hnamed : ∀ {s' : Survey}, (∀ m', t.find? token.spelling = some m' → m'.name ∈ s'.visited) →
        t.Meets s' token := by
      intro s' h
      refine ⟨by simp [MacroToken.IsUnfit, hkind], by simp [MacroToken.type?, hkind], ?_⟩
      exact fun m' hnames => h m' hnames.2
    dsimp only
    split
    · next hvisited =>
      refine ⟨.refl s, hnamed fun m' hfind => ?_⟩
      rwa [name_of_find? hfind]
    · next hnew =>
      cases hfind : t.find? token.spelling with
      | none => exact ⟨.refl s, hnamed fun m' hfind' => by simp [hfind] at hfind'⟩
      | some m' =>
        have hm' : t.Reaches name m' := .named hm htoken ⟨hkind, hfind⟩
        rw [← name_of_find? hfind] at hnew
        refine (hvisit m' s hm' hnew hfuel).mono fun s' hs' => ⟨hs'.1, hnamed fun m'' hfind' => ?_⟩
        rw [hfind] at hfind'
        cases hfind'
        exact hs'.2

/-- All tokens of a macro, one after another. Those that were met first are met at the end. -/
theorem foldlM_surveyToken_answers {visit : MacroDefinition → Survey → Option Survey}
    (hvisit : t.LooksInto name fuel visit) (hm : t.Reaches name m) :
    ∀ (tokens : List MacroToken) (s : Survey), (∀ token ∈ tokens, token ∈ m.tokens) →
      t.unvisited s ≤ fuel →
      t.Answers name (fun s' => t.Surveys name s s' ∧ ∀ token ∈ tokens, t.Meets s' token)
        (tokens.foldlM (t.surveyToken visit) s) := by
  intro tokens
  induction tokens with
  | nil => exact fun s _ _ => ⟨.refl s, by simp⟩
  | cons token tokens ih =>
    intro s htokens hfuel
    rw [List.forall_mem_cons] at htokens
    rw [List.foldlM_cons]
    refine (surveyToken_answers hvisit hm htokens.1 hfuel).bind fun s₁ h₁ => ?_
    refine (ih s₁ htokens.2 (h₁.1.unvisited_le.trans hfuel)).mono fun s₂ h₂ => ?_
    refine ⟨h₁.1.trans h₂.1, fun token' htoken' => ?_⟩
    rcases List.mem_cons.1 htoken' with rfl | htoken'
    · exact h₁.2.mono h₂.1
    · exact h₂.2 token' htoken'

/-- **A macro at a time**, as long as the fuel is not less than the macros that are left. -/
theorem surveyWithin_looksInto : ∀ fuel : Nat, t.LooksInto name fuel (t.surveyWithin fuel)
  | 0 => by
    intro m s hm hnew hfuel
    have hless := unvisited_mark_lt hm.find? hnew
    omega
  | fuel + 1 => by
    intro m s hm hnew hfuel
    unfold surveyWithin
    split
    · next hunfit =>
      rw [Bool.or_eq_true, List.isEmpty_iff] at hunfit
      refine ⟨m, hm, ?_⟩
      exact hunfit.elim .inl fun hempty => .inr (.inl hempty)
    · next hfit =>
      rw [Bool.or_eq_true, List.isEmpty_iff, not_or, Bool.not_eq_true] at hfit
      have hless := unvisited_mark_lt hm.find? hnew
      refine (foldlM_surveyToken_answers (surveyWithin_looksInto fuel) hm m.tokens _
        (fun _ htoken => htoken) (by omega)).mono fun s' hs' => ?_
      have hsettled : t.Settles s' m := ⟨hfit.1, hfit.2, hs'.2⟩
      refine ⟨.of_mark hm.find? hs'.1 hsettled, ?_⟩
      exact hs'.1.visited _ (OrderedSet.mem_insert.2 (.inr rfl))

end Search

/-- A search that started with nothing and has the first macro behind it has settled everything that is
reached. By induction on how a macro is reached: what names it is settled, so it was looked into, and
what was looked into since the start is settled. -/
theorem Surveys.settles_of_reaches {s : Survey} (h : t.Surveys name {} s)
    (hroot : ∀ m, t.find? name = some m → m.name ∈ s.visited) (hm : t.Reaches name m) :
    t.Settles s m := by
  have hsettles : ∀ {m}, t.Reaches name m → m.name ∈ s.visited → t.Settles s m := by
    intro m hm hvisited
    rcases h.settles _ hvisited with hnone | ⟨m', hfind, hsettled⟩
    · cases hnone
    · rw [hm.find?] at hfind
      cases hfind
      exact hsettled
  apply hsettles hm
  induction hm with
  | found hfind => exact hroot _ hfind
  | named hm htoken hnames ih => exact ((hsettles hm ih).meets _ htoken).visited _ hnames

/-- **The search gives the answer that needs no search.** -/
theorem suggests_guess? (t : MacroTable) (name : String) : t.Suggests name (t.guess? name) := by
  unfold guess?
  cases hfind : t.find? name with
  | none => exact .inl hfind
  | some m =>
    have hm : t.Reaches name m := .found hfind
    have hsize : t.unvisited {} ≤ t.size + 1 :=
      (List.countP_le_length (l := t.entries)).trans (Nat.le_succ t.size)
    -- There is fuel for every macro of the table and one more, and nothing is visited yet.
    have hsearch := surveyWithin_looksInto (t.size + 1) m {} hm (by rintro ⟨⟩) hsize
    show t.Suggests name ((t.surveyWithin (t.size + 1) m {}).bind fun s => some s.type)
    cases hs : t.surveyWithin (t.size + 1) m {} with
    | none =>
      rw [hs] at hsearch
      exact .inr hsearch
    | some s =>
      rw [hs] at hsearch
      obtain ⟨hsurveys, hvisited⟩ := hsearch
      have hsettles : ∀ {m}, t.Reaches name m → t.Settles s m := by
        intro m' hm'
        refine hsurveys.settles_of_reaches (fun m'' hfind' => ?_) hm'
        rw [hfind] at hfind'
        cases hfind'
        exact hvisited
      refine ⟨⟨m, hfind⟩, fun m' hm' => (hsettles hm').not_isUnfit, ?_, ?_⟩
      · -- The type of the survey is the one it started with, or was met on the way.
        rcases hsurveys.type with hsame | hreached
        · exact .inl hsame
        · exact .inr hreached
      · rintro type (rfl | ⟨m', hm', token, htoken, htype⟩)
        · exact ConstantType.int_le _
        · exact ((hsettles hm').meets token htoken).le type htype

theorem guess?_eq_iff {answer : Option ConstantType} :
    t.guess? name = answer ↔ t.Suggests name answer := by
  constructor
  · rintro rfl
    exact suggests_guess? t name
  · exact fun h => (suggests_guess? t name).unique h

end MacroTable

/-! ## Order plays no part -/

/-- The same macro with its tokens in some order; where it was defined does not matter. -/
structure MacroDefinition.Rearranges (m m' : MacroDefinition) : Prop where
  name : m'.name = m.name
  isFunctionLike : m'.isFunctionLike = m.isFunctionLike
  tokens : m'.tokens.Perm m.tokens

namespace MacroDefinition

variable {m m' : MacroDefinition}

theorem Rearranges.isUnfit (h : m.Rearranges m') (hunfit : m.IsUnfit) : m'.IsUnfit := by
  rcases hunfit with hfunction | hempty | ⟨token, htoken, hunfit⟩
  · exact .inl (h.isFunctionLike.trans hfunction)
  · refine .inr (.inl (List.Perm.eq_nil ?_))
    rw [← hempty]
    exact h.tokens
  · exact .inr (.inr ⟨token, h.tokens.mem_iff.2 htoken, hunfit⟩)

end MacroDefinition

namespace MacroTable

/-- The same macros in some order, each of them with its tokens in some order. -/
structure Rearranges (t t' : MacroTable) : Prop where
  forth : ∀ m ∈ t.entries, ∃ m' ∈ t'.entries, m.Rearranges m'
  back : ∀ m' ∈ t'.entries, ∃ m ∈ t.entries, m'.Rearranges m

section Rearranged

variable {t t' : MacroTable} {name : String} {m : MacroDefinition}

/-- It goes both ways, so one direction of each of the following is enough. -/
theorem Rearranges.symm (h : t.Rearranges t') : t'.Rearranges t := ⟨h.back, h.forth⟩

/-- A macro is found in the rearranged table as well, since no other one has its name. -/
theorem Rearranges.find? (h : t.Rearranges t') (ht' : t'.Distinct) (hm : t.find? name = some m) :
    ∃ m', t'.find? name = some m' ∧ m.Rearranges m' := by
  obtain ⟨m', hm', hsame⟩ := h.forth m (List.mem_of_find?_eq_some hm)
  refine ⟨m', ht'.find?_eq_some_iff.2 ⟨hm', ?_⟩, hsame⟩
  rw [hsame.name, name_of_find? hm]

/-- The rearranged table reaches the same macros, with their tokens in another order. -/
theorem Rearranges.reaches (h : t.Rearranges t') (ht' : t'.Distinct) (hm : t.Reaches name m) :
    ∃ m', t'.Reaches name m' ∧ m.Rearranges m' := by
  induction hm with
  | found hfind =>
    obtain ⟨m', hfind', hsame⟩ := h.find? ht' hfind
    exact ⟨m', .found hfind', hsame⟩
  | named _ htoken hnames ih =>
    obtain ⟨m', hm', hsame⟩ := ih
    obtain ⟨m'', hfind', hsame'⟩ := h.find? ht' hnames.2
    exact ⟨m'', .named hm' (hsame.tokens.mem_iff.2 htoken) ⟨hnames.1, hfind'⟩, hsame'⟩

theorem Rearranges.reachedTypes_subset (h : t.Rearranges t') (ht' : t'.Distinct) :
    t.reachedTypes name ⊆ t'.reachedTypes name := by
  rintro type ⟨m, hm, token, htoken, htype⟩
  obtain ⟨m', hm', hsame⟩ := h.reaches ht' hm
  exact ⟨m', hm', token, hsame.tokens.mem_iff.2 htoken, htype⟩

/-- **The answer without a search does not depend on order.** Everything it is made of is a set. -/
theorem Rearranges.suggests (h : t.Rearranges t') (ht : t.Distinct) (ht' : t'.Distinct)
    {answer : Option ConstantType} (hanswer : t.Suggests name answer) :
    t'.Suggests name answer := by
  cases answer with
  | none =>
    rcases hanswer with hnone | ⟨m, hm, hunfit⟩
    · -- What can be looked up there could be looked up here.
      cases hfind : t'.find? name with
      | none => exact .inl hfind
      | some m' =>
        obtain ⟨m, hm, _⟩ := h.symm.find? ht hfind
        rw [hnone] at hm
        cases hm
    · obtain ⟨m', hm', hsame⟩ := h.reaches ht' hm
      exact .inr ⟨m', hm', hsame.isUnfit hunfit⟩
  | some type =>
    obtain ⟨⟨m, hfind⟩, hfit, hgreatest⟩ := hanswer
    obtain ⟨m', hfind', _⟩ := h.find? ht' hfind
    refine ⟨⟨m', hfind'⟩, fun m' hm' hunfit => ?_, ?_⟩
    · obtain ⟨m, hm, hsame⟩ := h.symm.reaches ht hm'
      exact hfit m hm (hsame.isUnfit hunfit)
    · have htypes : t'.reachedTypes name = t.reachedTypes name :=
        (h.symm.reachedTypes_subset ht).antisymm (h.reachedTypes_subset ht')
      rwa [htypes]

end Rearranged

/-- **The guess says what the reachable macros suggest, in whatever order they are looked into**: it is
the answer that is told without a search, and so it does not change when macros of the table or tokens
of macros change places. -/
theorem guess?_order_free (t : MacroTable) (name : String) :
    (∀ answer, t.guess? name = answer ↔ t.Suggests name answer) ∧
      ∀ t' : MacroTable, t.Distinct → t'.Distinct → t.Rearranges t' →
        t'.guess? name = t.guess? name := by
  refine ⟨fun answer => guess?_eq_iff, fun t' ht ht' h => ?_⟩
  exact guess?_eq_iff.2 (h.suggests ht ht' (suggests_guess? t name))

/-- `A` and `B` mention each other, `A` itself too, and both mention `C`, which is met only on the way
through `B` when the tokens of `A` are taken in order. -/
def tangled : MacroTable where
  entries := [
    { name := "A", tokens := [⟨.identifier, "A", true⟩, ⟨.identifier, "B", true⟩,
      ⟨.punctuation, "+", true⟩, ⟨.identifier, "C", true⟩, ⟨.identifier, "size", true⟩] },
    { name := "B", tokens := [⟨.identifier, "C", true⟩, ⟨.number, "2u", true⟩,
      ⟨.identifier, "A", true⟩] },
    { name := "C", tokens := [⟨.number, "1.5", true⟩] }]

/-- The same macros, the last one first, with their tokens the other way round. -/
def untangled : MacroTable where
  entries := (tangled.entries.map fun m => { m with tokens := m.tokens.reverse }).reverse

/-- The type of `C`, the widest one, is found on either way. -/
theorem guess?_order_free_tangled :
    tangled.Suggests "A" (some .float) ∧
      tangled.Distinct ∧ untangled.Distinct ∧ tangled.Rearranges untangled ∧
      untangled.guess? "A" = tangled.guess? "A" := by
  have hguess : tangled.guess? "A" = some .float := by decide +kernel
  have hrearranges : tangled.Rearranges untangled := by
    constructor
    · intro m hm
      refine ⟨{ m with tokens := m.tokens.reverse }, ?_, rfl, rfl, List.reverse_perm _⟩
      exact List.mem_reverse.2 (List.mem_map_of_mem hm)
    · intro m' hm'
      obtain ⟨m, hm, rfl⟩ := List.mem_map.1 (List.mem_reverse.1 hm')
      exact ⟨m, hm, rfl, rfl, (List.reverse_perm _).symm⟩
  have ht : tangled.Distinct := by decide
  have ht' : untangled.Distinct := by decide
  obtain ⟨hsuggests, horder⟩ := guess?_order_free tangled "A"
  exact ⟨(hsuggests _).1 hguess, ht, ht', hrearranges, horder untangled ht ht' hrearranges⟩

end MacroTable

end ForeignDecl
