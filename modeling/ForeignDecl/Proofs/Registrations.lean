import ForeignDecl.Proofs.Registry

/-!
# Requests for numbers, one after another

A registry changes by requests only: for the number of a declaration, or for that of a declaration of C++,
which is remembered as one. A single request finds the number that was given before, or takes the next one
and changes no other (`number_register`). What a registry has to show for many requests is what was asked
for, each entity once, in the order of the first requests (`Registry.Records`), and that is kept by one more
request. So the numbers are dense and final, however the two kinds of request and the redeclarations of an
entity are mixed (`requests_numbered`).

That numbers are dense is no accident of how a registry keeps them, as positions in a list. A program keeps
a map from entities to numbers and a counter, from which alone a new number comes (`NumberTable`). It gives
the same answers, because after any requests the counter is one more than the number of entities and the
map has the number of each (`NumberTable.answers_keeps`).
-/

set_option autoImplicit false

namespace ForeignDecl

/-! ## First occurrences -/

/-- `firsts` are the elements of `as`, each once, in the order in which they first occur. There is one
such list; it is said by its properties because a registry computes it from the other end. -/
structure AreFirsts {α : Type} [DecidableEq α] (as firsts : List α) : Prop where
  nodup : firsts.Nodup
  mem_iff : ∀ a, a ∈ firsts ↔ a ∈ as
  inOrder : firsts.Pairwise fun a b => as.idxOf a < as.idxOf b

section Firsts

variable {α : Type} [DecidableEq α] {as : List α} {s : OrderedSet α}

theorem areFirsts_empty : AreFirsts [] (∅ : OrderedSet α).toList :=
  ⟨List.nodup_nil, fun _ => Iff.rfl, .nil⟩

/-- One element more is put behind all others, unless it occurred before. An ordered set does just that
when an element is inserted. -/
theorem AreFirsts.insert (h : AreFirsts as s.toList) (a : α) :
    AreFirsts (as ++ [a]) (s.insert a).toList where
  nodup := (s.insert a).nodup
  mem_iff b := by
    rw [← OrderedSet.mem_def, OrderedSet.mem_insert, OrderedSet.mem_def, h.mem_iff]
    simp
  inOrder := by
    have hindex : ∀ b ∈ s.toList, (as ++ [a]).idxOf b = as.idxOf b :=
      fun b hb => List.idxOf_append_of_mem ((h.mem_iff b).1 hb)
    have hold : s.toList.Pairwise fun b c => (as ++ [a]).idxOf b < (as ++ [a]).idxOf c := by
      refine h.inOrder.imp_of_mem fun hb hc hlt => ?_
      rwa [hindex _ hb, hindex _ hc]
    rw [OrderedSet.toList_insert]
    split
    · exact hold
    next hnew =>
    have hlast : (as ++ [a]).idxOf a = as.length := by
      have hnot : a ∉ as := fun ha => hnew ((h.mem_iff a).2 ha)
      simp [List.idxOf_append_of_notMem hnot]
    refine List.pairwise_append.2 ⟨hold, List.pairwise_singleton _ _, fun b hb c hc => ?_⟩
    obtain rfl := List.mem_singleton.1 hc
    rw [hindex b hb, hlast]
    exact List.idxOf_lt_length_of_mem ((h.mem_iff b).1 hb)

end Firsts

/-! ## One request -/

/-- What a registry may be asked for. An extraction asks for numbers of scopes, of referents and of
declarations of its own, in an order that depends on the unit; here all orders are looked at. -/
inductive Request where
  | number (d? : Option DeclId)
  /-- The number of a declaration that is to be remembered as one of C++. -/
  | classNumber (d? : Option DeclId)
deriving DecidableEq, Repr

namespace Request

/-- The declaration whose number is asked for. There is none where the scope is the global one. -/
def decl? : Request → Option DeclId
  | number d? | classNumber d? => d?

/-- The declaration that is to be remembered as one of C++. -/
def class? : Request → Option DeclId
  | number _ => none
  | classNumber d? => d?

end Request

namespace Registry

variable {r r' : Registry} {u : TranslationUnit} {d x : DeclId} {qs qs' : List Request}

/-- The answer to a request, and the registry afterwards. -/
def answer (r : Registry) (u : TranslationUnit) : Request → Nat × Registry
  | .number d? => r.register u d?
  | .classNumber d? => r.registerClass u d?

theorem size_eq : r.size = r.entities.toList.length := rfl

/-- **A request finds the number that was given, or takes the next one.** -/
theorem register_fst (r : Registry) (u : TranslationUnit) (d : DeclId) :
    (r.register u (some d)).1 = if 0 < r.number u d then r.number u d else r.size + 1 := by
  split
  · next hpos => exact (r.register_grows u (some d)).number_eq hpos
  · next hzero =>
    have hnew : u.canonical d ∉ r.entities := fun hmem => hzero (number_pos_iff.2 hmem)
    refine number_eq_succ_iff.2 ?_
    change (r.entities.insert (u.canonical d)).toList[r.size]? = _
    rw [OrderedSet.toList_insert, if_neg hnew, size_eq, List.getElem?_concat_length]

/-- **No other number changes**, and none is given but the one that was asked for. Declarations of one
entity share a number, so it is the canonical declarations that are compared. -/
theorem number_register (r : Registry) (u : TranslationUnit) (d x : DeclId) :
    (r.register u (some d)).2.number u x =
      if u.canonical x = u.canonical d then (r.register u (some d)).1 else r.number u x := by
  split
  · next heq =>
    change _ = (r.register u (some d)).2.number u d
    rw [number, number, heq]
  · next hne =>
    by_cases hpos : 0 < r.number u x
    · exact (r.register_grows u (some d)).number_eq hpos
    · have hzero : ¬ 0 < (r.register u (some d)).2.number u x := by
        intro hgiven
        rcases OrderedSet.mem_insert.1 (number_pos_iff.1 hgiven) with hmem | heq
        · exact hpos (number_pos_iff.2 hmem)
        · exact hne heq
      omega

theorem answer_grows (r : Registry) (u : TranslationUnit) (q : Request) :
    r.Grows (r.answer u q).2 := by
  cases q with
  | number d? => exact r.register_grows u d?
  | classNumber d? => exact r.registerClass_grows u d?

/-- The answer is the number of the declaration from then on; no declaration has the number zero. -/
theorem Grows.answer_eq {q : Request} (h : (r.answer u q).2.Grows r') :
    (r.answer u q).1 = (q.decl?.map (r'.number u)).getD 0 := by
  cases q with
  | number d? =>
    cases d? with
    | none => rfl
    | some d => exact (h.number_eq (r.register_pos u d)).symm
  | classNumber d? =>
    cases d? with
    | none => rfl
    | some d => exact (h.number_eq (r.registerClass_pos u d)).symm

/-! ## Many requests -/

/-- Answer requests one after another. -/
def answers (u : TranslationUnit) : Registry → List Request → List Nat × Registry
  | r, [] => ([], r)
  | r, q :: qs =>
    let rest := answers u (r.answer u q).2 qs
    ((r.answer u q).1 :: rest.1, rest.2)

theorem answers_grows (u : TranslationUnit) (qs : List Request) (r : Registry) :
    r.Grows (r.answers u qs).2 := by
  induction qs generalizing r with
  | nil => exact .rfl
  | cons q qs ih => exact (r.answer_grows u q).trans (ih _)

/-- Every answer is final: it is what the registry would answer after the last request. -/
theorem answers_fst (u : TranslationUnit) (qs : List Request) (r : Registry) :
    (r.answers u qs).1 = qs.map fun q => (q.decl?.map ((r.answers u qs).2.number u)).getD 0 := by
  induction qs generalizing r with
  | nil => rfl
  | cons q qs ih =>
    have hgrows : (r.answer u q).2.Grows (r.answers u (q :: qs)).2 := answers_grows u qs _
    rw [List.map_cons, ← hgrows.answer_eq]
    exact congrArg _ (ih _)

/-- The entities that numbers are asked for, by canonical declaration. -/
def requested (u : TranslationUnit) (qs : List Request) : List DeclId :=
  (qs.filterMap (·.decl?)).map u.canonical

/-- The entities that are to be remembered as declarations of C++, by canonical declaration. -/
def requestedClasses (u : TranslationUnit) (qs : List Request) : List DeclId :=
  (qs.filterMap (·.class?)).map u.canonical

/-- What a registry has to show for the requests that it answered. The numbers follow from it, as they
are positions (`Records.number_eq`). -/
structure Records (u : TranslationUnit) (qs : List Request) (r : Registry) : Prop where
  entities : AreFirsts (requested u qs) r.entities.toList
  classes : AreFirsts (requestedClasses u qs) r.classes.toList

theorem records_empty : Records u [] {} := ⟨areFirsts_empty, areFirsts_empty⟩

/-- **One more request is recorded behind the others.** -/
theorem Records.answer (h : Records u qs r) (q : Request) :
    Records u (qs ++ [q]) (r.answer u q).2 := by
  have happend : ∀ f : Request → Option DeclId,
      ((qs ++ [q]).filterMap f).map u.canonical =
        (qs.filterMap f).map u.canonical ++ ((f q).map u.canonical).toList := by
    intro f
    cases hq : f q <;> simp [List.filterMap_append, hq]
  have hentities : requested u (qs ++ [q]) =
      requested u qs ++ (q.decl?.map u.canonical).toList := happend _
  have hclasses : requestedClasses u (qs ++ [q]) =
      requestedClasses u qs ++ (q.class?.map u.canonical).toList := happend _
  constructor
  · rw [hentities]
    cases q with
    | number d? | classNumber d? =>
      cases d? with
      | none => exact (List.append_nil (requested u qs)).symm ▸ h.entities
      | some d => exact h.entities.insert _
  · rw [hclasses]
    cases q with
    | number d? =>
      rw [Request.class?, Option.map_none, Option.toList_none, List.append_nil]
      cases d? <;> exact h.classes
    | classNumber d? =>
      cases d? with
      | none => exact (List.append_nil (requestedClasses u qs)).symm ▸ h.classes
      | some d => exact h.classes.insert _

theorem Records.answers (h : Records u qs r) : Records u (qs ++ qs') (r.answers u qs').2 := by
  induction qs' generalizing r qs with
  | nil => exact (List.append_nil qs).symm ▸ h
  | cons q qs' ih =>
    rw [List.append_cons]
    exact ih (h.answer q)

/-- Whatever was remembered as a declaration of C++ was given a number too. -/
theorem Records.classes_subset (h : Records u qs r) : r.classes.toList ⊆ r.entities.toList := by
  intro c hc
  have hrequested : c ∈ requestedClasses u qs := (h.classes.mem_iff c).1 hc
  obtain ⟨d, hd, rfl⟩ := List.mem_map.1 hrequested
  obtain ⟨q, hq, hclass⟩ := List.mem_filterMap.1 hd
  refine (h.entities.mem_iff _).2 (List.mem_map_of_mem (List.mem_filterMap.2 ⟨q, hq, ?_⟩))
  cases q with
  | number d? => cases hclass
  | classNumber d? => exact hclass

/-- What was asked for has its place in the order of first requests, counted from one, as its number. -/
theorem Records.number_eq (h : Records u qs r) (x : DeclId) : r.number u x =
    if u.canonical x ∈ requested u qs then r.entities.toList.idxOf (u.canonical x) + 1 else 0 := by
  split
  · next hmem =>
    have hentity := (h.entities.mem_iff _).2 hmem
    exact number_eq_succ_iff.2 (List.getElem?_idxOf hentity)
  · next hnot =>
    have hzero : ¬ 0 < r.number u x :=
      fun hpos => hnot ((h.entities.mem_iff _).1 (number_pos_iff.1 hpos))
    omega

/-- The canonical declarations that were asked for have the numbers from one on. -/
theorem map_number_entities (hcanonical : ∀ c ∈ r.entities, u.canonical c = c) :
    r.entities.toList.map (r.number u) = List.range' 1 r.size := by
  refine List.ext_getElem (by simp [size_eq]) fun i hi _ => ?_
  rw [List.length_map] at hi
  have hnumber : r.number u r.entities.toList[i] = i + 1 := by
    rw [number_eq_succ_iff, hcanonical _ (List.getElem_mem hi)]
    exact List.getElem?_eq_getElem hi
  rw [List.getElem_map, hnumber, List.getElem_range', Nat.one_mul, Nat.add_comm]

/-- **Numbers are dense and final**, whatever is asked for. The entities that were asked for have the numbers
from one on, in the order of the first requests for them; any other declaration has the number zero, and so
has none at all. Every answer was the number that the declaration has at the end, and it stays so whatever is
asked for later. The declarations of C++ are those that were to be remembered, each once, in the order of
the first requests to remember them, also of those that had a number before; all of them have one. -/
theorem requests_numbered (u : TranslationUnit)
    (hcanonical : ∀ d, u.canonical (u.canonical d) = u.canonical d) (qs : List Request) :
    let ids := (answers u {} qs).1
    let r := (answers u {} qs).2
    ∃ firsts, AreFirsts (requested u qs) firsts ∧ r.size = firsts.length ∧
      firsts.map (r.number u) = List.range' 1 r.size ∧
      (∀ x, r.number u x =
        if u.canonical x ∈ requested u qs then firsts.idxOf (u.canonical x) + 1 else 0) ∧
      ids = qs.map (fun q => (q.decl?.map (r.number u)).getD 0) ∧
      (∀ later x, 0 < r.number u x → (answers u r later).2.number u x = r.number u x) ∧
      AreFirsts (requestedClasses u qs) r.classes.toList ∧
      ∀ c ∈ r.classes.toList, 0 < r.number u c := by
  intro ids r
  have hrecords : Records u qs r := records_empty.answers
  have hfixed : ∀ c ∈ r.entities, u.canonical c = c := by
    intro c hc
    obtain ⟨d, _, rfl⟩ := List.mem_map.1 ((hrecords.entities.mem_iff c).1 hc)
    exact hcanonical d
  refine ⟨r.entities.toList, hrecords.entities, rfl, map_number_entities hfixed, hrecords.number_eq,
    answers_fst u qs {}, ?_, hrecords.classes, fun c hc => ?_⟩
  · exact fun later x hpos => (answers_grows u later r).number_eq hpos
  · have hmem : c ∈ r.entities := hrecords.classes_subset hc
    rw [number_pos_iff, hfixed c hmem]
    exact hmem

/-- A namespace, and a record that is declared and then defined. -/
def redeclaring : TranslationUnit where
  file := "r.hpp"
  nodes := #[{ name := "n", kind := .namespaceBlock [] },
    { name := "S", kind := .record { isComplete := false } },
    { name := "S", canonical? := some ⟨1⟩, kind := .record {} }]

/-- The two declarations of `S` are of one entity, and every other is an entity by itself. -/
theorem canonical_redeclaring (d : DeclId) :
    redeclaring.canonical (redeclaring.canonical d) = redeclaring.canonical d := by
  by_cases hd : d.index < redeclaring.nodes.size
  · have hall : ∀ i < redeclaring.nodes.size, redeclaring.canonical (redeclaring.canonical ⟨i⟩) =
        redeclaring.canonical ⟨i⟩ := by decide
    exact hall d.index hd
  · have hself : redeclaring.canonical d = d := by
      simp [TranslationUnit.canonical, TranslationUnit.node, Array.getD, hd]
      rfl
    rw [hself, hself]

/-- The namespace is remembered as a declaration of C++ only when it has its number already. -/
theorem requests_numbered_redeclaring :
    let qs : List Request := [.number (some ⟨0⟩), .classNumber (some ⟨2⟩), .number none,
      .classNumber none, .number (some ⟨1⟩), .classNumber (some ⟨0⟩), .classNumber (some ⟨1⟩)]
    let r := (answers redeclaring {} qs).2
    (∀ d, redeclaring.canonical (redeclaring.canonical d) = redeclaring.canonical d) ∧
      (answers redeclaring {} qs).1 = [1, 2, 0, 0, 2, 1, 2] ∧ r.classes.toList = [⟨1⟩, ⟨0⟩] ∧
      (∃ firsts, AreFirsts (requested redeclaring qs) firsts ∧ r.size = firsts.length ∧
        firsts.map (r.number redeclaring) = List.range' 1 r.size) ∧
      ∀ c ∈ r.classes.toList, 0 < r.number redeclaring c := by
  intro qs r
  obtain ⟨firsts, hfirsts, hsize, hnumbers, -, -, -, -, hclasses⟩ :=
    requests_numbered redeclaring canonical_redeclaring qs
  exact ⟨canonical_redeclaring, by decide, by decide, ⟨firsts, hfirsts, hsize, hnumbers⟩, hclasses⟩

end Registry

/-! ## A map and a counter -/

/-- The numbers of entities by their canonical declarations, and the number that is given out next. The
number of an entity is no position here, and nothing in the type keeps two entities from sharing one. -/
structure NumberTable where
  numbers : List (DeclId × Nat) := []
  next : Nat := 1
  classes : OrderedSet DeclId := ∅

namespace NumberTable

/-- The number that a declaration was given, if it was given one. -/
def number? (t : NumberTable) (u : TranslationUnit) (d : DeclId) : Option Nat :=
  t.numbers.lookup (u.canonical d)

/-- The number of a declaration, which gets the next one when it has none. -/
def register (t : NumberTable) (u : TranslationUnit) : Option DeclId → Nat × NumberTable
  | none => (globalScope, t)
  | some d =>
    match t.number? u d with
    | some n => (n, t)
    | none => (t.next, { t with numbers := (u.canonical d, t.next) :: t.numbers, next := t.next + 1 })

/-- Register a declaration and remember it as one of C++. -/
def registerClass (t : NumberTable) (u : TranslationUnit) : Option DeclId → Nat × NumberTable
  | none => (globalScope, t)
  | some d => { t with classes := t.classes.insert (u.canonical d) }.register u (some d)

/-- The answer to a request, and the table afterwards. -/
def answer (t : NumberTable) (u : TranslationUnit) : Request → Nat × NumberTable
  | .number d? => t.register u d?
  | .classNumber d? => t.registerClass u d?

/-- Answer requests one after another. -/
def answers (u : TranslationUnit) : NumberTable → List Request → List Nat × NumberTable
  | t, [] => ([], t)
  | t, q :: qs =>
    let rest := answers u (t.answer u q).2 qs
    ((t.answer u q).1 :: rest.1, rest.2)

/-- The table and the registry hold the same: the numbers that were given, how many they are, and the
declarations of C++. The counter is ahead of all numbers, which is what makes a new one new. -/
structure Keeps (u : TranslationUnit) (t : NumberTable) (r : Registry) : Prop where
  number? : ∀ x, t.number? u x = if 0 < r.number u x then some (r.number u x) else none
  next : t.next = r.size + 1
  length : t.numbers.length = r.size
  classes : t.classes = r.classes

variable {u : TranslationUnit} {t : NumberTable} {r : Registry}

theorem keeps_empty (u : TranslationUnit) : Keeps u {} {} := ⟨fun _ => rfl, rfl, rfl, rfl⟩

/-- **The registration of one declaration.** A number that is known is found in the map; else the counter is
at the position behind all others, which is the number that the registry gives. -/
theorem Keeps.register (h : Keeps u t r) (d? : Option DeclId) :
    (t.register u d?).1 = (r.register u d?).1 ∧ Keeps u (t.register u d?).2 (r.register u d?).2 := by
  cases d? with
  | none => exact ⟨rfl, h⟩
  | some d =>
    have hanswer := r.register_fst u d
    have hknown := h.number? d
    -- A declaration that has a number is in the map and in the set; one that has none is in neither.
    by_cases hpos : 0 < r.number u d
    · rw [if_pos hpos] at hanswer hknown
      have hold : (r.register u (some d)).2 = r := by
        have hmem := Registry.number_pos_iff.1 hpos
        simp [Registry.register, OrderedSet.insert, hmem]
      have hfound : t.register u (some d) = (r.number u d, t) := by
        simp only [NumberTable.register, hknown]
      rw [hfound, hanswer, hold]
      exact ⟨rfl, h⟩
    · rw [if_neg hpos] at hanswer hknown
      have hsize : (r.register u (some d)).2.size = r.size + 1 := by
        have hnew : u.canonical d ∉ r.entities := fun hmem => hpos (Registry.number_pos_iff.2 hmem)
        change (r.entities.insert (u.canonical d)).toList.length = _
        rw [OrderedSet.toList_insert, if_neg hnew, List.length_append]
        rfl
      have hcounted : t.register u (some d) = (t.next,
          { t with numbers := (u.canonical d, t.next) :: t.numbers, next := t.next + 1 }) := by
        simp only [NumberTable.register, hknown]
      rw [hcounted, hanswer]
      refine ⟨h.next, fun x => ?_, ?_, ?_, h.classes⟩
      · -- The new number is that of one entity, and no other number changed.
        rw [r.number_register u d x, hanswer]
        change List.lookup (u.canonical x) ((u.canonical d, t.next) :: t.numbers) = _
        by_cases heq : u.canonical x = u.canonical d
        · rw [if_pos heq, heq, List.lookup_cons_self, h.next, if_pos (Nat.succ_pos _)]
        · rw [if_neg heq, List.lookup_cons, beq_false_of_ne heq]
          exact h.number? x
      · rw [hsize, ← h.next]
      · rw [hsize, ← h.length]
        rfl

/-- **One request is answered alike**, and leaves both with the same. -/
theorem Keeps.answer (h : Keeps u t r) (q : Request) :
    (t.answer u q).1 = (r.answer u q).1 ∧ Keeps u (t.answer u q).2 (r.answer u q).2 := by
  cases q with
  | number d? => exact h.register d?
  | classNumber d? =>
    cases d? with
    | none => exact ⟨rfl, h⟩
    | some d =>
      have hremembered : Keeps u { t with classes := t.classes.insert (u.canonical d) }
          { r with classes := r.classes.insert (u.canonical d) } :=
        ⟨h.number?, h.next, h.length, congrArg (·.insert (u.canonical d)) h.classes⟩
      exact hremembered.register (some d)

theorem Keeps.answers (h : Keeps u t r) (qs : List Request) :
    (t.answers u qs).1 = (r.answers u qs).1 ∧ Keeps u (t.answers u qs).2 (r.answers u qs).2 := by
  induction qs generalizing t r with
  | nil => exact ⟨rfl, h⟩
  | cons q qs ih =>
    obtain ⟨hanswer, hkeeps⟩ := h.answer q
    obtain ⟨hrest, hkeeps⟩ := ih hkeeps
    exact ⟨List.cons_eq_cons.2 ⟨hanswer, hrest⟩, hkeeps⟩

/-- **A map and a counter give the same numbers as positions in an ordered set**, whatever is asked for, and
at the end they tell the same. -/
theorem answers_keeps (u : TranslationUnit) (qs : List Request) :
    (answers u {} qs).1 = (Registry.answers u {} qs).1 ∧
      Keeps u (answers u {} qs).2 (Registry.answers u {} qs).2 :=
  (keeps_empty u).answers qs

end NumberTable

end ForeignDecl
