import ForeignDecl.Document.Writer

/-!
# The calls a writer gets

An extraction uses a writer through five kinds of call. `Performs` says what state a list of calls
leads to when none of them fails, for any writer, and `recorded` turns any writer into one that also
keeps the list: what was asked of it can then be read off its state.

`protocol` is the list a writer may count on: a header, maybe a namespace, entries with a separator
between any two of them, and a footer.
-/

set_option autoImplicit false

namespace ForeignDecl

/-- A call of an extraction to its writer. A writer can do more than this (write a comment or a type);
these five are what a document is made with. -/
inductive Call where
  | header
  | announce (namespaceName : String)
  | separator
  | entry (e : Entry)
  | footer

namespace Call

/-- The entry that a call hands over. -/
def entry? : Call → Option Entry
  | entry e => some e
  | header | announce _ | separator | footer => none

/-- The entries that some calls hand over, in order. -/
def entries (cs : List Call) : List Entry := cs.filterMap entry?

/-- The calls before the first entry. -/
def opening (namespaceName? : Option String) : List Call :=
  header :: (namespaceName?.map announce).toList

/-- Entries with one separator between any two of them, and none before or after. -/
def separated (es : List Entry) : List Call := (es.map entry).intersperse separator

/-- The calls of a whole document. The announcement of a namespace is no entry, and the separator behind
it is left to the writer, so it is not among the calls. -/
def protocol (namespaceName? : Option String) (es : List Entry) : List Call :=
  opening namespaceName? ++ separated es ++ [footer]

/-- The calls for more entries, when there is an entry before them or not. Unlike `separated` it can be
taken up in the middle of a document, which is what the proofs about runs need: the flag is that of the
session. -/
def following : Bool → List Entry → List Call
  | _, [] => []
  | hasEntries, e :: es =>
    (if hasEntries then [separator, entry e] else [entry e]) ++ following true es

/-- Entries can be written in several goes. -/
theorem following_append (es es' : List Entry) : ∀ hasEntries : Bool,
    following hasEntries (es ++ es') =
      following hasEntries es ++ following (hasEntries || !es.isEmpty) es' := by
  induction es with
  | nil => simp [following]
  | cons e es ih => simp [following, ih true]

theorem following_true (e : Entry) (es : List Entry) :
    following true (e :: es) = separator :: separated (e :: es) := by
  induction es generalizing e with
  | nil => rfl
  | cons e' es ih =>
    rw [following, ih e']
    rfl

/-- From the beginning of a document on, it comes to the same as putting separators between all entries.
-/
theorem following_false (es : List Entry) : following false es = separated es := by
  cases es with
  | nil => rfl
  | cons e es =>
    have h := following_true e es
    simp only [following, if_true, List.cons_append, List.nil_append, List.cons.injEq,
      true_and] at h
    simpa [following] using h

@[simp]
theorem entries_append (cs cs' : List Call) : entries (cs ++ cs') = entries cs ++ entries cs' :=
  List.filterMap_append

@[simp]
theorem entries_opening (namespaceName? : Option String) : entries (opening namespaceName?) = [] := by
  cases namespaceName? <;> rfl

theorem entries_following (es : List Entry) :
    ∀ hasEntries : Bool, entries (following hasEntries es) = es := by
  induction es with
  | nil => simp [following, entries]
  | cons e es ih =>
    intro hasEntries
    have hes : List.filterMap entry? (following true es) = es := ih true
    cases hasEntries <;> simp [following, entries, List.filterMap_cons, entry?, hes]

@[simp]
theorem entries_separated (es : List Entry) : entries (separated es) = es := by
  rw [← following_false, entries_following]

/-- The entries of a document are read off its calls, whatever is written around them. -/
@[simp]
theorem entries_protocol (namespaceName? : Option String) (es : List Entry) :
    entries (protocol namespaceName? es) = es := by
  have hfooter : entries [footer] = [] := rfl
  simp [protocol, hfooter]

end Call

namespace DocumentWriter

variable {σ : Type} {w : DocumentWriter σ}

/-- What a writer does for a call. -/
def perform (w : DocumentWriter σ) : Call → Emit σ Unit
  | .header => w.header
  | .announce name => w.announce name
  | .separator => w.separator
  | .entry e => w.entry e
  | .footer => w.footer

/-- The calls `cs` all succeed, one after another, and lead from `p` to `p'`. Calls that fail are not
part of this: what they leave behind depends on the writer. -/
def Performs (w : DocumentWriter σ) : List Call → σ → σ → Prop
  | [], p, p' => p = p'
  | c :: cs, p, p' => ∃ q, w.perform c p = .ok () q ∧ w.Performs cs q p'

/-- To perform two lists of calls is to perform the one and then the other. -/
theorem performs_append {cs cs' : List Call} {p p' : σ} :
    w.Performs (cs ++ cs') p p' ↔ ∃ q, w.Performs cs p q ∧ w.Performs cs' q p' := by
  induction cs generalizing p with
  | nil =>
    constructor
    · exact fun h => ⟨p, rfl, h⟩
    · rintro ⟨_, rfl, h⟩
      exact h
  | cons c cs ih =>
    constructor
    · rintro ⟨p₁, hc, h⟩
      obtain ⟨q, hcs, hcs'⟩ := ih.1 h
      exact ⟨q, ⟨p₁, hc, hcs⟩, hcs'⟩
    · rintro ⟨q, ⟨p₁, hc, hcs⟩, hcs'⟩
      exact ⟨p₁, hc, ih.2 ⟨q, hcs, hcs'⟩⟩

theorem Performs.append {cs cs' : List Call} {p q p' : σ} (h : w.Performs cs p q)
    (h' : w.Performs cs' q p') : w.Performs (cs ++ cs') p p' := performs_append.2 ⟨q, h, h'⟩

theorem Performs.single {c : Call} {p p' : σ} (h : w.perform c p = .ok () p') :
    w.Performs [c] p p' := ⟨p', h, rfl⟩

/-- From a state with `Fine` no call fails, and the state it leads to is `Fine` again. With `Fine`
true of every state, this is a writer that never fails. -/
def Accepts (w : DocumentWriter σ) (Fine : σ → Prop) : Prop :=
  ∀ c p, Fine p → ∃ p', w.perform c p = .ok () p' ∧ Fine p'

/-- What holds after each call holds after all of them. -/
theorem Accepts.of_performs {Fine : σ → Prop} (hw : w.Accepts Fine) {cs : List Call} {p p' : σ}
    (hp : Fine p) (h : w.Performs cs p p') : Fine p' := by
  induction cs generalizing p with
  | nil => exact h ▸ hp
  | cons c cs ih =>
    obtain ⟨q, hc, hcs⟩ := h
    obtain ⟨q', hq, hfine⟩ := hw c p hp
    rw [hq] at hc
    cases hc
    exact ih hfine hcs

/-- A writer that accepts all calls performs any list of them. -/
theorem Accepts.performs {Fine : σ → Prop} (hw : w.Accepts Fine) (cs : List Call) {p : σ}
    (hp : Fine p) : ∃ p', w.Performs cs p p' ∧ Fine p' := by
  induction cs generalizing p with
  | nil => exact ⟨p, rfl, hp⟩
  | cons c cs ih =>
    obtain ⟨q, hc, hq⟩ := hw c p hp
    obtain ⟨p', hcs, hp'⟩ := ih hq
    exact ⟨p', ⟨q, hc, hcs⟩, hp'⟩

/-- A writer that drops what it gets. -/
def silent : DocumentWriter Unit where
  header := pure ()
  announce _ := pure ()
  separator := pure ()
  entry _ := pure ()
  footer := pure ()
  comment _ := pure ()
  type _ := pure ()

theorem silent_accepts : silent.Accepts fun _ => True :=
  fun c _ _ => ⟨(), by cases c <;> rfl, trivial⟩

/-! ## Recording -/

/-- Do what a call asks for, and keep the call when that did not fail. So there is a record of what was
called for also where a later write fails. -/
def noting (c : Call) (x : Emit σ Unit) : Emit (σ × List Call) Unit := fun (p, cs) =>
  match x p with
  | .ok () p' => .ok () (p', cs ++ [c])
  | .error e p' => .error e (p', cs)

/-- Do something that is no call of an extraction. It is not kept, so the record is that of the document
alone. -/
def silently (x : Emit σ Unit) : Emit (σ × List Call) Unit := fun (p, cs) =>
  match x p with
  | .ok () p' => .ok () (p', cs)
  | .error e p' => .error e (p', cs)

/-- The same writer, which also keeps the calls made to it, in order. Claims about a document are stated
about this writer with an arbitrary one inside: the calls are then part of the state, and no writer has
to be trusted to tell them. -/
def recorded (w : DocumentWriter σ) : DocumentWriter (σ × List Call) where
  header := noting .header w.header
  announce name := noting (.announce name) (w.announce name)
  separator := noting .separator w.separator
  entry e := noting (.entry e) (w.entry e)
  footer := noting .footer w.footer
  comment text := silently (w.comment text)
  type t := silently (w.type t)

/-- Each call of the recording writer is that of the writer inside, noted. -/
theorem recorded_perform (w : DocumentWriter σ) (c : Call) :
    w.recorded.perform c = noting c (w.perform c) := by
  cases c <;> rfl

theorem Performs.recorded_calls {cs : List Call} {p p' : σ × List Call}
    (h : w.recorded.Performs cs p p') : p'.2 = p.2 ++ cs := by
  induction cs generalizing p with
  | nil =>
    cases h
    simp
  | cons c cs ih =>
    obtain ⟨q, hc, hcs⟩ := h
    rw [recorded_perform, noting] at hc
    cases hp : w.perform c p.1 with
    | ok a p₁ =>
      rw [hp] at hc
      cases hc
      simpa using ih hcs
    | error e p₁ =>
      rw [hp] at hc
      cases hc

/-- Keeping a record makes no call fail. -/
theorem Accepts.recorded {Fine : σ → Prop} (hw : w.Accepts Fine) :
    w.recorded.Accepts fun p => Fine p.1 := by
  intro c p hp
  obtain ⟨p', hc, hfine⟩ := hw c p.1 hp
  exact ⟨(p', p.2 ++ [c]), by rw [recorded_perform, noting, hc], hfine⟩

end DocumentWriter

end ForeignDecl
