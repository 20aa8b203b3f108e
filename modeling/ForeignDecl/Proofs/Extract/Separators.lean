import ForeignDecl.Proofs.Extract.Writing

/-!
# Separators in a session that goes on

A session outlives a step that failed, and the caller may hand it the next declarations all the same.
The flag that says whether a separator is due is set deep inside the recursion, so the question is
what a writer gets to see in the long run. `session_calls`: a document like any other, with one
separator between two entries and none anywhere else, and as many entries as were counted.
-/

set_option autoImplicit false

namespace ForeignDecl

namespace Extract

variable {σ : Type} {ctx : Context σ} {Fine : σ → Prop}

/-- The session after a document was opened and some groups of declarations were handed over, one after
another, whatever became of the groups before. A group that fails is left where it failed, and the next
one starts in the session that it left. -/
def sessionAfter (ctx : Context σ) (namespaceName? : Option String) (groups : List (List DeclId))
    (s : Session σ) : Session σ :=
  groups.foldl (fun s ds => after (visitTopLevel ctx ds) s) (after (start ctx namespaceName?) s)

/-- The calls so far are the opening of a document and its first entries, and as many entries were
counted. The flag in the session says whether there are any, which is all that a later step knows of the
earlier ones. -/
def IsPartial (ctx : Context σ) (page : σ) (namespaceName? : Option String) (es : List Entry)
    (s : Session σ) : Prop :=
  ctx.writer.Performs (Call.opening namespaceName? ++ Call.separated es) page s.page ∧
    s.hasEntries = !es.isEmpty ∧ s.summary.emitted = es.length

/-- A document that was opened has no entries yet. -/
theorem isPartial_start (hw : ctx.writer.Accepts Fine) {page : σ} (hpage : Fine page)
    (namespaceName? : Option String) :
    ∃ s, start ctx namespaceName? { page } = .ok () s ∧ Fine s.page ∧
      IsPartial ctx page namespaceName? [] s := by
  obtain ⟨p₁, h₁, hp₁⟩ := hw .header page hpage
  have hheader : send ctx.writer.header ({ page } : Session σ) = .ok () { page := p₁ } :=
    send_eq_ok.2 ⟨p₁, h₁, rfl⟩
  cases namespaceName? with
  | none => exact ⟨_, bind_eq_ok.2 ⟨_, _, hheader, rfl⟩, hp₁, ⟨p₁, h₁, rfl⟩, rfl, rfl⟩
  | some name =>
    obtain ⟨p₂, h₂, hp₂⟩ := hw (.announce name) p₁ hp₁
    have hname : send (ctx.writer.announce name) ({ page := p₁ } : Session σ) =
        .ok () { page := p₂ } := send_eq_ok.2 ⟨p₂, h₂, rfl⟩
    exact ⟨_, bind_eq_ok.2 ⟨_, _, hheader, hname⟩, hp₂, ⟨p₁, h₁, p₂, h₂, rfl⟩, rfl, rfl⟩

/-- What a step writes continues the part of the document that is there. -/
theorem IsPartial.append {page : σ} {namespaceName? : Option String} {es es' : List Entry}
    {s s' : Session σ} (h : IsPartial ctx page namespaceName? es s)
    (h' : Writes ctx.writer es' s s') : IsPartial ctx page namespaceName? (es ++ es') s' := by
  obtain ⟨hcalls, hentries, hemitted⟩ := h
  refine ⟨?_, ?_, ?_⟩
  · have hsplit := Call.following_append es es' false
    -- The flag says whether entries came before, so the new calls go on where the old ones end.
    rw [Bool.false_or, ← hentries, Call.following_false, Call.following_false] at hsplit
    rw [hsplit, ← List.append_assoc]
    exact hcalls.append h'.page
  · rw [h'.hasEntries, hentries]
    cases es <;> simp
  · rw [h'.emitted, hemitted, List.length_append]

/-- However many steps there are, and however they end, a document is written. -/
theorem isPartial_sessionAfter (hw : ctx.writer.Accepts Fine) (page : σ) (hpage : Fine page)
    (namespaceName? : Option String) (groups : List (List DeclId)) :
    ∃ es, Fine (sessionAfter ctx namespaceName? groups { page }).page ∧
      IsPartial ctx page namespaceName? es (sessionAfter ctx namespaceName? groups { page }) := by
  unfold sessionAfter
  obtain ⟨s, hstart, hfine, hpartial⟩ := isPartial_start hw hpage namespaceName?
  rw [after_of_ok hstart]
  clear hstart
  -- A group may find any session and any entries before it.
  generalize ([] : List Entry) = es at hpartial
  induction groups generalizing s es with
  | nil => exact ⟨es, hfine, hpartial⟩
  | cons ds groups ih =>
    obtain ⟨hfine', es', hwrites, _⟩ := (allows_reports hw).visitTopLevel ds s hfine
    exact ih _ hfine' _ (hpartial.append hwrites)

/-- **Whatever fails on the way, a writer sees a document**: the opening, the entries with one separator
between any two of them, and, when the session is finished, the footer. After every step the summary
counts the entries written so far. A separator is called for when the entry behind it is ready to be
written, so what fails before that leaves none. -/
theorem session_calls {w : DocumentWriter σ} (hw : w.Accepts Fine) {page : σ} (hpage : Fine page)
    (u : TranslationUnit) (oracle : LayoutOracle) (namespaceName? : Option String)
    (groups : List (List DeclId)) :
    let ctx : Context (σ × List Call) := { unit := u, oracle, writer := w.recorded }
    let s := sessionAfter ctx namespaceName? groups { page := (page, []) }
    s.page.2 = Call.opening namespaceName? ++ Call.separated (Call.entries s.page.2) ∧
      s.summary.emitted = (Call.entries s.page.2).length ∧
      ∃ s', finish ctx s = .ok () s' ∧
        s'.page.2 = Call.protocol namespaceName? (Call.entries s.page.2) ∧
        s'.summary.emitted = (Call.entries s'.page.2).length := by
  intro ctx s
  have hrec : ctx.writer.Accepts fun p => Fine p.1 := hw.recorded
  obtain ⟨es, hfine, hcalls, _, hemitted⟩ :=
    isPartial_sessionAfter hrec (page, []) hpage namespaceName? groups
  have hlog : s.page.2 = Call.opening namespaceName? ++ Call.separated es := by
    simpa using hcalls.recorded_calls
  have hes : Call.entries s.page.2 = es := by simp [hlog]
  obtain ⟨p, hp, _⟩ := hrec .footer s.page hfine
  have hfooter : p.2 = Call.protocol namespaceName? es := by
    have h := (DocumentWriter.Performs.single hp).recorded_calls
    rw [h, hlog, Call.protocol]
  refine ⟨hes ▸ hlog, hes ▸ hemitted, { s with page := p }, send_eq_ok.2 ⟨p, hp, rfl⟩, ?_, ?_⟩
  · exact hes ▸ hfooter
  · simp only [hfooter, Call.entries_protocol]
    exact hemitted

/-- An oracle that knows the sizes of records only. -/
def recordsOnly : LayoutOracle where
  type _ := .error (.incomplete "b")
  record _ := .ok ⟨0, 8, []⟩
  baseOffset _ _ := .ok 0
  virtualBaseOffset _ _ := .ok 0

/-- A record without a name, and three typedefs: the first and the last are of the record, the one
between them is of an integer. -/
def spliced : TranslationUnit where
  file := "a.h"
  types := #[.record ⟨0⟩, .builtin .int]
  nodes := #[{ kind := .record {} }, { name := "a", kind := .typedef ⟨0⟩ },
    { name := "b", kind := .typedef ⟨1⟩ }, { name := "c", kind := .typedef ⟨0⟩ }]

/-- The record is spliced in before the first typedef, the second typedef fails, and the session goes
on: neither leaves a separator too many. -/
theorem session_calls_spliced :
    DocumentWriter.silent.Accepts (fun _ => True) ∧
      let ctx : Context (Unit × List Call) :=
        { unit := spliced, oracle := recordsOnly, writer := DocumentWriter.silent.recorded }
      let s := sessionAfter ctx (some "n") [[⟨1⟩, ⟨2⟩], [⟨3⟩]] { page := ((), []) }
      (Call.entries s.page.2).map Entry.name = ["", "a", "c"] ∧
        s.page.2 = Call.opening (some "n") ++ Call.separated (Call.entries s.page.2) ∧
        s.summary.emitted = (Call.entries s.page.2).length := by
  have hcalls := @session_calls Unit (fun _ => True) _ DocumentWriter.silent_accepts () trivial spliced
    recordsOnly (some "n") [[⟨1⟩, ⟨2⟩], [⟨3⟩]]
  exact ⟨DocumentWriter.silent_accepts, by decide +kernel, hcalls.1, hcalls.2.1⟩

end Extract

end ForeignDecl
