import ForeignDecl.Proofs.Extract.Documents
import ForeignDecl.Proofs.Extract.Runs
import ForeignDecl.Proofs.Layout.Answers
import ForeignDecl.Proofs.Run.Stages
import ForeignDecl.Proofs.Target

/-!
# Configurations that pass the check

A run asks its configuration twice: it has it checked as a whole, and later it takes target and format
from it. With a target that is stated, nothing can go wrong any more when the check has passed
(`prepare_eq_ok`), so that a fault of the configuration is the one the check finds, and nothing is
written. What is written otherwise is written in order.
-/

set_option autoImplicit false

namespace ForeignDecl

/-! ## The check -/

namespace Config

variable {c : Config} {e : ConfigError}

/-- A configuration that passes the check has a format, and its target was looked at. -/
theorem check_eq_ok (h : c.check = .ok ()) :
    (∃ f, c.format = .ok f) ∧ c.checkTarget = .ok () := by
  obtain ⟨f, hformat, h⟩ := Layout.bind_eq_ok.1 h
  obtain ⟨_, _, h⟩ := Layout.bind_eq_ok.1 h
  obtain ⟨_, _, htarget⟩ := Layout.bind_eq_ok.1 h
  exact ⟨⟨f, hformat⟩, htarget⟩

/-- A stated target that passes the check is the target of the run, whatever its machine is. Without a
stated target it is the one of the machine, which the check does not look at. -/
theorem exists_target {triple : String} (harch : c.arch? = some triple)
    (h : c.checkTarget = .ok ()) (host : String) : ∃ t, c.target host = .ok t := by
  unfold checkTarget at h
  unfold target
  rw [harch] at h ⊢
  dsimp only [Option.getD] at h ⊢
  cases htriple : Target.ofTriple? triple with
  | ok t => exact ⟨t, rfl⟩
  | error e =>
    rw [htriple] at h
    cases h

end Config

namespace Run

variable {c : Config} {u : TranslationUnit} {t : Target} {f : DocumentFormat} {o o' : Outputs}

/-- With a stated target a run is prepared as soon as the checks have passed: target and format are the
ones that were checked. -/
theorem prepare_eq_ok {triple : String} (harch : c.arch? = some triple) (host : String)
    (hcheck : c.check = .ok ()) (houtputs : checkOutputs c o = .ok ()) :
    ∃ t f, c.target host = .ok t ∧ c.format = .ok f ∧ prepare c host o = .ok (t, f) := by
  obtain ⟨⟨f, hformat⟩, hchecked⟩ := Config.check_eq_ok hcheck
  obtain ⟨t, htarget⟩ := Config.exists_target harch hchecked host
  refine ⟨t, f, htarget, hformat, ?_⟩
  unfold prepare
  rw [hcheck, houtputs, htarget, hformat]
  rfl

/-- With a stated target it is the checks that find what is wrong, and the configuration is checked
before the outputs. -/
theorem prepare_eq_error_iff {triple : String} (harch : c.arch? = some triple) (host : String)
    {e : ConfigError} :
    prepare c host o = .error e ↔
      c.check = .error e ∨ c.check = .ok () ∧ checkOutputs c o = .error e := by
  cases hcheck : c.check with
  | error e' =>
    have hprepare : prepare c host o = .error e' := by
      unfold prepare
      rw [hcheck]
      rfl
    simp [hprepare]
  | ok _ =>
    cases houtputs : checkOutputs c o with
    | error e' =>
      have hprepare : prepare c host o = .error e' := by
        unfold prepare
        rw [hcheck, houtputs]
        rfl
      simp [hprepare]
    | ok _ =>
      obtain ⟨t, f, -, -, hprepare⟩ := prepare_eq_ok harch host hcheck houtputs
      simp [hprepare]

/-! ## The order of the texts -/

theorem macros_of_hasRoom (h : ∀ k ∈ o.macros?, k.HasRoom (macrosText c u)) :
    macros c u o = .ok () { o with macros? := o.macros?.map (·.write (macrosText c u)) } := by
  rw [(macros_delivers c u o).fits (Outputs.hasRoom_only.2 h)]
  simp [settle, Outputs.write, Outputs.map, Texts.only]

theorem templates_of_not_asked {r : Registry} (h : c.templateInstantiations = false) :
    templates c u r o = .ok () o := by
  unfold templates
  rw [h]
  split
  · rfl
  · rfl

/-- The document of a unit is written from its header to its footer, and `k` is the sink that it leaves.
The writer is called as its protocol has it, with as many entries as are counted. -/
def WritesDocument (c : Config) (u : TranslationUnit) (t : Target) (f : DocumentFormat)
    (sink k : Sink) : Prop :=
  let ctx : Context Page := { unit := u, oracle := Layout.words .checked u t, writer := f.writer }
  ∃ (es : List Entry) (s : Session Page),
    Extract.document ctx c.namespaceName? { page := { sink } } = .ok () s ∧
    f.writer.Performs (Call.protocol c.namespaceName? es) { sink } s.page ∧
    es.length = s.summary.emitted ∧ k = s.page.sink

/-- A document that was not cut off, and whose extraction did not fail, is complete. -/
theorem writesDocument_of_ok {extraction : Extraction}
    (h : document c u t f o = .ok extraction o') :
    WritesDocument c u t f o.document o'.document := by
  unfold document at h
  dsimp only at h
  split at h
  · next s hs =>
    cases h
    obtain ⟨p₁, s₂, hopening, hvisit, hfooter, hs'⟩ := Extract.document_eq_ok hs
    obtain ⟨es, hvisits⟩ := Extract.visits_of_forM _ hvisit
    have hwrites := hvisits.wrote.writes
    refine ⟨es, s, hs, Extract.performs_of_writes hopening hwrites hfooter, ?_, rfl⟩
    rw [hs', hwrites.emitted]
    exact (Nat.zero_add _).symm
  · cases h

/-- What is left of a run that was prepared. It is said of the outputs alone, so that it can be said of
a run that ended anywhere. -/
structure InOrder (c : Config) (u : TranslationUnit) (t : Target) (f : DocumentFormat)
    (o o' : Outputs) : Prop where
  /-- If the macros have room, all of them are written, whatever comes of the document. -/
  macros : (∀ k ∈ o.macros?, k.HasRoom (macrosText c u)) →
    o'.macros? = o.macros?.map (·.write (macrosText c u))
  /-- Nothing is written to the document before all macros are. -/
  document : o'.document ≠ o.document →
    o'.macros? = o.macros?.map (·.write (macrosText c u))
  /-- No templates are written before the whole document is. -/
  templates : o'.templates? ≠ o.templates? →
    c.templateInstantiations = true ∧ WritesDocument c u t f o.document o'.document

/-- Behind the macros nothing is written to their sink, and to that of the templates only when the
document is complete. -/
theorem produceMain_frame (c : Config) (u : TranslationUnit) (t : Target) (f : DocumentFormat)
    (o : Outputs) :
    let o' := outputs (produceMain c u t f o)
    o'.macros? = o.macros? ∧ (o'.templates? ≠ o.templates? →
      c.templateInstantiations = true ∧ WritesDocument c u t f o.document o'.document) := by
  obtain ⟨bytes, answer, hdelivers⟩ := exists_document_delivers c u t f
  have hframe : ∀ ch ≠ .document, (outputs (document c u t f o)).sink? ch = o.sink? ch :=
    fun _ => (hdelivers o).frame
  unfold produceMain
  cases hdocument : document c u t f o with
  | error e o₁ =>
    rw [hdocument] at hframe
    rw [bind_of_error hdocument]
    exact ⟨hframe .macros (by decide), fun h => absurd (hframe .templates (by decide)) h⟩
  | ok extraction o₁ =>
    rw [hdocument] at hframe
    have hframe' : ∀ ch ≠ .templates,
        (outputs (templates c u extraction.registry o₁)).sink? ch = o₁.sink? ch :=
      fun _ => (templates_delivers c u extraction.registry o₁).frame
    -- Returning the extraction behind the templates does nothing to the outputs.
    have hlast : outputs ((do
        templates c u extraction.registry
        return extraction : Run Extraction) o₁) =
          outputs (templates c u extraction.registry o₁) := by
      cases htemplates : templates c u extraction.registry o₁ with
      | ok _ o₂ =>
        rw [bind_of_ok htemplates]
        rfl
      | error e o₂ =>
        rw [bind_of_error htemplates]
        rfl
    rw [bind_of_ok hdocument, hlast]
    refine ⟨(hframe' .macros (by decide)).trans (hframe .macros (by decide)), fun h => ?_⟩
    cases hasked : c.templateInstantiations with
    | false =>
      rw [templates_of_not_asked hasked] at h
      exact absurd (hframe .templates (by decide)) h
    | true =>
      rw [Option.some.inj (hframe' .document (by decide))]
      exact ⟨rfl, writesDocument_of_ok hdocument⟩

/-- **Whatever is written is written in order.** Either the macros have room, and then the document and
the templates follow, or the run ends in them and nothing else is written. -/
theorem produce_inOrder (c : Config) (u : TranslationUnit) (t : Target) (f : DocumentFormat)
    (o : Outputs) : InOrder c u t f o (outputs (produce c u t f o)) := by
  unfold produce
  by_cases hroom : ∀ k ∈ o.macros?, k.HasRoom (macrosText c u)
  · rw [bind_of_ok (macros_of_hasRoom hroom)]
    obtain ⟨hmacros, htemplates⟩ := produceMain_frame c u t f
      { o with macros? := o.macros?.map (·.write (macrosText c u)) }
    exact ⟨fun _ => hmacros, fun _ => hmacros, htemplates⟩
  · have hfull : ∃ k ∈ o.macros?, ¬k.HasRoom (macrosText c u) := by
      simpa only [not_forall, exists_prop] using hroom
    obtain ⟨k, hk, hfull⟩ := hfull
    -- The macros are cut off, so the other two sinks are as they were.
    have hcut := (macros_delivers c u o).cuts .macros (Outputs.overflows_only hk hfull)
    have hframe : ∀ ch ≠ .macros, (outputs (macros c u o)).sink? ch = o.sink? ch :=
      fun _ => (macros_delivers c u o).frame
    rw [hcut] at hframe
    rw [bind_of_error hcut]
    constructor
    · intro h
      exact absurd h hroom
    · intro h
      exact absurd (Option.some.inj (hframe .document (by decide))) h
    · intro h
      exact absurd (hframe .templates (by decide)) h

/-! ## Errors of the configuration -/

section Configured

variable {α β : Type}

/-- The step does not fail because of the configuration. All steps of the second half of a run are such.
-/
def Configured (x : Run α) : Prop := ∀ o e o', x o ≠ .error (.config e) o'

theorem configured_pure (a : α) : Configured (pure a : Run α) := by
  intro o e o' h
  cases h

theorem Configured.bind {x : Run α} {g : α → Run β} (hx : Configured x)
    (hg : ∀ a, Configured (g a)) : Configured (x >>= g) := by
  intro o e o' h
  cases hfirst : x o with
  | ok a o₁ =>
    rw [bind_of_ok hfirst] at h
    exact hg a o₁ e o' h
  | error e₁ o₁ =>
    rw [bind_of_error hfirst] at h
    obtain ⟨rfl, rfl⟩ := EStateM.Result.error.inj h
    exact hx o e o₁ hfirst

theorem macros_configured : Configured (macros c u) := by
  intro o e o' h
  unfold macros at h
  split at h
  · cases h
  · split at h
    · cases h
    · cases h

theorem document_configured : Configured (document c u t f) := by
  intro o e o' h
  unfold document at h
  dsimp only at h
  split at h
  · cases h
  · cases h

theorem templates_configured {r : Registry} : Configured (templates c u r) := by
  intro o e o' h
  unfold templates at h
  split at h
  · cases h
  · split at h
    · split at h
      · cases h
      · cases h
    · cases h

/-- Once a run is prepared, the configuration is not to blame any more. -/
theorem produce_configured : Configured (produce c u t f) :=
  macros_configured.bind fun _ => document_configured.bind fun _ =>
    templates_configured.bind fun _ => configured_pure _

end Configured

/-- **With a stated target a run fails because of its configuration exactly if a check does**, with
the fault that is found first, and then nothing is written. Otherwise it has a target and a format,
and what it writes it writes in order: the outputs may have any limits, so that this holds of every
moment at which a run can end. -/
theorem run_checked {c : Config} {triple : String} (harch : c.arch? = some triple) (host : String)
    (u : TranslationUnit) (o : Outputs) :
    (∀ e o', run c host u o = .error (.config e) o' ↔
      (c.check = .error e ∨ c.check = .ok () ∧ checkOutputs c o = .error e) ∧ o' = o) ∧
    (c.check = .ok () → checkOutputs c o = .ok () →
      ∃ t f, c.target host = .ok t ∧ c.format = .ok f ∧
        InOrder c u t f o (outputs (run c host u o))) := by
  constructor
  · intro e o'
    rw [← prepare_eq_error_iff harch host, run_eq]
    cases hprepare : prepare c host o with
    | error e₁ =>
      dsimp only
      constructor
      · intro h
        cases h
        exact ⟨rfl, rfl⟩
      · rintro ⟨h, rfl⟩
        cases h
        rfl
    | ok p =>
      constructor
      · intro h
        exact absurd h (produce_configured o e o')
      -- A run that was prepared passed both checks.
      · rintro ⟨h, -⟩
        cases h
  · intro hcheck houtputs
    obtain ⟨t, f, htarget, hformat, hprepare⟩ := prepare_eq_ok harch host hcheck houtputs
    refine ⟨t, f, htarget, hformat, ?_⟩
    rw [run_eq, hprepare]
    exact produce_inOrder c u t f o

/-- Definitions of macros that have nowhere to go, and then a place. -/
theorem run_checked_x86Linux :
    let c : Config :=
      { arch? := some "x86-linux", withMacroDefs := true, templateInstantiations := true }
    let o : Outputs := { macros? := some {}, templates? := some {} }
    let o' := outputs (run c "" Extract.escaped o)
    run c "" Extract.escaped {} = .error (.config (.conflict .noMacroOutput)) {} ∧
      o'.macros? = some (({} : Sink).write (macrosText c Extract.escaped)) ∧
      WritesDocument c Extract.escaped .x86Linux .json {} o'.document := by
  intro c o o'
  have hcheck : c.check = .ok () := by
    unfold Config.check
    rw [checkTarget_x86Linux rfl]
    rfl
  have htarget : c.target "" = .ok .x86Linux := target_x86Linux rfl ""
  obtain ⟨hbad, -⟩ := run_checked (c := c) rfl "" Extract.escaped {}
  obtain ⟨-, hgood⟩ := run_checked (c := c) rfl "" Extract.escaped o
  obtain ⟨t, f, ht, hf, hinOrder⟩ := hgood hcheck rfl
  obtain rfl : Target.x86Linux = t := Except.ok.inj (htarget.symm.trans ht)
  obtain rfl : DocumentFormat.json = f := Except.ok.inj hf
  have hprepare : prepare c "" o = .ok (.x86Linux, .json) := by
    unfold prepare
    rw [hcheck, htarget]
    rfl
  have htemplates : o'.templates? ≠ o.templates? := by
    show (outputs (run c "" Extract.escaped o)).templates? ≠ o.templates?
    rw [run_eq, hprepare]
    have hsize : (outputs (produce c Extract.escaped .x86Linux .json o)).templates?.map
        (·.contents.size) = some 15 := by decide +kernel
    intro h
    rw [h] at hsize
    cases hsize
  refine ⟨(hbad _ _).2 ⟨.inr ⟨hcheck, rfl⟩, rfl⟩, hinOrder.macros ?_, (hinOrder.templates htemplates).2⟩
  rintro _ ⟨⟩
  exact Sink.hasRoom_of_unlimited rfl

end Run

end ForeignDecl
