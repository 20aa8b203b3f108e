import ForeignDecl.Proofs.Run.Deliveries
import ForeignDecl.Proofs.Target

/-!
# The stages of a run

A run first looks at its configuration and its outputs (`Run.prepare`), and then writes
(`Run.produce`). Nothing is written in the first half, and the second half does not look at the
configuration for faults any more.
-/

set_option autoImplicit false

namespace ForeignDecl

namespace Run

/-- What a run has to know before it writes, or the first fault of the configuration. Nothing of it
depends on what is in the outputs, only on which there are (`prepare_map`). -/
def prepare (c : Config) (host : String) (o : Outputs) :
    Except ConfigError (Target × DocumentFormat) := do
  c.check
  checkOutputs c o
  let t ← c.target host
  let f ← c.format
  return (t, f)

/-- What a run writes behind the macros. It is a stage of its own because the order of the texts is
shown in two steps: nothing before the macros, and no templates before the document. -/
def produceMain (c : Config) (u : TranslationUnit) (t : Target) (f : DocumentFormat) :
    Run Extraction := do
  let extraction ← document c u t f
  templates c u extraction.registry
  return extraction

/-- What a run writes. From here on the configuration has no faults, so whatever goes wrong is a sink
that is full or an error of the extraction. -/
def produce (c : Config) (u : TranslationUnit) (t : Target) (f : DocumentFormat) :
    Run Extraction := do
  macros c u
  produceMain c u t f

variable {c : Config} {u : TranslationUnit} {t : Target} {f : DocumentFormat} {o : Outputs}

/-- A step that may have a fault of the configuration goes on with its answer, or ends the run as it is.
-/
theorem require_bind {α β : Type} (answer : Except ConfigError α) (g : α → Run β) :
    (require answer >>= g) o =
      match answer with
      | .ok a => g a o
      | .error e => .error (.config e) o := by
  cases answer <;> rfl

/-- **First a run prepares, then it produces.** -/
theorem run_eq (c : Config) (host : String) (u : TranslationUnit) (o : Outputs) :
    run c host u o =
      match prepare c host o with
      | .ok (t, f) => produce c u t f o
      | .error e => .error (.config e) o := by
  unfold run prepare
  rw [require_bind]
  cases c.check with
  | error e => rfl
  | ok _ =>
    show (require (checkOutputs c o) >>= _) o = _
    rw [require_bind]
    cases checkOutputs c o with
    | error e => rfl
    | ok _ =>
      show (require (c.target host) >>= _) o = _
      rw [require_bind]
      cases c.target host with
      | error e => rfl
      | ok t =>
        show (require c.format >>= _) o = _
        rw [require_bind]
        cases c.format <;> rfl

/-- Which outputs there are is all that the check looks at. -/
theorem checkOutputs_map (g : Channel → Sink → Sink) :
    checkOutputs c (o.map g) = checkOutputs c o := by
  simp [checkOutputs, Outputs.map]

/-- So a run is prepared alike, whatever the limits and the contents of its sinks are. -/
theorem prepare_map (host : String) (g : Channel → Sink → Sink) :
    prepare c host (o.map g) = prepare c host o := by
  unfold prepare
  rw [checkOutputs_map]

/-- The architecture `x86-linux` passes the check. The check looks for the parts of a triple in a way
that is not evaluated, so the target is found by a lemma. -/
theorem checkTarget_x86Linux (h : c.arch? = some "x86-linux") : c.checkTarget = .ok () := by
  unfold Config.checkTarget
  rw [h]
  dsimp only
  rw [Target.ofTriple?_x86Linux]

theorem target_x86Linux (h : c.arch? = some "x86-linux") (host : String) :
    c.target host = .ok .x86Linux := by
  unfold Config.target
  rw [h]
  dsimp only [Option.getD]
  rw [Target.ofTriple?_x86Linux]

/-! ## What the stages deliver -/

/-- The text of the macros, which depends on the table and on whether definitions are asked for. -/
def macrosText (c : Config) (u : TranslationUnit) : ByteArray :=
  (u.macros.fragment c.withMacroDefs).toUTF8

theorem macros_delivers (c : Config) (u : TranslationUnit) (o : Outputs) :
    Delivers (macros c u) o (.only .macros (macrosText c u)) (.ok ()) := by
  unfold macrosText
  apply delivers_only
  · intro hnone
    unfold macros
    rw [show o.macros? = none from hnone]
    rfl
  · intro k hk hroom
    unfold macros MacroTable.writeConstants
    rw [Outputs.set_macros hk, show o.macros? = some k from hk]
    dsimp only
    rw [Sink.put_bind_of_hasRoom hroom]
    rfl
  · intro k hk hfull
    unfold macros MacroTable.writeConstants
    rw [Outputs.set_macros hk, show o.macros? = some k from hk]
    dsimp only
    rw [Sink.put_bind_of_not_hasRoom hfull]

/-- The text for the templates, which is empty if none are asked for. Then the sink is not touched. -/
def templatesText (c : Config) (u : TranslationUnit) (r : Registry) : ByteArray :=
  if c.templateInstantiations then (r.instantiations u).toUTF8 else .empty

theorem templates_delivers (c : Config) (u : TranslationUnit) (r : Registry) (o : Outputs) :
    Delivers (templates c u r) o (.only .templates (templatesText c u r)) (.ok ()) := by
  unfold templatesText
  apply delivers_only
  · intro hnone
    unfold templates
    rw [show o.templates? = none from hnone]
    rfl
  · intro k hk hroom
    unfold templates Registry.writeInstantiations
    rw [Outputs.set_templates hk, show o.templates? = some k from hk]
    dsimp only
    split
    · next hasked =>
      rw [if_pos hasked] at hroom
      rw [Sink.put_bind_of_hasRoom hroom]
      rfl
    · rw [Sink.write_empty, ← show o.templates? = some k from hk]
      rfl
  · intro k hk hfull
    unfold templates Registry.writeInstantiations
    rw [Outputs.set_templates hk, show o.templates? = some k from hk]
    dsimp only
    split
    · next hasked =>
      rw [if_pos hasked] at hfull
      rw [Sink.put_bind_of_not_hasRoom hfull]
    · next hasked =>
      rw [if_neg hasked] at hfull
      exact absurd Sink.hasRoom_empty hfull

/-- The text of the document and its end do not depend on the outputs. Of the writer it is needed that
it only appends to its sink; what it appends and how the extraction ends is not computed here, so that
this holds of every unit. -/
theorem exists_document_delivers (c : Config) (u : TranslationUnit) (t : Target)
    (f : DocumentFormat) :
    ∃ bytes answer, ∀ o, Delivers (document c u t f) o (.only .document bytes) answer := by
  let ctx : Context Page := { unit := u, oracle := Layout.words .checked u t, writer := f.writer }
  have hflows : Extract.Flows (Extract.document ctx c.namespaceName?) :=
    Extract.document_streams f.writer_streaming _
  -- The bytes are what the same extraction writes onto a sink without a limit.
  obtain ⟨bytes, r, hpours⟩ := hflows { page := {} }
  have hfits : ∀ k : Sink, k.HasRoom bytes →
      Extract.document ctx c.namespaceName? { page := { sink := k } } =
        resultInto (k.write bytes) r := hpours.fits
  have hcuts : ∀ k : Sink, ¬k.HasRoom bytes →
      ∃ s : Session Page, Extract.document ctx c.namespaceName? { page := { sink := k } } =
        .error (.write .sinkFull) (HasSink.into (k.fill bytes) s) := hpours.cuts
  have hfull : ∀ o : Outputs, ∀ k ∈ o.sink? .document, ¬k.HasRoom bytes →
      document c u t f o =
        .error (.extract (.write .sinkFull)) (o.set .document (k.fill bytes)) := by
    rintro o _ ⟨⟩ h
    obtain ⟨s, hs⟩ := hcuts o.document h
    unfold document
    dsimp only
    rw [Outputs.set_document, hs]
    rfl
  cases r with
  | ok _ s =>
    refine ⟨bytes, .ok ⟨s.summary, s.registry⟩, fun o =>
      delivers_only (fun hnone => by cases hnone) ?_ (hfull o)⟩
    rintro _ ⟨⟩ h
    unfold document
    dsimp only
    rw [Outputs.set_document, hfits o.document h]
    rfl
  | error e s =>
    refine ⟨bytes, .error (.extract e), fun o =>
      delivers_only (fun hnone => by cases hnone) ?_ (hfull o)⟩
    rintro _ ⟨⟩ h
    unfold document
    dsimp only
    rw [Outputs.set_document, hfits o.document h]
    rfl

/-- **The texts that a run produces and its end do not depend on the outputs**, if there is room for
the texts. If there is none, the run ends at the first text that does not fit. -/
theorem exists_produce_delivers (c : Config) (u : TranslationUnit) (t : Target)
    (f : DocumentFormat) : ∃ texts answer, ∀ o, Delivers (produce c u t f) o texts answer := by
  have hfirst : ∀ texts : Texts, ∀ ch < Channel.macros, texts ch = .empty := by
    intro texts ch hlt
    cases ch <;> exact absurd hlt (by decide)
  obtain ⟨bytes, answer, hdocument⟩ := exists_document_delivers c u t f
  cases answer with
  | error e =>
    exact ⟨_, _, fun o => (macros_delivers c u o).bind (fun o => (hdocument o).bind_error)
      (Texts.only_before (hfirst _))⟩
  | ok extraction =>
    have hlast : ∀ o, Delivers (do
        templates c u extraction.registry
        return extraction) o
        (fun ch => Texts.only .templates (templatesText c u extraction.registry) ch ++ .empty)
        (.ok extraction) :=
      fun o => (templates_delivers c u extraction.registry o).bind
        (fun _ => delivers_nothing rfl) (fun _ _ _ h => absurd rfl h)
    have hbefore : (Texts.only .document bytes).Before fun ch =>
        Texts.only .templates (templatesText c u extraction.registry) ch ++ .empty := by
      apply Texts.only_before
      intro ch hlt
      cases ch with
      | macros => rfl
      | document => exact absurd hlt (by decide)
      | templates => exact absurd hlt (by decide)
    exact ⟨_, _, fun o => (macros_delivers c u o).bind (fun o => (hdocument o).bind hlast hbefore)
      (Texts.only_before (hfirst _))⟩

end Run

end ForeignDecl
