import ForeignDecl.Proofs.Extract.Failures
import ForeignDecl.Proofs.Run.Stages

/-!
# Runs that are cut off

What a run onto limited sinks leaves can be told from the run of the same unit onto sinks without
limits. Where a text is cut off, how deep in the document that is and whether the run would have ended
there or later for another reason makes no difference.
-/

set_option autoImplicit false

namespace ForeignDecl

/-! ## Blank outputs -/

namespace Outputs

variable {o : Outputs} {f : Channel → Sink → Sink} {texts : Texts} {ch : Channel} {k : Sink}

/-- What the sink of a channel holds, which is nothing if there is no sink. Runs are compared by this,
so that a sink that is missing is no special case. -/
def bytes (o : Outputs) (ch : Channel) : ByteArray :=
  match o.sink? ch with
  | some k => k.contents
  | none => .empty

/-- How much may be written to a channel. There is no limit without a sink. -/
def limit? (o : Outputs) (ch : Channel) : Option Nat := (o.sink? ch).bind Sink.limit?

/-- Nothing is written yet. Else the limit of a sink would be used up in part before the run. -/
def IsBlank (o : Outputs) : Prop := ∀ ch, o.bytes ch = .empty

/-- The same sinks without limits. A run onto them is the one that the others are compared with. -/
def unlimited (o : Outputs) : Outputs := o.map fun _ k => { k with limit? := none }

theorem bytes_of_sink (h : k ∈ o.sink? ch) : o.bytes ch = k.contents := by
  unfold bytes
  rw [h]

theorem bytes_of_none (h : o.sink? ch = none) : o.bytes ch = .empty := by
  unfold bytes
  rw [h]

/-- The texts for which there is a sink. A run makes all texts, but only these can be seen. -/
def received (o : Outputs) (texts : Texts) : Texts := fun ch =>
  match o.sink? ch with
  | some _ => texts ch
  | none => .empty

theorem received_of_sink (h : k ∈ o.sink? ch) : o.received texts ch = texts ch := by
  unfold received
  rw [h]

/-- What is in the sinks when each has been given its text, or a part of it. -/
theorem bytes_map (hcontents : ∀ k ∈ o.sink? ch, (f ch k).contents = texts ch) :
    (o.map f).bytes ch = o.received texts ch := by
  cases hk : o.sink? ch with
  | none =>
    unfold bytes received
    rw [sink?_map, hk]
    rfl
  | some k =>
    rw [bytes_of_sink (mem_sink?_map.2 ⟨k, hk, rfl⟩), received_of_sink hk]
    exact hcontents k hk

theorem hasRoom_unlimited : o.unlimited.HasRoom texts := by
  intro ch _ hk
  obtain ⟨k, -, rfl⟩ := mem_sink?_map.1 hk
  exact Sink.hasRoom_of_unlimited rfl

section IsBlank

variable (ho : o.IsBlank)

include ho

theorem IsBlank.contents (hk : k ∈ o.sink? ch) : k.contents = .empty := by
  rw [← bytes_of_sink hk, ho ch]

theorem IsBlank.contents_write (hk : k ∈ o.sink? ch) (b : ByteArray) :
    (k.write b).contents = b := by
  show k.contents ++ b = b
  rw [ho.contents hk, ByteArray.empty_append]

/-- A text fits if it is not longer than the limit. This is what the claims about sizes come down to. -/
theorem IsBlank.hasRoom_iff (hk : k ∈ o.sink? ch) {b : ByteArray} :
    k.HasRoom b ↔ ∀ limit ∈ o.limit? ch, b.size ≤ limit := by
  have hlimit : o.limit? ch = k.limit? := by
    unfold limit?
    rw [hk]
    rfl
  unfold Sink.HasRoom
  rw [hlimit, ho.contents hk]
  rfl

theorem IsBlank.bytes_write : (o.write texts).bytes = o.received texts :=
  funext fun _ => bytes_map fun _ hk => ho.contents_write hk _

theorem IsBlank.bytes_write_unlimited : (o.unlimited.write texts).bytes = o.received texts := by
  unfold write unlimited
  rw [map_map]
  exact funext fun _ => bytes_map fun _ hk => ho.contents_write hk _

theorem IsBlank.bytes_cut_self {limit : Nat} (hlimit : limit ∈ o.limit? ch) :
    (o.cut texts ch).bytes ch = (o.received texts ch).extract 0 limit := by
  obtain ⟨k, hk, hk'⟩ := Option.bind_eq_some_iff.1 hlimit
  unfold cut
  rw [bytes_of_sink (mem_sink?_map.2 ⟨k, hk, rfl⟩), received_of_sink hk, cutSink_self, Sink.fill,
    hk']
  show k.contents ++ (texts ch).extract 0 (limit - k.contents.size) = _
  rw [ho.contents hk, ByteArray.empty_append]
  rfl

theorem IsBlank.bytes_cut_before {ch' : Channel} (hlt : ch' < ch) :
    (o.cut texts ch).bytes ch' = o.received texts ch' := by
  refine bytes_map fun k hk => ?_
  rw [cutSink_before hlt]
  exact ho.contents_write hk _

theorem IsBlank.bytes_cut_behind {ch' : Channel} (hgt : ch < ch') :
    (o.cut texts ch).bytes ch' = .empty := by
  cases hk : o.sink? ch' with
  | none => exact bytes_of_none (by simp [cut, hk])
  | some k =>
    unfold cut
    rw [bytes_of_sink (mem_sink?_map.2 ⟨k, hk, rfl⟩), cutSink_behind hgt]
    exact ho.contents hk

end IsBlank

end Outputs

namespace Run

/-- **The texts of a run and its end depend on which sinks there are**, and on nothing else about
them. -/
theorem exists_run_delivers (c : Config) (host : String) (u : TranslationUnit) (o : Outputs) :
    ∃ texts answer, ∀ g : Channel → Sink → Sink,
      Delivers (run c host u) (o.map g) texts answer := by
  cases hprepare : prepare c host o with
  | error e =>
    refine ⟨fun _ => .empty, .error (.config e), fun g => delivers_nothing ?_⟩
    rw [run_eq, prepare_map, hprepare]
    rfl
  | ok p =>
    obtain ⟨texts, answer, hproduce⟩ := exists_produce_delivers c u p.1 p.2
    have hrun : ∀ g, run c host u (o.map g) = produce c u p.1 p.2 (o.map g) := by
      intro g
      rw [run_eq, prepare_map, hprepare]
    refine ⟨texts, answer, fun g => ⟨fun h => ?_, fun ch h => ?_⟩⟩
    · rw [hrun, (hproduce _).fits h]
    · rw [hrun, (hproduce _).cuts ch h]

/-- **A run onto limited sinks is the run without limits, as far as there is room.** If all texts fit,
the end and the texts are the same. Otherwise the run fails at the first text that is too long: what
fits of it is written, all texts before it are complete, and those behind it are missing. -/
theorem run_cutOff (c : Config) (host : String) (u : TranslationUnit) (o : Outputs)
    (ho : o.IsBlank) :
    let full := run c host u o.unlimited
    let text := (outputs full).bytes
    let r := run c host u o
    ((∀ ch, ∀ limit ∈ o.limit? ch, (text ch).size ≤ limit) →
      answer r = answer full ∧ (outputs r).bytes = text) ∧
    ∀ ch, ∀ limit ∈ o.limit? ch, limit < (text ch).size →
      (∀ ch' < ch, ∀ limit' ∈ o.limit? ch', (text ch').size ≤ limit') →
        answer r = .error (.extract (.write .sinkFull)) ∧
        (outputs r).bytes ch = (text ch).extract 0 limit ∧
        (∀ ch' < ch, (outputs r).bytes ch' = text ch') ∧
        ∀ ch' > ch, (outputs r).bytes ch' = .empty := by
  intro full text r
  obtain ⟨texts, answer', hdelivers⟩ := exists_run_delivers c host u o
  have hfull : full = settle answer' (o.unlimited.write texts) :=
    (hdelivers fun _ k => { k with limit? := none }).fits Outputs.hasRoom_unlimited
  have hlimited : Delivers (run c host u) o texts answer' := by
    have h := hdelivers fun _ k => k
    rwa [Outputs.map_id] at h
  -- Both runs deliver the same texts, but a text for which there is no sink cannot be too long.
  have htext : text = o.received texts := by
    show (outputs full).bytes = _
    rw [hfull, outputs_settle, ho.bytes_write_unlimited]
  have hroom : ∀ ch, (∀ limit ∈ o.limit? ch, (text ch).size ≤ limit) →
      ∀ k ∈ o.sink? ch, k.HasRoom (texts ch) := by
    intro ch h k hk
    rw [htext, Outputs.received_of_sink hk] at h
    exact (ho.hasRoom_iff hk).2 h
  constructor
  · intro h
    have hr : r = settle answer' (o.write texts) :=
      hlimited.fits fun ch k hk => hroom ch (h ch) k hk
    rw [hr, hfull, htext, answer_settle, answer_settle, outputs_settle, ho.bytes_write]
    exact ⟨rfl, rfl⟩
  · intro ch limit hlimit hlong hfirst
    have hover : o.Overflows texts ch := by
      obtain ⟨k, hk, -⟩ := Option.bind_eq_some_iff.1 hlimit
      refine ⟨⟨k, hk, fun hfits => ?_⟩, fun ch' hlt => hroom ch' (hfirst ch' hlt)⟩
      rw [htext, Outputs.received_of_sink hk] at hlong
      exact absurd ((ho.hasRoom_iff hk).1 hfits limit hlimit) (Nat.not_le_of_lt hlong)
    have hr : r = .error (.extract (.write .sinkFull)) (o.cut texts ch) := hlimited.cuts ch hover
    rw [hr, htext]
    refine ⟨rfl, ho.bytes_cut_self hlimit, ?_, ?_⟩
    · intro ch' hlt
      exact ho.bytes_cut_before hlt
    · intro ch' hgt
      exact ho.bytes_cut_behind hgt

/-- A macro constant, and an instance variable of a record that is not defined. -/
def forwardUnit : TranslationUnit :=
  { Extract.forwardIvar with
    macros.entries := [
      { name := "N", location? := some ⟨"a.h", 1, 9⟩, tokens := [⟨.number, "1", true⟩] }] }

/-- Without a limit it is the layout that ends the run, with one it is the sink. -/
theorem run_cutOff_forward :
    let c : Config := { arch? := some "x86-linux" }
    let o : Outputs := { macros? := some {}, document := { limit? := some 1 }, templates? := some {} }
    let full := run c "" forwardUnit o.unlimited
    let r := run c "" forwardUnit o
    answer full = .error (.extract (.layout (.incomplete "S"))) ∧
      answer r = .error (.extract (.write .sinkFull)) ∧
      (outputs r).bytes .document = ((outputs full).bytes .document).extract 0 1 ∧
      (outputs r).bytes .macros = (outputs full).bytes .macros ∧
      (outputs r).bytes .templates = .empty := by
  intro c o full r
  have ho : o.IsBlank := by
    intro ch
    cases ch <;> rfl
  have hprepare : prepare c "" o.unlimited = .ok (.x86Linux, .json) := by
    unfold prepare Config.check
    rw [checkTarget_x86Linux rfl, target_x86Linux rfl]
    rfl
  have hfull : full = produce c forwardUnit .x86Linux .json o.unlimited := by
    show run c "" forwardUnit o.unlimited = _
    rw [run_eq, hprepare]
  have hanswer : answer full = .error (.extract (.layout (.incomplete "S"))) := by
    rw [hfull]
    rfl
  have hlong : 1 < ((outputs full).bytes .document).size := by
    rw [hfull]
    decide +kernel
  obtain ⟨-, hcut⟩ := run_cutOff c "" forwardUnit o ho
  have hfirst : ∀ ch < Channel.document, ∀ limit ∈ o.limit? ch,
      ((outputs full).bytes ch).size ≤ limit := by
    intro ch hlt limit hlimit
    cases ch with
    | macros => cases hlimit
    | document => exact absurd hlt (lt_irrefl _)
    | templates => cases hlimit
  obtain ⟨hend, hdocument, hbefore, hbehind⟩ := hcut .document 1 rfl hlong hfirst
  exact ⟨hanswer, hend, hdocument, hbefore .macros (by decide), hbehind .templates (by decide)⟩

end Run

end ForeignDecl
