import Mathlib.Order.Lattice
import Mathlib.Order.Nat
import ForeignDecl.Proofs.Extract.Streaming
import ForeignDecl.Run

/-!
# What a run delivers

A run writes to three sinks, any of which can run full. `Delivers` says what comes of it: there are a
text for each sink and an answer, and either all texts have room and the answer is given, or the first
text without room is cut off and everything behind it is missing.

Deliveries can be put one after another if the later one has nothing for earlier sinks
(`Delivers.bind`). That is all that the order of the texts is needed for.
-/

set_option autoImplicit false

namespace ForeignDecl

/-! ## Channels -/

/-- The sinks of a run: for the macro constants, for the document and for the template instantiations.
The first and the last may be missing. -/
inductive Channel where
  | macros
  | document
  | templates
deriving DecidableEq, Repr

namespace Channel

/-- The place in the order in which the sinks are written to. The sinks are ordered by it, so that what
is before and behind a text that is cut off can be said with `<`. -/
def rank : Channel → Nat
  | macros => 0
  | document => 1
  | templates => 2

theorem rank_injective : Function.Injective rank := by
  intro a b h
  cases a <;> cases b <;> first | rfl | cases h

instance : LinearOrder Channel := LinearOrder.lift' rank rank_injective

end Channel

/-- What there is to write to each sink. Every step of a run has texts for all sinks, most of them
empty, so that the texts of two steps are put together sink by sink. -/
abbrev Texts := Channel → ByteArray

/-- Something for one sink only. -/
def Texts.only (ch : Channel) (bytes : ByteArray) : Texts := fun ch' =>
  if ch' = ch then bytes else .empty

namespace Texts

variable {ch ch' : Channel} {bytes : ByteArray}

theorem only_self : Texts.only ch bytes ch = bytes := if_pos rfl

theorem only_of_ne (h : ch' ≠ ch) : Texts.only ch bytes ch' = .empty := if_neg h

/-- There is nothing in the second texts for a sink that comes before one of the first. Then what is cut
off first in the two texts together is found by looking at the sinks in their order. -/
def Before (texts texts' : Texts) : Prop :=
  ∀ ch ch', texts ch ≠ .empty → texts' ch' ≠ .empty → ch ≤ ch'

/-- A text for one sink comes before texts that have nothing for earlier sinks. -/
theorem only_before {texts : Texts} (h : ∀ ch' < ch, texts ch' = .empty) :
    (Texts.only ch bytes).Before texts := by
  intro ch₁ ch₂ h₁ h₂
  have hch : ch₁ = ch := by
    by_contra hne
    exact h₁ (only_of_ne hne)
  rw [hch]
  exact le_of_not_gt fun hlt => h₂ (h ch₂ hlt)

end Texts

namespace Outputs

variable {o : Outputs} {f g : Channel → Sink → Sink} {texts texts' : Texts} {ch : Channel}

/-- The sink of a channel, if there is one. -/
def sink? (o : Outputs) : Channel → Option Sink
  | .macros => o.macros?
  | .document => some o.document
  | .templates => o.templates?

/-- Do something with every sink that there is. All that steps do with outputs is of this form, and
which sinks there are does not change. -/
def map (f : Channel → Sink → Sink) (o : Outputs) : Outputs where
  macros? := o.macros?.map (f .macros)
  document := f .document o.document
  templates? := o.templates?.map (f .templates)

@[simp]
theorem sink?_map : (o.map f).sink? ch = (o.sink? ch).map (f ch) := by cases ch <;> rfl

@[simp]
theorem map_map : (o.map f).map g = o.map fun ch k => g ch (f ch k) := by
  simp [map, Function.comp_def]

theorem map_id (o : Outputs) : (o.map fun _ k => k) = o := by simp [map]

theorem mem_sink?_map {k : Sink} :
    k ∈ (o.map f).sink? ch ↔ ∃ k', k' ∈ o.sink? ch ∧ f ch k' = k := by
  rw [sink?_map]
  exact Option.map_eq_some_iff

/-- What is done matters only for the sinks that there are. -/
theorem map_congr (h : ∀ ch, ∀ k ∈ o.sink? ch, f ch k = g ch k) : o.map f = o.map g := by
  have hmacros : o.macros?.map (f .macros) = o.macros?.map (g .macros) :=
    Option.map_congr (h .macros)
  have htemplates : o.templates?.map (f .templates) = o.templates?.map (g .templates) :=
    Option.map_congr (h .templates)
  unfold map
  rw [hmacros, h .document _ rfl, htemplates]

/-- Another sink in the place of one that there is. -/
def set (o : Outputs) (ch : Channel) (k : Sink) : Outputs := o.map fun ch' k' =>
  if ch' = ch then k else k'

/-- Steps are written with the fields of the outputs; here is how such an update is the one of a
channel. -/
theorem set_macros {k k' : Sink} (h : o.macros? = some k) :
    o.set .macros k' = { o with macros? := some k' } := by simp [set, map, h]

theorem set_document {k' : Sink} : o.set .document k' = { o with document := k' } := by
  simp [set, map]

theorem set_templates {k k' : Sink} (h : o.templates? = some k) :
    o.set .templates k' = { o with templates? := some k' } := by simp [set, map, h]

/-- All the texts still fit, each in its sink. -/
def HasRoom (o : Outputs) (texts : Texts) : Prop := ∀ ch, ∀ k ∈ o.sink? ch, k.HasRoom (texts ch)

/-- The first text without room is the one of `ch`. That is where a run ends; later texts may have no
room either. -/
structure Overflows (o : Outputs) (texts : Texts) (ch : Channel) : Prop where
  full : ∃ k ∈ o.sink? ch, ¬k.HasRoom (texts ch)
  first : ∀ ch' < ch, ∀ k ∈ o.sink? ch', k.HasRoom (texts ch')

/-- The outputs with the texts in them. -/
def write (o : Outputs) (texts : Texts) : Outputs := o.map fun ch k => k.write (texts ch)

/-- The sink of `ch'` when the text of `ch` is the first one that is cut off. What comes before `ch` in
the order of channels is whole, and what comes after it was not begun. -/
def cutSink (texts : Texts) (ch ch' : Channel) (k : Sink) : Sink :=
  if ch' < ch then k.write (texts ch') else if ch' = ch then k.fill (texts ch') else k

/-- The outputs with the texts of all channels before `ch` in them, and of the text of `ch` what
fits. -/
def cut (o : Outputs) (texts : Texts) (ch : Channel) : Outputs := o.map (cutSink texts ch)

section CutSink

variable {ch' : Channel} {k : Sink}

theorem cutSink_before (h : ch' < ch) : cutSink texts ch ch' k = k.write (texts ch') := if_pos h

theorem cutSink_self : cutSink texts ch ch k = k.fill (texts ch) := by
  rw [cutSink, if_neg (lt_irrefl ch), if_pos rfl]

theorem cutSink_behind (h : ch < ch') : cutSink texts ch ch' k = k := by
  rw [cutSink, if_neg (not_lt_of_gt h), if_neg (ne_of_gt h)]

end CutSink

/-- Two texts have room together if the first one has, and the second one behind it. -/
theorem hasRoom_append : o.HasRoom (fun ch => texts ch ++ texts' ch) ↔
    o.HasRoom texts ∧ (o.write texts).HasRoom texts' := by
  constructor
  · intro h
    constructor
    · intro ch k hk
      exact (Sink.hasRoom_append.1 (h ch k hk)).1
    · intro ch _ hwritten
      obtain ⟨k, hk, rfl⟩ := mem_sink?_map.1 hwritten
      exact (Sink.hasRoom_append.1 (h ch k hk)).2
  · rintro ⟨h, h'⟩ ch k hk
    exact Sink.hasRoom_append.2 ⟨h ch k hk, h' ch _ (mem_sink?_map.2 ⟨k, hk, rfl⟩)⟩

theorem write_append :
    o.write (fun ch => texts ch ++ texts' ch) = (o.write texts).write texts' := by
  unfold write
  rw [map_map]
  exact map_congr fun _ _ _ => Sink.write_append

theorem write_empty : o.write (fun _ => .empty) = o := by
  simp [write, map]

theorem write_only_of_none {bytes : ByteArray} (h : o.sink? ch = none) :
    o.write (.only ch bytes) = o := by
  have hempty : o.write (.only ch bytes) = o.write fun _ => .empty := by
    refine map_congr fun ch' k hk => ?_
    by_cases hch : ch' = ch
    · subst hch
      rw [h] at hk
      cases hk
    · rw [Texts.only_of_ne hch]
  rw [hempty, write_empty]

theorem write_only {bytes : ByteArray} {k : Sink} (h : k ∈ o.sink? ch) :
    o.write (.only ch bytes) = o.set ch (k.write bytes) := by
  refine map_congr fun ch' k' hk' => ?_
  by_cases hch : ch' = ch
  · subst hch
    obtain rfl := Option.mem_unique h hk'
    rw [Texts.only_self, if_pos rfl]
  · rw [Texts.only_of_ne hch, if_neg hch, Sink.write_empty]

theorem cut_only {bytes : ByteArray} {k : Sink} (h : k ∈ o.sink? ch) :
    o.cut (.only ch bytes) ch = o.set ch (k.fill bytes) := by
  refine map_congr fun ch' k' hk' => ?_
  by_cases hch : ch' = ch
  · subst hch
    obtain rfl := Option.mem_unique h hk'
    rw [cutSink_self, Texts.only_self, if_pos rfl]
  · rw [cutSink, Texts.only_of_ne hch, if_neg hch, if_neg hch, Sink.write_empty, ite_self]

theorem hasRoom_only {bytes : ByteArray} :
    o.HasRoom (.only ch bytes) ↔ ∀ k ∈ o.sink? ch, k.HasRoom bytes := by
  constructor
  · intro h k hk
    have hroom := h ch k hk
    rwa [Texts.only_self] at hroom
  · intro h ch' k hk
    by_cases hch : ch' = ch
    · subst hch
      rw [Texts.only_self]
      exact h k hk
    · rw [Texts.only_of_ne hch]
      exact Sink.hasRoom_empty

theorem overflows_only {bytes : ByteArray} {k : Sink} (hk : k ∈ o.sink? ch)
    (hfull : ¬k.HasRoom bytes) : o.Overflows (.only ch bytes) ch := by
  constructor
  · rw [Texts.only_self]
    exact ⟨k, hk, hfull⟩
  · intro ch' hlt k' _
    rw [Texts.only_of_ne (ne_of_lt hlt)]
    exact Sink.hasRoom_empty

theorem sink?_set {ch' : Channel} (h : ch' ≠ ch) (k : Sink) :
    (o.set ch k).sink? ch' = o.sink? ch' := by
  unfold set
  rw [sink?_map]
  simp [h]

section Overflows

variable (hbefore : texts.Before texts') (h : o.Overflows (fun ch => texts ch ++ texts' ch) ch)
  {k : Sink} (hk : k ∈ o.sink? ch)

include hbefore h hk

/-- When the first of two texts is the one without room, the second ones are not needed: for the sinks
before it they are empty, and behind it nothing is written. -/
theorem Overflows.of_append_left (hfull : ¬k.HasRoom (texts ch)) :
    o.Overflows texts ch ∧ o.cut (fun ch => texts ch ++ texts' ch) ch = o.cut texts ch := by
  have hnone : ∀ ch' < ch, texts' ch' = .empty := by
    intro ch' hlt
    by_contra hch'
    exact absurd (hbefore ch ch' (Sink.ne_empty_of_not_hasRoom hfull) hch') (not_le_of_gt hlt)
  constructor
  · refine ⟨⟨k, hk, hfull⟩, fun ch' hlt k' hk' => ?_⟩
    exact (Sink.hasRoom_append.1 (h.first ch' hlt k' hk')).1
  · refine map_congr fun ch' k' hk' => ?_
    rcases lt_trichotomy ch' ch with hlt | rfl | hgt
    · rw [cutSink_before hlt, cutSink_before hlt, hnone ch' hlt, ByteArray.append_empty]
    · obtain rfl := Option.mem_unique hk hk'
      rw [cutSink_self, cutSink_self, Sink.fill_append_of_not_hasRoom hfull]
    · rw [cutSink_behind hgt, cutSink_behind hgt]

/-- When it is the second of two texts that has no room, all of the first ones have. Those for later
sinks are empty, as the second text is behind them. -/
theorem Overflows.of_append_right (hroom : k.HasRoom (texts ch)) :
    o.HasRoom texts ∧ (o.write texts).Overflows texts' ch ∧
      o.cut (fun ch => texts ch ++ texts' ch) ch = (o.write texts).cut texts' ch := by
  have hfull : ¬(k.write (texts ch)).HasRoom (texts' ch) := by
    intro hroom'
    obtain ⟨k', hk', hfull⟩ := h.full
    obtain rfl := Option.mem_unique hk hk'
    exact hfull (Sink.hasRoom_append.2 ⟨hroom, hroom'⟩)
  have hnone : ∀ ch' > ch, texts ch' = .empty := by
    intro ch' hgt
    by_contra hch'
    exact absurd (hbefore ch' ch hch' (Sink.ne_empty_of_not_hasRoom hfull)) (not_le_of_gt hgt)
  have hfirst : ∀ ch' < ch, ∀ k ∈ o.sink? ch',
      k.HasRoom (texts ch') ∧ (k.write (texts ch')).HasRoom (texts' ch') :=
    fun ch' hlt k hk => Sink.hasRoom_append.1 (h.first ch' hlt k hk)
  have hall : o.HasRoom texts := by
    intro ch' k' hk'
    rcases lt_trichotomy ch' ch with hlt | rfl | hgt
    · exact (hfirst ch' hlt k' hk').1
    · obtain rfl := Option.mem_unique hk hk'
      exact hroom
    · rw [hnone ch' hgt]
      exact Sink.hasRoom_empty
  refine ⟨hall, ⟨⟨_, mem_sink?_map.2 ⟨k, hk, rfl⟩, hfull⟩, ?_⟩, ?_⟩
  · intro ch' hlt _ hwritten
    obtain ⟨k', hk', rfl⟩ := mem_sink?_map.1 hwritten
    exact (hfirst ch' hlt k' hk').2
  · unfold cut write
    rw [map_map]
    refine map_congr fun ch' k' hk' => ?_
    rcases lt_trichotomy ch' ch with hlt | rfl | hgt
    · rw [cutSink_before hlt, cutSink_before hlt, Sink.write_append]
    · rw [cutSink_self, cutSink_self, Sink.fill_append_of_hasRoom (hall _ k' hk')]
    · rw [cutSink_behind hgt, cutSink_behind hgt, hnone ch' hgt, Sink.write_empty]

end Overflows

end Outputs

/-! ## Deliveries -/

namespace Run

variable {α β : Type}

theorem bind_of_ok {x : Run α} {f : α → Run β} {o o' : Outputs} {a : α} (h : x o = .ok a o') :
    (x >>= f) o = f a o' := by
  simp only [Bind.bind, EStateM.bind, h]

theorem bind_of_error {x : Run α} {f : α → Run β} {o o' : Outputs} {e : RunError}
    (h : x o = .error e o') : (x >>= f) o = .error e o' := by
  simp only [Bind.bind, EStateM.bind, h]

/-- A result with an answer that is known, and outputs that are known as well. -/
def settle (answer : Except RunError α) (o : Outputs) : EStateM.Result RunError Outputs α :=
  match answer with
  | .ok a => .ok a o
  | .error e => .error e o

/-- The answer of a step, or why there is none. -/
def answer : EStateM.Result RunError Outputs α → Except RunError α
  | .ok a _ => .ok a
  | .error e _ => .error e

/-- The outputs that a step leaves, however it ends. -/
def outputs : EStateM.Result RunError Outputs α → Outputs
  | .ok _ o | .error _ o => o

@[simp]
theorem answer_settle (a : Except RunError α) (o : Outputs) : answer (settle a o) = a := by
  cases a <;> rfl

@[simp]
theorem outputs_settle (a : Except RunError α) (o : Outputs) : outputs (settle a o) = o := by
  cases a <;> rfl

/-- From the outputs `o` the step delivers the texts and gives the answer, unless it has to end at the
first text that has no room. The answer may be a fault of its own, which comes after all the texts. -/
structure Delivers (x : Run α) (o : Outputs) (texts : Texts) (answer : Except RunError α) :
    Prop where
  fits : o.HasRoom texts → x o = settle answer (o.write texts)
  cuts : ∀ ch, o.Overflows texts ch → x o = .error (.extract (.write .sinkFull)) (o.cut texts ch)

variable {x : Run α} {o : Outputs} {texts texts' : Texts} {ch : Channel} {bytes : ByteArray}

/-- A step that has something for one sink only, if there is that sink. This is how the single steps of
a run are shown to deliver. -/
theorem delivers_only {answer : Except RunError α}
    (hnone : o.sink? ch = none → x o = settle answer o)
    (hfits : ∀ k ∈ o.sink? ch, k.HasRoom bytes → x o = settle answer (o.set ch (k.write bytes)))
    (hcuts : ∀ k ∈ o.sink? ch, ¬k.HasRoom bytes →
      x o = .error (.extract (.write .sinkFull)) (o.set ch (k.fill bytes))) :
    Delivers x o (.only ch bytes) answer where
  fits h := by
    cases hk : o.sink? ch with
    | none => rw [Outputs.write_only_of_none hk, hnone hk]
    | some k => rw [Outputs.write_only hk, hfits k hk (Outputs.hasRoom_only.1 h k hk)]
  cuts ch' h := by
    obtain ⟨k, hk, hfull⟩ := h.full
    by_cases hch : ch' = ch
    · subst hch
      rw [Texts.only_self] at hfull
      rw [Outputs.cut_only hk, hcuts k hk hfull]
    · rw [Texts.only_of_ne hch] at hfull
      exact absurd Sink.hasRoom_empty hfull

/-- The sinks that there is nothing for stay as they are. -/
theorem Delivers.frame {answer : Except RunError α} (h : Delivers x o (.only ch bytes) answer)
    {ch' : Channel} (hne : ch' ≠ ch) : (outputs (x o)).sink? ch' = o.sink? ch' := by
  cases hk : o.sink? ch with
  | none =>
    have hroom : o.HasRoom (.only ch bytes) := Outputs.hasRoom_only.2 fun k hk' => by
      rw [hk] at hk'
      cases hk'
    rw [h.fits hroom, outputs_settle, Outputs.write_only_of_none hk]
  | some k =>
    by_cases hroom : k.HasRoom bytes
    · have hall : o.HasRoom (.only ch bytes) := Outputs.hasRoom_only.2 fun k' hk' => by
        obtain rfl := Option.mem_unique hk hk'
        exact hroom
      rw [h.fits hall, outputs_settle, Outputs.write_only hk, Outputs.sink?_set hne]
    · rw [h.cuts ch (Outputs.overflows_only hk hroom), outputs, Outputs.cut_only hk,
        Outputs.sink?_set hne]

/-- A step that leaves all the outputs as they are. -/
theorem delivers_nothing {answer : Except RunError α} (h : x o = settle answer o) :
    Delivers x o (fun _ => .empty) answer where
  fits _ := by rw [Outputs.write_empty, h]
  cuts _ h := by
    obtain ⟨k, -, hfull⟩ := h.full
    exact absurd Sink.hasRoom_empty hfull

/-- Nothing comes behind a step that ends the run. -/
theorem Delivers.bind_error {f : α → Run β} {e : RunError} (hx : Delivers x o texts (.error e)) :
    Delivers (x >>= f) o texts (.error e) where
  fits h := bind_of_error (hx.fits h)
  cuts ch h := bind_of_error (hx.cuts ch h)

/-- **One delivery after another.** The later one may start from any outputs, since what is in them when
it starts is what the first one has left. -/
theorem Delivers.bind {f : α → Run β} {a : α} {answer : Except RunError β}
    (hx : Delivers x o texts (.ok a)) (hf : ∀ o, Delivers (f a) o texts' answer)
    (hbefore : texts.Before texts') :
    Delivers (x >>= f) o (fun ch => texts ch ++ texts' ch) answer := by
  have hthen : o.HasRoom texts → (x >>= f) o = f a (o.write texts) :=
    fun h => bind_of_ok (hx.fits h)
  constructor
  · intro h
    obtain ⟨hroom, hroom'⟩ := Outputs.hasRoom_append.1 h
    rw [hthen hroom, (hf _).fits hroom', Outputs.write_append]
  · intro ch h
    obtain ⟨k, hk, -⟩ := h.full
    -- Which of the two steps is cut off is decided by the first text for this sink.
    by_cases hroom : k.HasRoom (texts ch)
    · obtain ⟨hall, hover, hcut⟩ := h.of_append_right hbefore hk hroom
      rw [hthen hall, (hf _).cuts ch hover, hcut]
    · obtain ⟨hover, hcut⟩ := h.of_append_left hbefore hk hroom
      rw [bind_of_error (hx.cuts ch hover), hcut]

end Run

end ForeignDecl
