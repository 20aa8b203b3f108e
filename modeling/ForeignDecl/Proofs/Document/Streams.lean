import ForeignDecl.Document.Format
import ForeignDecl.Proofs.Document.Calls

/-!
# Steps that write as far as there is room

A sink can run full in the middle of anything. What is left in it then, and whether it happens at all,
depends on nothing but the bytes that a step is about to write and on the room that there is. `Streams`
says so of a step: there are bytes, and over every sink the step either writes all of them and does
otherwise what it does over any other sink, or it fails and the sink has the bytes that fit.

This is kept by everything that steps are made of, because a step that fails is the last one. In
particular it makes no difference where a text is cut into writes (`Sink.put_append`).
-/

set_option autoImplicit false

namespace ForeignDecl

/-! ## Room -/

namespace Sink

/-- All of the bytes still fit. A sink without a limit has room for everything, and one that is over its
limit already has room for the empty text only. -/
def HasRoom (k : Sink) (bytes : ByteArray) : Prop :=
  ∀ limit ∈ k.limit?, bytes.size ≤ limit - k.contents.size

/-- The sink with more bytes in it. -/
def write (k : Sink) (bytes : ByteArray) : Sink := { k with contents := k.contents ++ bytes }

/-- The sink with as many of the bytes in it as fit. This is what a sink has in it after a write that
failed. -/
def fill (k : Sink) (bytes : ByteArray) : Sink :=
  match k.limit? with
  | some limit => k.write (bytes.extract 0 (limit - k.contents.size))
  | none => k.write bytes

variable {k : Sink} {a b : ByteArray}

theorem hasRoom_of_unlimited (h : k.limit? = none) : k.HasRoom a := by
  intro limit hlimit
  rw [h] at hlimit
  cases hlimit

theorem hasRoom_empty : k.HasRoom .empty := fun _ _ => Nat.zero_le _

/-- Something that does not fit is something. -/
theorem ne_empty_of_not_hasRoom (h : ¬k.HasRoom a) : a ≠ .empty := by
  rintro rfl
  exact h hasRoom_empty

@[simp]
theorem write_empty : k.write .empty = k := by
  show { k with contents := k.contents ++ .empty } = k
  rw [ByteArray.append_empty]

theorem write_append : k.write (a ++ b) = (k.write a).write b := by
  show { k with contents := k.contents ++ (a ++ b) } = { k with contents := k.contents ++ a ++ b }
  rw [ByteArray.append_assoc]

/-- There is room for two texts if there is for the first and then for the second. -/
theorem hasRoom_append : k.HasRoom (a ++ b) ↔ k.HasRoom a ∧ (k.write a).HasRoom b := by
  unfold HasRoom
  simp only [write, ByteArray.size_append]
  constructor
  · intro h
    constructor
    · intro limit hlimit
      have := h limit hlimit
      omega
    · intro limit hlimit
      have := h limit hlimit
      omega
  · rintro ⟨ha, hb⟩ limit hlimit
    have := ha limit hlimit
    have := hb limit hlimit
    omega

private theorem extract_eq_self {n : Nat} (h : a.size ≤ n) : a.extract 0 n = a := by
  apply ByteArray.ext
  rw [ByteArray.data_extract]
  exact Array.extract_eq_self_of_le h

/-- What follows bytes that fit fills the room behind them. -/
theorem fill_append_of_hasRoom (h : k.HasRoom a) : k.fill (a ++ b) = (k.write a).fill b := by
  unfold fill
  cases hlimit : k.limit? with
  | none =>
    rw [show (k.write a).limit? = none from hlimit]
    exact write_append
  | some limit =>
    rw [show (k.write a).limit? = some limit from hlimit]
    show k.write ((a ++ b).extract 0 (limit - k.contents.size)) =
      (k.write a).write (b.extract 0 (limit - (k.contents ++ a).size))
    have hroom : limit - k.contents.size - a.size = limit - (k.contents.size + a.size) := by omega
    rw [ByteArray.extract_append, ByteArray.size_append, extract_eq_self (h limit hlimit),
      Nat.zero_sub, hroom]
    exact write_append

/-- What follows bytes that do not fit is lost. -/
theorem fill_append_of_not_hasRoom (h : ¬k.HasRoom a) : k.fill (a ++ b) = k.fill a := by
  unfold HasRoom at h
  unfold fill
  cases hlimit : k.limit? with
  | none => exact absurd (by simp [hlimit]) h
  | some limit =>
    have hlt : limit - k.contents.size < a.size := by simpa [hlimit] using h
    show k.write ((a ++ b).extract 0 (limit - k.contents.size)) =
      k.write (a.extract 0 (limit - k.contents.size))
    have hnone : limit - k.contents.size - a.size = 0 := by omega
    rw [ByteArray.extract_append, hnone, Nat.zero_sub, ByteArray.extract_same,
      ByteArray.append_empty]

theorem put_of_hasRoom {text : String} (h : k.HasRoom text.toUTF8) :
    put text k = .ok () (k.write text.toUTF8) := by
  obtain ⟨contents, limit?⟩ := k
  cases limit? with
  | none => rfl
  | some limit => exact if_pos (h limit rfl)

/-- Without room it fails, and what fits is written nevertheless. -/
theorem put_of_not_hasRoom {text : String} (h : ¬k.HasRoom text.toUTF8) :
    put text k = .error .sinkFull (k.fill text.toUTF8) := by
  obtain ⟨contents, limit?⟩ := k
  cases limit? with
  | none => exact absurd (hasRoom_of_unlimited rfl) h
  | some limit =>
    refine if_neg fun hle => h ?_
    rintro _ ⟨⟩
    exact hle

/-- What comes after a write that succeeds goes on from there, and after one that fails nothing comes.
-/
theorem put_bind_of_hasRoom {α : Type} {text : String} {f : Unit → Emit Sink α}
    (h : k.HasRoom text.toUTF8) : (put text >>= f) k = f () (k.write text.toUTF8) := by
  simp only [bind, EStateM.bind, put_of_hasRoom h]

theorem put_bind_of_not_hasRoom {α : Type} {text : String} {f : Unit → Emit Sink α}
    (h : ¬k.HasRoom text.toUTF8) :
    (put text >>= f) k = .error .sinkFull (k.fill text.toUTF8) := by
  simp only [bind, EStateM.bind, put_of_not_hasRoom h]

/-- **It makes no difference where a text is cut into writes.** -/
theorem put_append (text text' : String) :
    put (text ++ text') = put text >>= fun _ => put text' := by
  funext k
  have hbytes : (text ++ text').toUTF8 = text.toUTF8 ++ text'.toUTF8 := String.toByteArray_append
  -- The sink runs full in the first text, in the second, or in neither.
  by_cases h : k.HasRoom text.toUTF8
  · rw [put_bind_of_hasRoom h]
    by_cases h' : (k.write text.toUTF8).HasRoom text'.toUTF8
    · have hboth : k.HasRoom (text ++ text').toUTF8 := hbytes ▸ hasRoom_append.2 ⟨h, h'⟩
      rw [put_of_hasRoom hboth, put_of_hasRoom h', hbytes, write_append]
    · have hboth : ¬k.HasRoom (text ++ text').toUTF8 := by
        rw [hbytes, hasRoom_append]
        exact fun hand => h' hand.2
      rw [put_of_not_hasRoom hboth, put_of_not_hasRoom h', hbytes, fill_append_of_hasRoom h]
  · have hboth : ¬k.HasRoom (text ++ text').toUTF8 := by
      rw [hbytes, hasRoom_append]
      exact fun hand => h hand.1
    rw [put_of_not_hasRoom hboth, put_bind_of_not_hasRoom h, hbytes, fill_append_of_not_hasRoom h]

/-- So a text can be written in as many pieces as one likes. -/
theorem put_join (texts : List String) : put (String.join texts) = texts.forM put := by
  induction texts with
  | nil =>
    funext k
    have hempty : (String.join []).toUTF8 = .empty := rfl
    have hroom : k.HasRoom (String.join []).toUTF8 := hempty ▸ hasRoom_empty
    rw [put_of_hasRoom hroom, hempty, write_empty]
    rfl
  | cons text texts ih =>
    rw [String.join_cons, put_append, ih]
    rfl

end Sink

/-! ## Steps over a sink -/

/-- States with a sink in them. That of a page has one, and so has that of a session, which has the page
as a part. -/
class HasSink (S : Type) where
  /-- The state with another sink. -/
  into : Sink → S → S

open HasSink (into)

instance : HasSink Page where
  into k p := { p with sink := k }

section Streams

variable {ε S α β : Type} [HasSink S] {full : ε}

/-- A result with another sink in the state that it leaves. -/
def resultInto (k : Sink) : EStateM.Result ε S α → EStateM.Result ε S α
  | .ok a s => .ok a (into k s)
  | .error e s => .error e (into k s)

/-- From `s` the step writes `bytes` and has the result `r`, over any sink that has room for them. Over
any other it fails with `full` once the room is used up. The state that it fails in is not said, apart
from the sink: nothing looks at it anymore. -/
structure Pours (full : ε) (x : EStateM ε S α) (s : S) (bytes : ByteArray)
    (r : EStateM.Result ε S α) : Prop where
  fits : ∀ k : Sink, k.HasRoom bytes → x (into k s) = resultInto (k.write bytes) r
  cuts : ∀ k : Sink, ¬k.HasRoom bytes → ∃ s', x (into k s) = .error full (into (k.fill bytes) s')

/-- What the step writes and does is the same over all sinks, as far as there is room. Of a run with
this property it is enough to know what it does without a limit: with a limit its output is a beginning
of that. -/
def Streams (full : ε) (x : EStateM ε S α) : Prop := ∀ s, ∃ bytes r, Pours full x s bytes r

/-- A step that does nothing with the sink. All parts of an extraction that only read the unit or the
session are of this kind. -/
theorem streams_of_quiet {x : EStateM ε S α}
    (h : ∀ s, ∃ r, ∀ k, x (into k s) = resultInto k r) : Streams full x := by
  intro s
  obtain ⟨r, hr⟩ := h s
  refine ⟨.empty, r, fun k _ => ?_, fun k hk => absurd Sink.hasRoom_empty hk⟩
  rw [Sink.write_empty]
  exact hr k

theorem streams_pure (a : α) : Streams full (pure a : EStateM ε S α) := by
  refine streams_of_quiet fun s => ⟨.ok a s, fun _ => ?_⟩
  rfl

theorem streams_throw (e : ε) : Streams full (throw e : EStateM ε S α) := by
  refine streams_of_quiet fun s => ⟨.error e s, fun _ => ?_⟩
  rfl

/-- A change of the state beside the sink. -/
theorem streams_modify {f : S → S} (h : ∀ k s, f (into k s) = into k (f s)) :
    Streams full (modify f : EStateM ε S PUnit) := by
  refine streams_of_quiet fun s => ⟨.ok .unit (f s), fun k => ?_⟩
  show EStateM.Result.ok PUnit.unit (f (into k s)) = .ok .unit (into k (f s))
  rw [h]

theorem streams_modifyGet {f : S → α × S} (h : ∀ k s, f (into k s) = ((f s).1, into k (f s).2)) :
    Streams full (modifyGet f : EStateM ε S α) := by
  refine streams_of_quiet fun s => ⟨.ok (f s).1 (f s).2, fun k => ?_⟩
  show EStateM.Result.ok (f (into k s)).1 (f (into k s)).2 = .ok (f s).1 (into k (f s).2)
  rw [h]

/-- **One step after another.** The bytes of the second follow those of the first, and if there is no
room for those of the first, there is no second. All loops and branches of an extraction are put
together with this. -/
theorem Streams.bind {x : EStateM ε S α} {f : α → EStateM ε S β} (hx : Streams full x)
    (hf : ∀ a, Streams full (f a)) : Streams full (x >>= f) := by
  intro s
  obtain ⟨bytes, r, hpours⟩ := hx s
  have hcuts : ∀ k : Sink, ¬k.HasRoom bytes →
      ∃ s', (x >>= f) (into k s) = .error full (into (k.fill bytes) s') := by
    intro k hk
    obtain ⟨s', hs'⟩ := hpours.cuts k hk
    exact ⟨s', by simp only [Bind.bind, EStateM.bind, hs']⟩
  -- A first step that fails for a reason of its own is the last one too.
  cases r with
  | error e s₁ =>
    refine ⟨bytes, .error e s₁, fun k hk => ?_, hcuts⟩
    simp only [Bind.bind, EStateM.bind, hpours.fits k hk, resultInto]
  | ok a s₁ =>
    obtain ⟨bytes', r', hpours'⟩ := hf a s₁
    refine ⟨bytes ++ bytes', r', fun k hk => ?_, fun k hk => ?_⟩
    · obtain ⟨hroom, hroom'⟩ := Sink.hasRoom_append.1 hk
      have hfirst : (x >>= f) (into k s) = f a (into (k.write bytes) s₁) := by
        simp only [Bind.bind, EStateM.bind, hpours.fits k hroom, resultInto]
      rw [hfirst, hpours'.fits _ hroom', Sink.write_append]
    · -- The sink runs full in the second step, or before there is one.
      by_cases hroom : k.HasRoom bytes
      · have hroom' : ¬(k.write bytes).HasRoom bytes' := by
          intro h
          exact hk (Sink.hasRoom_append.2 ⟨hroom, h⟩)
        obtain ⟨s', hs'⟩ := hpours'.cuts _ hroom'
        refine ⟨s', ?_⟩
        simp only [Bind.bind, EStateM.bind, hpours.fits k hroom, resultInto]
        rw [hs', Sink.fill_append_of_hasRoom hroom]
      · rw [Sink.fill_append_of_not_hasRoom hroom]
        exact hcuts k hroom

/-- A step that looks at the state, though not at the sink in it. -/
theorem streams_get_bind {f : S → EStateM ε S α} (h : ∀ k s, f (into k s) = f s)
    (hf : ∀ s, Streams full (f s)) : Streams full (get >>= f) := by
  intro s
  obtain ⟨bytes, r, hpours⟩ := hf s s
  have hget : ∀ k, (get >>= f) (into k s) = f s (into k s) := by
    intro k
    show f (into k s) (into k s) = _
    rw [h]
  refine ⟨bytes, r, fun k hk => ?_, fun k hk => ?_⟩
  · rw [hget]
    exact hpours.fits k hk
  · obtain ⟨s', hs'⟩ := hpours.cuts k hk
    exact ⟨s', (hget k).trans hs'⟩

/-- What a step is made into, when the sink of its state is the sink that it had before. With this a
step of a writer becomes one of a session, whose state holds the page, and its errors become those of an
extraction. -/
theorem Streams.through {ε' T : Type} [HasSink T] {full' : ε'} {x : EStateM ε S α}
    {y : EStateM ε' T β} (hx : Streams full x) (part : T → S)
    (whole : T → EStateM.Result ε S α → EStateM.Result ε' T β)
    (hy : ∀ k t, y (into k t) = whole t (x (into k (part t))))
    (hinto : ∀ k t r, whole t (resultInto k r) = resultInto k (whole t r))
    (hfull : ∀ t s, ∃ t', whole t (.error full s) = .error full' t') : Streams full' y := by
  intro t
  obtain ⟨bytes, r, hpours⟩ := hx (part t)
  refine ⟨bytes, whole t r, fun k hk => ?_, fun k hk => ?_⟩
  · rw [hy, hpours.fits k hk, hinto]
  · obtain ⟨s', hs'⟩ := hpours.cuts k hk
    obtain ⟨t', ht'⟩ := hfull t s'
    refine ⟨t', ?_⟩
    rw [hy, hs', show EStateM.Result.error full (into (k.fill bytes) s') =
      (resultInto (k.fill bytes) (.error full s') : EStateM.Result ε S α) from rfl, hinto, ht']
    rfl

theorem Streams.map {x : EStateM ε S α} (hx : Streams full x) (f : α → β) :
    Streams full (f <$> x) := by
  rw [map_eq_pure_bind]
  exact hx.bind fun _ => streams_pure _

theorem Streams.ite {c : Prop} [Decidable c] {x y : EStateM ε S α} (hx : Streams full x)
    (hy : Streams full y) : Streams full (if c then x else y) := by
  split
  · exact hx
  · exact hy

theorem Streams.mapM {γ : Type} {f : γ → EStateM ε S α} (h : ∀ c, Streams full (f c)) :
    ∀ cs : List γ, Streams full (cs.mapM f)
  | [] => by
    rw [List.mapM_nil]
    exact streams_pure _
  | c :: cs => by
    rw [List.mapM_cons]
    exact (h c).bind fun _ => (Streams.mapM h cs).bind fun _ => streams_pure _

theorem Streams.forM {γ : Type} {f : γ → EStateM ε S PUnit} (h : ∀ c, Streams full (f c)) :
    ∀ cs : List γ, Streams full (cs.forM f)
  | [] => streams_pure _
  | c :: cs => (h c).bind fun _ => Streams.forM h cs

end Streams

/-! ## Writers -/

/-- To write to a page is to write to its sink. -/
theorem Page.put_streams (text : String) : Streams WriteError.sinkFull (Page.put text) := by
  intro p
  refine ⟨text.toUTF8, .ok () p, fun k hk => ?_, fun k hk => ⟨p, ?_⟩⟩
  · show Page.put text { p with sink := k } = _
    unfold Page.put
    rw [Sink.put_of_hasRoom hk]
    rfl
  · show Page.put text { p with sink := k } = _
    unfold Page.put
    rw [Sink.put_of_not_hasRoom hk]
    rfl

/-- Every call streams. An extraction with such a writer streams as a whole. -/
def DocumentWriter.Streaming (w : DocumentWriter Page) : Prop :=
  ∀ c, Streams WriteError.sinkFull (w.perform c)

/-- The JSON form asks whether a separator is due, and that is beside the sink. -/
theorem JsonForm.writer_streaming : JsonForm.writer.Streaming := by
  intro c
  cases c with
  | header => exact Page.put_streams _
  | announce name => exact (Page.put_streams _).bind fun _ => streams_modify fun _ _ => rfl
  | separator => exact Page.put_streams _
  | entry e =>
    refine streams_get_bind (fun _ _ => rfl) fun p => .ite ?_ (Page.put_streams _)
    exact (streams_modify fun _ _ => rfl).bind fun _ =>
      (Page.put_streams _).bind fun _ => Page.put_streams _
  | footer => exact Page.put_streams _

theorem Outline.writer_streaming : Outline.writer.Streaming := by
  intro c
  cases c with
  | entry e => exact Page.put_streams _
  | _ => exact streams_pure _

/-- **Every format of a document can be cut off anywhere**, with what was written until then left as it
is. -/
theorem DocumentFormat.writer_streaming (f : DocumentFormat) : f.writer.Streaming := by
  cases f with
  | json => exact JsonForm.writer_streaming
  | outline => exact Outline.writer_streaming

end ForeignDecl
