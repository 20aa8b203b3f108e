import ForeignDecl.Proofs.Layout.Fields
import ForeignDecl.Proofs.Extract.Origins
import ForeignDecl.Proofs.Layout.Words
import ForeignDecl.Proofs.Target

/-!
# Fields in documents

The offsets of the fields of a record come from one question to the layout oracle, their sizes and
alignments from others, a new one for each field. Natural layouts agree with each other (`TellsField`), so
fields that are told with them fit into their record and do not overlap (`TellsFields`).

A program computes these layouts in words of 64 bits. It answers as natural layouts do about the records of
which it is true that all numbers on the way to the answers fit into words (`AnswersNaturally`). With
checked words this is so of every record in a document, for otherwise the run would have stopped there;
with words that wrap around it has to be asked for (`WithinWords`). That is the one condition of
`document_fields`, and it cannot be left out: a record one byte short of the greatest size is rounded up to
none at all (`document_fields_wrapping`).
-/

set_option autoImplicit false

namespace ForeignDecl

/-- The description of a bitfield. Only the outermost constructor counts: a bitfield has no type built
on it. -/
def TypeRef.IsBitfield : TypeRef → Prop
  | .bitfield _ _ => True
  | _ => False

/-- The field is told as a bitfield. -/
def FieldEntry.IsBitfield (f : FieldEntry) : Prop := f.type.IsBitfield

instance : DecidablePred TypeRef.IsBitfield
  | .bitfield _ _ => .isTrue trivial
  | .simple _ | .basic _ _ _ | .pointer _ | .reference _ | .array _ _ | .record _ _ _ _ | .enum _ _
  | .template _ _ _ => .isFalse id

instance : DecidablePred FieldEntry.IsBitfield := fun f => inferInstanceAs (Decidable f.type.IsBitfield)

/-- What is told about a record in C or C++ alike. -/
def Entry.recordBody? : Entry → Option RecordEntry
  | .record r => some r
  | .classRecord c => some c.record
  | _ => none

namespace Extract

variable {σ : Type} {ctx : Context σ} {s s' : Session σ}

/-! ## Fields one by one -/

/-- Records and enumerations are never described as bitfields, and neither is any other type by itself.
-/
theorem describeRecord_not_isBitfield (d : DeclId) :
    Returns (fun t => ¬ t.IsBitfield) (describeRecord ctx d) := by
  unfold describeRecord
  dsimp only
  split
  · refine .bind fun _ => ?_
    split
    · exact .bind fun _ => returns_pure id
    · exact returns_pure id
  · refine .bind fun _ => ?_
    split
    · exact .bind fun _ => returns_pure id
    · exact returns_pure id

theorem describeEnum_not_isBitfield (d : DeclId) :
    Returns (fun t => ¬ t.IsBitfield) (describeEnum ctx d) := by
  unfold describeEnum
  dsimp only
  split
  · exact .bind fun _ => returns_pure id
  · exact .bind fun _ => returns_pure id

/-- Only the type of a bitfield is described as one. -/
theorem describeWithin_not_isBitfield :
    ∀ (fuel : Nat) (t : TypeId), Returns (fun t => ¬ t.IsBitfield) (describeWithin ctx fuel t)
  | 0, _ => returns_pure id
  | fuel + 1, t => by
    have ih := describeWithin_not_isBitfield fuel
    unfold describeWithin
    split
    · exact returns_pure id
    · exact .bind fun _ => returns_pure id
    · split
      · exact returns_pure id
      · exact .bind fun _ => returns_pure id
    · exact .bind fun _ => returns_pure id
    · exact .bind fun _ => returns_pure id
    · exact .bind fun _ => returns_pure id
    · exact .bind fun _ => returns_pure id
    · exact .bind fun _ => returns_pure id
    · exact describeRecord_not_isBitfield _
    · exact describeEnum_not_isBitfield _
    · exact returns_pure id
    · exact ih _
    · exact ih _
    · exact returns_pure id
    · exact .bind fun _ => .bind fun _ => returns_pure id
    all_goals exact returns_pure id

/-- A field is described as a bitfield exactly if it has a width. -/
theorem describeField_isBitfield {f : FieldNode} {type : TypeRef}
    (h : describeField ctx f s = .ok type s') : type.IsBitfield ↔ f.width?.isSome := by
  obtain ⟨base, s₁, hbase, h⟩ := bind_eq_ok.1 h
  cases hwidth : f.width? with
  | some width =>
    rw [hwidth] at h
    obtain ⟨rfl, _⟩ := pure_eq_ok.1 h
    exact ⟨fun _ => rfl, fun _ => trivial⟩
  | none =>
    rw [hwidth] at h
    obtain ⟨rfl, _⟩ := pure_eq_ok.1 h
    exact ⟨fun hbit => absurd hbit (describeWithin_not_isBitfield _ _ _ _ _ hbase), fun h => nomatch h⟩

/-- The entry `e` tells the field that is placed as `m` says. It ties the two halves of a field's entry
together: the offset comes from the layout of the record, size and alignment from a question about the
type alone. -/
structure Shows (u : TranslationUnit) (m : DeclId × Layout.FieldAt) (e : FieldEntry) : Prop where
  name : e.name = (u.node m.1).name
  isBitfield : e.IsBitfield ↔ m.2.field.width?.isSome
  offset : e.offset = m.2.offset
  layout : m.2.layout = ⟨e.size, e.align⟩

namespace Shows

variable {u : TranslationUnit} {m : DeclId × Layout.FieldAt} {e : FieldEntry}

theorem width?_eq_none (h : Shows u m e) (hbit : ¬ e.IsBitfield) : m.2.field.width? = none := by
  rwa [h.isBitfield, Bool.not_eq_true, Option.isSome_eq_false_iff, Option.isNone_iff_eq_none] at hbit

/-- The room that a field takes up, unless it is a bitfield. -/
theorem part_eq (h : Shows u m e) (hbit : ¬ e.IsBitfield) : m.2.part = ⟨e.offset, e.size⟩ := by
  rw [Layout.FieldAt.part, h.width?_eq_none hbit, h.layout, h.offset]
  rfl

end Shows

/-- The offsets in the entries are those of the layout. -/
theorem map_offset_of_shows {u : TranslationUnit} {ms : List (DeclId × Layout.FieldAt)}
    {es : List FieldEntry} (h : List.Forall₂ (Shows u) ms es) :
    es.map (·.offset) = ms.map (·.2.offset) := by
  induction h with
  | nil => rfl
  | cons hshows _ ih => rw [List.map_cons, List.map_cons, hshows.offset, ih]

/-- A field whose type has the layout that it was placed with is shown as it was placed. -/
theorem buildField_shows {m : DeclId × Layout.FieldAt} {e : FieldEntry}
    (hlayout : ctx.oracle.type m.2.field.type = .ok m.2.layout)
    (h : buildField ctx m.1 m.2.field m.2.offset s = .ok e s') : Shows ctx.unit m e := by
  obtain ⟨l, s₁, hl, h⟩ := bind_eq_ok.1 h
  obtain ⟨type, s₂, htype, h⟩ := bind_eq_ok.1 h
  obtain ⟨rfl, _⟩ := pure_eq_ok.1 h
  simp only [fieldLayout, hlayout] at hl
  obtain ⟨rfl, _⟩ := pure_eq_ok.1 hl
  exact ⟨rfl, describeField_isBitfield htype, rfl, rfl⟩

/-- **There is one entry for each field**, in order, with the offset of the field and the layout of its
type. -/
theorem buildFields_shows {record : DeclId} {ms : List (DeclId × Layout.FieldAt)}
    (hlayouts : ∀ m ∈ ms, ctx.oracle.type m.2.field.type = .ok m.2.layout) {index : Nat}
    {es : List FieldEntry}
    (h : buildFields ctx record index (ms.map (·.2.offset)) (ms.map fun m => (m.1, m.2.field)) s =
      .ok es s') : List.Forall₂ (Shows ctx.unit) ms es := by
  induction ms generalizing index es s with
  | nil =>
    rw [List.map_nil, List.map_nil, buildFields] at h
    obtain ⟨rfl, _⟩ := pure_eq_ok.1 h
    exact .nil
  | cons m ms ih =>
    rw [List.forall_mem_cons] at hlayouts
    rw [List.map_cons, List.map_cons, buildFields] at h
    obtain ⟨e, s₁, he, h⟩ := bind_eq_ok.1 h
    obtain ⟨es, s₂, hes, h⟩ := bind_eq_ok.1 h
    obtain ⟨rfl, rfl⟩ := pure_eq_ok.1 h
    exact .cons (buildField_shows hlayouts.1 he) (ih hlayouts.2 hes)

/-! ## The fields of a record -/

variable {t : Target} {d : DeclId}

/-- The entry `e` tells the member `m` of the record that `d` declares, a field. Its size and alignment
are those of its type, asked for on its own; inside the record the type has the same layout, and
whatever else it is laid out inside of, it has this one or none. -/
structure TellsField (u : TranslationUnit) (t : Target) (d : DeclId) (m : DeclId × FieldNode)
    (e : FieldEntry) : Prop where
  name : e.name = (u.node m.1).name
  isBitfield : e.IsBitfield ↔ m.2.width?.isSome
  alone : Layout.typeLayout u t m.2.type = .ok ⟨e.size, e.align⟩
  inside : Layout.typeLayoutInside u t d m.2.type = .ok ⟨e.size, e.align⟩
  anywhere : ∀ {fuel : Nat} {visiting : List DeclId} {l : TypeLayout}, fuel ≤ u.nodes.size + 1 →
    Layout.typeLayoutWithin u t (Layout.placementWithin u t fuel visiting) u.typeBudget m.2.type =
      .ok l → l = ⟨e.size, e.align⟩

/-- What is shown with the layout from inside the record is told with the layout of the type. The two
questions are answered alike because laying a type out inside of a record visits more, and can only
refuse more (`Layout.typeLayoutInside_refines`). -/
theorem Shows.tellsField {u : TranslationUnit} {m : DeclId × Layout.FieldAt} {e : FieldEntry}
    (h : Shows u m e)
    (hlayout : Layout.typeLayoutInside u t d m.2.field.type = .ok m.2.layout) :
    TellsField u t d (m.1, m.2.field) e := by
  rw [h.layout] at hlayout
  have halone := Layout.typeLayoutInside_refines _ _ _ hlayout
  exact {
    name := h.name
    isBitfield := h.isBitfield
    alone := halone
    inside := hlayout
    anywhere := fun hfuel hl =>
      Except.ok.inj ((Layout.typeLayoutWithin_refines_typeLayout hfuel _ _ _ hl).symm.trans halone) }

/-- The entry `b` tells the record `r` that `d` declares, whose size is known, with all its fields: they
are kept apart, inside the record, and aligned, bitfields aside. Alignments divide each other on targets
whose alignments are powers of two. That is checked of the target of each triple; of one that was put
together by hand it may be false. -/
structure TellsFields (u : TranslationUnit) (t : Target) (d : DeclId) (r : RecordNode)
    (b : RecordEntry) : Prop where
  layout : Layout.recordLayout u t d = .ok ⟨b.size, b.align, b.fields.map (·.offset)⟩
  isUnion : b.isUnion = r.isUnion
  fields : List.Forall₂ (TellsField u t d) (u.fieldsAmong r.members) b.fields
  within : ∀ e ∈ b.fields, ¬ e.IsBitfield → e.offset + e.size ≤ b.size
  inOrder : b.isUnion = false →
    b.fields.Pairwise fun e e' => ¬ e.IsBitfield → e.offset + e.size ≤ e'.offset
  aligned : t.check = .ok () ∨ (∃ triple, Target.ofTriple? triple = .ok t) →
    ∀ e ∈ b.fields, ¬ e.IsBitfield → e.align ∣ e.offset ∧ e.align ∣ b.align

theorem exists_placed_members :
    ∀ {members : List (DeclId × FieldNode)} {fs : List Layout.FieldAt},
      fs.map (·.field) = members.map (·.2) →
      ∃ ms : List (DeclId × Layout.FieldAt),
        ms.map (fun m => (m.1, m.2.field)) = members ∧ ms.map (·.2) = fs
  | [], fs, h => ⟨[], rfl, (List.map_eq_nil_iff.1 h).symm⟩
  | (d, f) :: members, fs, h => by
    obtain ⟨f', fs', rfl, rfl, hrest⟩ := List.map_eq_cons_iff.1 h
    obtain ⟨ms, rfl, rfl⟩ := exists_placed_members hrest
    exact ⟨(d, f') :: ms, rfl, rfl⟩

/-- Two lists that are related member by member are in order alike. -/
theorem pairwise_of_forall₂ {α β : Type} {R : α → β → Prop} {S : α → α → Prop} {T : β → β → Prop}
    (hST : ∀ a a' b b', R a b → R a' b' → S a a' → T b b') {as : List α} {bs : List β}
    (h : List.Forall₂ R as bs) (hS : as.Pairwise S) : bs.Pairwise T := by
  induction h with
  | nil => exact .nil
  | @cons a b as bs hab hrest ih =>
    obtain ⟨hfirst, hlater⟩ := List.pairwise_cons.1 hS
    refine .cons (fun b' hb' => ?_) (ih hlater)
    obtain ⟨a', ha', hab'⟩ := Layout.exists_right_of_forall₂ hrest.flip b' hb'
    exact hST a a' b b' hab hab' (hfirst a' ha')

section Placed

variable {u : TranslationUnit} {r : RecordNode} {p : Layout.Placement}
  {ms : List (DeclId × Layout.FieldAt)} {m : DeclId × Layout.FieldAt} {e : FieldEntry}
  (hholds : Layout.Holds u (Layout.typeLayoutInside u t d) r p (ms.map (·.2)))

include hholds

/-- A field ends inside its record. -/
theorem Shows.stop_le (h : Shows u m e) (hm : m ∈ ms) (hbit : ¬ e.IsBitfield) :
    e.offset + e.size ≤ p.size := by
  have hstop := hholds.inside m.2 (List.mem_map_of_mem hm)
  rwa [h.part_eq hbit] at hstop

/-- A field is aligned, and so is the record around it. For the second part alignments have to be powers
of two, since otherwise the greatest one need not be a multiple of the others. -/
theorem Shows.align_dvd (ht : t.check = .ok ()) (hp : Layout.placement u t d = .ok p)
    (h : Shows u m e) (hm : m ∈ ms) (hbit : ¬ e.IsBitfield) :
    e.align ∣ e.offset ∧ e.align ∣ p.align := by
  have hmem : m.2 ∈ ms.map (·.2) := List.mem_map_of_mem hm
  have hwidth := h.width?_eq_none hbit
  have hlayout := Layout.typeLayoutInside_refines _ _ _ (hholds.layouts m.2 hmem)
  have hbyte : 8 ≤ m.2.layout.align := Layout.le_align_of_typeLayout ht hlayout
  have hoffset : m.2.layout.align ∣ m.2.offset := hholds.aligned m.2 hmem hwidth (by omega)
  have hpower := Layout.aligns_isPowerOfTwo ht
  have halign : m.2.layout.align ∣ p.align :=
    Layout.dvd_of_isPowerOfTwo (Layout.align_of_typeLayout hpower hlayout)
      (Layout.align_of_placement hpower hp).2 (hholds.le_align m.2 hmem hwidth)
  rw [h.layout] at hoffset halign
  exact ⟨h.offset ▸ hoffset, halign⟩

/-- In a record that is no union the fields come one after another. -/
theorem pairwise_of_shows {es : List FieldEntry} (h : List.Forall₂ (Shows u) ms es)
    (hstruct : r.isUnion = false) :
    es.Pairwise fun e e' => ¬ e.IsBitfield → e.offset + e.size ≤ e'.offset := by
  have hbefore := hholds.inOrder hstruct
  rw [List.map_map, List.pairwise_map] at hbefore
  refine pairwise_of_forall₂ (fun m m' e e' hshows hshows' hbefore hbit => ?_) h hbefore
  change m.2.part.Before m'.2.part at hbefore
  rw [hshows.part_eq hbit, Layout.Part.Before] at hbefore
  exact hshows'.offset ▸ hbefore

end Placed

/-- The oracle answers for the record `r` that `d` declares, and for the types of its fields, as natural
layouts do. Nothing else is asked when the record is told. It is asked of single records, so that a run
with words may differ from natural layouts elsewhere. -/
structure AnswersNaturally (ctx : Context σ) (t : Target) (d : DeclId) (r : RecordNode) : Prop where
  record : ctx.oracle.record d = Layout.recordLayout ctx.unit t d
  field : ∀ m ∈ ctx.unit.fieldsAmong r.members,
    ctx.oracle.type m.2.type = Layout.typeLayout ctx.unit t m.2.type

theorem check_of_found (ht : t.check = .ok () ∨ ∃ triple, Target.ofTriple? triple = .ok t) :
    t.check = .ok () := by
  rcases ht with hcheck | ⟨triple, hfound⟩
  · exact hcheck
  · obtain ⟨_, _, _, _, _, _, hcheck⟩ := Target.ofTriple?_eq_ok hfound
    exact hcheck

/-- **What is told about a record with natural layouts fits together.** -/
theorem buildBody_tellsFields {r : RecordNode} {id : Nat} {l : RecordLayout} {b : RecordEntry}
    (hanswers : AnswersNaturally ctx t d r) (hr : (ctx.unit.node d).record? = some r)
    (hl : ctx.oracle.record d = .ok l) (h : buildBody ctx d r id (.sized l) s = .ok b s') :
    TellsFields ctx.unit t d r b := by
  obtain ⟨es, s₁, hes, h⟩ := bind_eq_ok.1 h
  obtain ⟨rfl, _⟩ := pure_eq_ok.1 h
  rw [hanswers.record] at hl
  obtain ⟨p, hp, rfl⟩ := Layout.natural_record_eq_ok hl
  obtain ⟨fs, hholds⟩ := Layout.exists_holds_of_placement hr hp
  obtain ⟨ms, hmembers, rfl⟩ := exists_placed_members hholds.fields
  have hinside : ∀ m ∈ ms, Layout.typeLayoutInside ctx.unit t d m.2.field.type = .ok m.2.layout :=
    fun m hm => hholds.layouts m.2 (List.mem_map_of_mem hm)
  -- The fields are asked for one by one, and each answer is the one from inside the record.
  have halone : ∀ m ∈ ms, ctx.oracle.type m.2.field.type = .ok m.2.layout := by
    intro m hm
    have hmember : (m.1, m.2.field) ∈ ctx.unit.fieldsAmong r.members :=
      hmembers ▸ List.mem_map_of_mem hm
    rw [hanswers.field _ hmember]
    exact Layout.typeLayoutInside_refines _ _ _ (hinside m hm)
  have hoffsets : p.fieldOffsets = ms.map (·.2.offset) := by
    rw [hholds.fieldOffsets, List.map_map]
    rfl
  rw [← hmembers, hoffsets] at hes
  have hshows := buildFields_shows halone hes
  have hplaced : ∀ e ∈ es, ∃ m ∈ ms, Shows ctx.unit m e :=
    Layout.exists_right_of_forall₂ hshows.flip
  exact {
    layout := by
      rw [map_offset_of_shows hshows, ← hoffsets]
      exact Layout.bind_eq_ok.2 ⟨p, hp, rfl⟩
    isUnion := rfl
    fields := by
      rw [← hmembers, List.forall₂_map_left_iff]
      have hboth := (List.forall₂_and_left _ _).2 ⟨hinside, hshows⟩
      exact hboth.imp fun m e h => h.2.tellsField h.1
    within := fun e he hbit => by
      obtain ⟨m, hm, hm'⟩ := hplaced e he
      exact hm'.stop_le hholds hm hbit
    inOrder := pairwise_of_shows hholds hshows
    aligned := fun ht e he hbit => by
      obtain ⟨m, hm, hm'⟩ := hplaced e he
      exact hm'.align_dvd hholds (check_of_found ht) hp hm hbit }

/-! ## Answers in words -/

/-- The layout of the record that `d` declares, and those of the types of its fields, are computed
without a number that is no word. This is all that natural layouts in words have to say about a record:
under it they answer as exact ones do (`WithinWords.answersNaturally`), whichever arithmetic they are
computed with. -/
structure WithinWords (u : TranslationUnit) (t : Target) (d : DeclId) : Prop where
  record : (Layout.words .checked u t).record d ≠ .error .overflow
  field : ∀ r, (u.node d).record? = some r → ∀ m ∈ u.fieldsAmong r.members,
    (Layout.words .checked u t).type m.2.type ≠ .error .overflow

/-- What is proved about exact layouts holds of answers in words, one record at a time. Checked words
lie between the two: they agree with the exact numbers and with the arithmetic `a`, and where they do
not give up all three are the same. -/
theorem WithinWords.answersNaturally {a : Layout.Arithmetic} {r : RecordNode}
    (horacle : ctx.oracle = Layout.words a ctx.unit t) (hr : (ctx.unit.node d).record? = some r)
    (h : WithinWords ctx.unit t d) : AnswersNaturally ctx t d r := by
  have hexact := Layout.checked_agrees_natural ctx.unit t
  have hwords := Layout.checked_agrees_words a ctx.unit t
  constructor
  · rw [horacle, ← (hwords.record d).eq_of_ne_overflow h.record]
    exact (hexact.record d).eq_of_ne_overflow h.record
  · intro m hm
    rw [horacle, ← (hwords.type _).eq_of_ne_overflow (h.field r hr m hm)]
    exact (hexact.type _).eq_of_ne_overflow (h.field r hr m hm)

/-- The entry of a field is only made once its type has a layout, or was refused one for a reason that
is not the arithmetic: that one is thrown on. -/
theorem buildField_asked {f : DeclId × FieldNode} {offset : Nat} {e : FieldEntry}
    (h : buildField ctx f.1 f.2 offset s = .ok e s') : ctx.oracle.type f.2.type ≠ .error .overflow := by
  intro htype
  obtain ⟨l, s₁, hl, _⟩ := bind_eq_ok.1 h
  simp only [fieldLayout, htype] at hl
  exact throw_ne_ok hl

/-- The type of each field is asked for before the record is told, and a computation that was given up
stops the run. -/
theorem buildFields_asked {record : DeclId} : ∀ {fields : List (DeclId × FieldNode)} {offsets : List Nat}
    {index : Nat} {es : List FieldEntry} {s s' : Session σ},
    buildFields ctx record index offsets fields s = .ok es s' →
      ∀ f ∈ fields, ctx.oracle.type f.2.type ≠ .error .overflow
  | [], _, _, _, _, _, _ => fun _ hf => nomatch hf
  | _ :: _, [], _, _, _, _, h => absurd h throw_ne_ok
  | f :: fields, offset :: offsets, _, _, _, _, h => by
    rw [buildFields] at h
    obtain ⟨e, s₁, he, h⟩ := bind_eq_ok.1 h
    obtain ⟨rest, s₂, hrest, _⟩ := bind_eq_ok.1 h
    exact List.forall_mem_cons.2 ⟨buildField_asked he, buildFields_asked hrest⟩

/-- **A record that is told with checked words has a layout within words.** -/
theorem buildBody_withinWords {r : RecordNode} {id : Nat} {l : RecordLayout} {b : RecordEntry}
    (horacle : ctx.oracle = Layout.words .checked ctx.unit t) (hr : (ctx.unit.node d).record? = some r)
    (hl : ctx.oracle.record d = .ok l) (h : buildBody ctx d r id (.sized l) s = .ok b s') :
    WithinWords ctx.unit t d where
  record := by
    rw [← horacle, hl]
    exact nofun
  field r' hr' m hm := by
    cases hr.symm.trans hr'
    obtain ⟨es, s₁, hes, _⟩ := bind_eq_ok.1 h
    rw [← horacle]
    exact buildFields_asked hes m hm

/-- The condition under which the records of a document are told exactly. With checked words it need not
be assumed, for then the entry itself is the proof that nothing was given up. -/
theorem buildBody_answersNaturally {a : Layout.Arithmetic} {r : RecordNode} {id : Nat} {l : RecordLayout}
    {b : RecordEntry} (horacle : ctx.oracle = Layout.words a ctx.unit t)
    (hwords : a = .checked ∨ WithinWords ctx.unit t d) (hr : (ctx.unit.node d).record? = some r)
    (hl : ctx.oracle.record d = .ok l) (h : buildBody ctx d r id (.sized l) s = .ok b s') :
    AnswersNaturally ctx t d r := by
  rcases hwords with rfl | hwithin
  · exact (buildBody_withinWords horacle hr hl h).answersNaturally horacle hr
  · exact hwithin.answersNaturally horacle hr

/-- A record that needs a size is only told with one, and that is the answer of the oracle. -/
theorem Sizing.Fits.exists_layout {sizing : Sizing} {r : RecordNode} (h : sizing.Fits ctx d r)
    (hneeds : r.NeedsSize) : ∃ l, sizing = .sized l ∧ ctx.oracle.record d = .ok l := by
  cases sizing with
  | sized l => exact ⟨l, rfl, h.2⟩
  | unsized => exact absurd hneeds h
  | unsizable => exact h.elim

/-- A record of either language is told with its fields: both make the same body, and only what
surrounds it differs. -/
theorem Makes.tellsFields {a : Layout.Arithmetic} {r : RecordNode} {e : Entry} {b : RecordEntry}
    (horacle : ctx.oracle = Layout.words a ctx.unit t) (hwords : a = .checked ∨ WithinWords ctx.unit t d)
    (hr : (ctx.unit.node d).record? = some r) (hneeds : r.NeedsSize) (h : Makes ctx d r s s' e)
    (hb : e.recordBody? = some b) : TellsFields ctx.unit t d r b := by
  cases h with
  | record _ fits _ body =>
    obtain ⟨l, rfl, hl⟩ := fits.exists_layout hneeds
    cases hb
    exact buildBody_tellsFields (buildBody_answersNaturally horacle hwords hr hl body) hr hl body
  | classRecord _ fits _ _ _ body _ =>
    obtain ⟨l, rfl, hl⟩ := fits.exists_layout hneeds
    cases hb
    exact buildBody_tellsFields (buildBody_answersNaturally horacle hwords hr hl body) hr hl body

/-! ## The records of a document -/

variable {reg : Registry} {o : Origin} {e : Entry} {b : RecordEntry}

/-- Entries with the body of a record are those that bear the number of one. -/
theorem recordId?_of_recordBody? (h : e.recordBody? = some b) : e.recordId? = some b.id := by
  cases e <;> simp_all [Entry.recordBody?, Entry.recordId?]

/-- Only scope and place are put in before an entry is written. -/
theorem exists_of_recordBody?_stamp {scope : Nat} {location : String}
    (h : (stamp scope location e).recordBody? = some b) :
    ∃ b₀, e.recordBody? = some b₀ ∧ b = { b₀ with info := b.info } := by
  cases e with
  | record b₀ =>
    cases h
    exact ⟨b₀, rfl, rfl⟩
  | classRecord c =>
    cases h
    exact ⟨c.record, rfl, rfl⟩
  | _ => cases h

theorem Origin.Gives.makes (h : o.Gives ctx reg e) (hb : e.recordBody? = some b) :
    ∃ n s s' e₀ b₀, (ctx.unit.node o.source).record? = some n ∧ Makes ctx o.source n s s' e₀ ∧
      e₀.recordBody? = some b₀ ∧ b = { b₀ with info := b.info } := by
  obtain ⟨occasion, scope?, d⟩ := o
  obtain ⟨s, e₀, s', hbuild, _, rfl⟩ := h.built
  obtain ⟨b₀, hb₀, hinfo⟩ := exists_of_recordBody?_stamp hb
  cases occasion with
  | declared =>
    have hdescribes := build?_describes s _ s' hbuild e₀ rfl
    obtain ⟨n, hkind⟩ :=
      exists_record_of_recordId? hdescribes (by rw [recordId?_of_recordBody? hb₀]; rfl)
    change Extract.build? ctx d s = _ at hbuild
    rw [build?_of_record hkind] at hbuild
    rcases buildAnyRecord?_eq_ok hbuild with ⟨he, _⟩ | ⟨_, he, _, hmakes⟩
    · cases he
    · cases he
      exact ⟨n, s, s', e₀, b₀, Node.record?_eq_some.2 hkind, hmakes, hb₀, hinfo⟩
  | referred =>
    rcases buildPending?_eq_ok hbuild with ⟨he, _⟩ | ⟨_, he, _⟩ | ⟨n, _, he, hn, _, hmakes⟩
    · cases he
    · cases he
    · cases he
      exact ⟨n, s, s', e₀, b₀, hn, hmakes, hb₀, hinfo⟩

/-- If the entry is that of a record whose size is known, it tells the record with its fields. Of
records without a known size (declared only, invalid, or dependent) nothing is claimed: their entries
bear no layout that the fields could be compared with. -/
def Origin.FieldsFit (u : TranslationUnit) (t : Target) (o : Origin) (e : Entry) : Prop :=
  ∀ b, e.recordBody? = some b → ∃ n, (u.node o.source).record? = some n ∧
    (n.NeedsSize → TellsFields u t o.source n b)

/-- An entry is made in some state of the run, but what it says about a layout does not depend on the
state. So it is enough that it was given by its origin, and the place in the document does not matter.
-/
theorem Origin.Gives.fieldsFit {a : Layout.Arithmetic} (horacle : ctx.oracle = Layout.words a ctx.unit t)
    (hwords : a = .checked ∨ WithinWords ctx.unit t o.source) (h : o.Gives ctx reg e) :
    o.FieldsFit ctx.unit t e := by
  intro b hb
  obtain ⟨n, s, s', e₀, b₀, hn, hmakes, hb₀, hinfo⟩ := h.makes hb
  refine ⟨n, hn, fun hneeds => ?_⟩
  have htells := hmakes.tellsFields horacle hwords hn hneeds hb₀
  rw [hinfo]
  exact ⟨htells.layout, htells.isUnion, htells.fields, htells.within, htells.inOrder, htells.aligned⟩

/-- **With natural layouts in words every record of a document whose size is known is told with its
fields**, unless words wrap around and a number on the way to its layout is no word: there is one entry for
each field, in order, with the size and the alignment that the field has inside the record, and what is told
fits into the record and does not overlap. -/
theorem document_fields {w : DocumentWriter σ} (a : Layout.Arithmetic) (u : TranslationUnit) (t : Target)
    {page : σ} (namespaceName? : Option String) {s' : Session (σ × List Call)}
    (h : document { unit := u, oracle := Layout.words a u t, writer := w.recorded } namespaceName?
      { page := (page, []) } = .ok () s') :
    ∃ origins, List.Forall₂
      (fun o e => Origin.Gives { unit := u, oracle := Layout.words a u t, writer := w.recorded }
        s'.registry o e ∧ (a = .checked ∨ WithinWords u t o.source → o.FieldsFit u t e))
      origins (Call.entries s'.page.2) := by
  obtain ⟨origins, horigins⟩ := document_origins h
  exact ⟨origins, horigins.imp fun o e hgives => ⟨hgives, fun hwords => hgives.fieldsFit rfl hwords⟩⟩

/-- A struct, a union, and a struct with a bitfield, an array of the first struct and a character: in
this order a record is referred to by a later one, a bitfield lies before a plain field, and both sorts
of records occur. -/
def nestedFields : TranslationUnit where
  file := "a.h"
  types := #[.builtin .char, .builtin .int, .record ⟨0⟩, .array ⟨2⟩ 3, .record ⟨4⟩,
    .pointer ⟨4⟩]
  nodes := #[{ name := "I", kind := .record { members := [⟨1⟩, ⟨2⟩] } },
    { name := "c", kind := .field { type := ⟨0⟩ } },
    { name := "x", kind := .field { type := ⟨1⟩ } },
    { name := "U", kind := .record { key := .unionKey, members := [⟨5⟩, ⟨6⟩] } },
    { name := "O", kind := .record { members := [⟨7⟩, ⟨8⟩, ⟨9⟩] } },
    { name := "p", kind := .field { type := ⟨5⟩ } },
    { name := "c", kind := .field { type := ⟨0⟩ } },
    { name := "b", kind := .field { type := ⟨1⟩, width? := some 3 } },
    { name := "is", kind := .field { type := ⟨3⟩ } },
    { name := "c", kind := .field { type := ⟨0⟩ } }]
  topLevel := #[⟨0⟩, ⟨3⟩, ⟨4⟩]

theorem document_fields_nested :
    let t := Target.x86Linux
    let ctx (a : Layout.Arithmetic) : Context (Unit × List Call) :=
      { unit := nestedFields, oracle := Layout.words a nestedFields t
        writer := DocumentWriter.silent.recorded }
    let s' (a : Layout.Arithmetic) := after (document (ctx a) none) { page := ((), []) }
    Target.ofTriple? "x86-linux" = .ok t ∧ (∀ d ∈ nestedFields.topLevel, WithinWords nestedFields t d) ∧
      ∀ a, document (ctx a) none { page := ((), []) } = .ok () (s' a) ∧
        (Call.entries (s' a).page.2).map (fun e => e.recordBody?.map fun b =>
          (b.size, b.fields.map fun f => (f.offset, f.size, f.align))) =
          [some (64, [(0, 8, 8), (32, 32, 32)]), some (32, [(0, 32, 32), (0, 8, 8)]),
            some (256, [(0, 32, 32), (32, 192, 32), (224, 8, 8)])] ∧
        ∃ origins, List.Forall₂
          (fun o e => Origin.Gives (ctx a) (s' a).registry o e ∧
            (a = .checked ∨ WithinWords nestedFields t o.source → o.FieldsFit nestedFields t e))
          origins (Call.entries (s' a).page.2) := by
  intro t ctx s'
  refine ⟨Target.ofTriple?_x86Linux, ?_, fun a => ?_⟩
  · have hrecords : ∀ d ∈ nestedFields.topLevel,
        (Layout.words .checked nestedFields t).record d ≠ .error .overflow := by decide +kernel
    have hfields : ∀ d ∈ nestedFields.topLevel, ∀ r ∈ (nestedFields.node d).record?,
        ∀ m ∈ nestedFields.fieldsAmong r.members,
          (Layout.words .checked nestedFields t).type m.2.type ≠ .error .overflow := by decide +kernel
    exact fun d hd => ⟨hrecords d hd, hfields d hd⟩
  · have hs' : document (ctx a) none { page := ((), []) } = .ok () (s' a) :=
      ok_after_of_succeeds (by cases a <;> decide +kernel)
    exact ⟨hs', by cases a <;> decide +kernel, document_fields a nestedFields t none hs'⟩

/-- A record that is eight bits short of the greatest size: a number, and an array of characters that fills
the rest. -/
def vast : TranslationUnit where
  file := "a.h"
  types := #[.builtin .int, .builtin .char, .array ⟨1⟩ 2305843009213693947]
  nodes := #[{ name := "S", kind := .record { members := [⟨1⟩, ⟨2⟩] } },
    { name := "i", kind := .field { type := ⟨0⟩ } },
    { name := "a", kind := .field { type := ⟨2⟩ } }]
  topLevel := #[⟨0⟩]

/-- Rounded up to the alignment of the number, the size of the record is the first that is no word. Checked
words stop the run there, and wrapping ones tell a record without a size, beyond which its fields reach. -/
theorem document_fields_wrapping :
    let t := Target.x86Linux
    let ctx (a : Layout.Arithmetic) : Context (Unit × List Call) :=
      { unit := vast, oracle := Layout.words a vast t, writer := DocumentWriter.silent.recorded }
    let s' := after (document (ctx .wrapping) none) { page := ((), []) }
    Target.ofTriple? "x86-linux" = .ok t ∧ document (ctx .wrapping) none { page := ((), []) } = .ok () s' ∧
      (Call.entries s'.page.2).map (fun e => e.recordBody?.map fun b =>
        (b.size, b.fields.map fun f => (f.offset, f.size, f.align))) =
        [some (0, [(0, 32, 32), (32, 18446744073709551576, 8)])] ∧
      (∃ e ∈ Call.entries s'.page.2, ∃ b, e.recordBody? = some b ∧
        ∃ f ∈ b.fields, ¬ f.IsBitfield ∧ ¬ f.offset + f.size ≤ b.size) ∧
      ∃ s'', document (ctx .checked) none { page := ((), []) } = .error (.layout .overflow) s'' := by
  intro t ctx s'
  have hs' : document (ctx .wrapping) none { page := ((), []) } = .ok () s' :=
    ok_after_of_succeeds (by decide +kernel)
  have hfound : ∃ e ∈ Call.entries s'.page.2, e.recordBody?.any fun b =>
      decide (∃ f ∈ b.fields, ¬ f.IsBitfield ∧ ¬ f.offset + f.size ≤ b.size) := by decide +kernel
  have hstops : failure? (document (ctx .checked) none) { page := ((), []) } =
      some (.layout .overflow) := by decide +kernel
  obtain ⟨e, he, hany⟩ := hfound
  obtain ⟨b, hb, hbeyond⟩ := (Option.any_eq_true _ _).1 hany
  exact ⟨Target.ofTriple?_x86Linux, hs', by decide +kernel,
    ⟨e, he, b, hb, of_decide_eq_true hbeyond⟩, failure?_eq_some.1 hstops⟩

end Extract

end ForeignDecl
