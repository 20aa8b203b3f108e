import ForeignDecl.Extract.Build
import ForeignDecl.Proofs.Extract.Steps
import ForeignDecl.Proofs.Registry
import ForeignDecl.Proofs.Unit.Shape

/-!
# What building an entry may change

A builder asks, describes and registers; it never writes. `Builds u d` says all that a builder for
the declaration `d` may do to a session, whether it ends with an entry, without one, or with an
error: numbers are given, unnamed records are queued, `d` and its member functions are marked as
seen, and something may be counted. The page, the scope and the number of entries stay.

Everything here is proved once for every builder, so that the proofs about writing and visiting never
look inside one. Each lemma follows the text of its builder: one `bind` for each step of it, and a
`split` where it branches. A new step in a builder asks for one more `bind` here and for nothing
behind it.

What a builder *returns* is not said here. That is `Makes` (`Proofs/Extract/Records.lean`), which
needs the builder to succeed, while all of this also holds where it stops with an error.
-/

set_option autoImplicit false

namespace ForeignDecl

variable {σ α : Type} {u : TranslationUnit} {d : DeclId}

/-- Counters other than the one for entries never go down. The one for entries is left out because only
`writeEntry` moves it, and `Builds.emitted` says that no builder does. -/
structure Summary.Grows (c c' : Summary) : Prop where
  skippedInvalid : c.skippedInvalid ≤ c'.skippedInvalid
  droppedUnnamed : c.droppedUnnamed ≤ c'.droppedUnnamed
  unhandled : c.unhandled ≤ c'.unhandled

/-- What a builder for `d` may change. The first four fields say what it leaves alone, the next four
that the rest only grows, and the last two bound the growth: without them the queue could hold anything,
and that every queued record is an unnamed one of the unit is what the proofs about the flush rest on.
Which builder it was, and how it ended, is forgotten. -/
structure Builds (u : TranslationUnit) (d : DeclId) (s s' : Session σ) : Prop where
  page : s'.page = s.page
  scope : s'.scope? = s.scope?
  hasEntries : s'.hasEntries = s.hasEntries
  emitted : s'.summary.emitted = s.summary.emitted
  counters : s.summary.Grows s'.summary
  registry : s.registry.Grows s'.registry
  seen : ∀ c ∈ s.seen, c ∈ s'.seen
  pending : ∀ c ∈ s.pending, c ∈ s'.pending
  /-- No record but `d` itself is marked as seen. -/
  of_seen : ∀ c ∈ s'.seen, c ∈ s.seen ∨
    ∃ x, c = u.canonical x ∧ (x = d ∨ (u.node x).record? = none)
  /-- Only unnamed records are queued. -/
  of_pending : ∀ c ∈ s'.pending, c ∈ s.pending ∨ ∃ x, c = u.canonical x ∧ u.IsUnnamedRecord x

namespace Builds

/-- To change nothing is allowed. The lemmas about single steps below start from this value and replace
the one field that their step touches. -/
theorem rfl {s : Session σ} : Builds u d s s where
  page := Eq.refl _
  scope := Eq.refl _
  hasEntries := Eq.refl _
  emitted := Eq.refl _
  counters := ⟨Nat.le_refl _, Nat.le_refl _, Nat.le_refl _⟩
  registry := .rfl
  seen _ h := h
  pending _ h := h
  of_seen _ h := .inl h
  of_pending _ h := .inl h

/-- One builder after another. All fields are equations, growth or inclusions, so each is the
transitivity of its own relation; of the last two the second builder may add to what the first one
added. -/
theorem trans {s₁ s₂ s₃ : Session σ} (h : Builds u d s₁ s₂) (h' : Builds u d s₂ s₃) :
    Builds u d s₁ s₃ where
  page := h'.page.trans h.page
  scope := h'.scope.trans h.scope
  hasEntries := h'.hasEntries.trans h.hasEntries
  emitted := h'.emitted.trans h.emitted
  counters :=
    ⟨Nat.le_trans h.counters.skippedInvalid h'.counters.skippedInvalid,
      Nat.le_trans h.counters.droppedUnnamed h'.counters.droppedUnnamed,
      Nat.le_trans h.counters.unhandled h'.counters.unhandled⟩
  registry := h.registry.trans h'.registry
  seen c hc := h'.seen c (h.seen c hc)
  pending c hc := h'.pending c (h.pending c hc)
  of_seen c hc := (h'.of_seen c hc).elim (h.of_seen c) .inr
  of_pending c hc := (h'.of_pending c hc).elim (h.of_pending c) .inr

instance : IsPreorder (Session σ) (Builds u d) where
  refl _ := .rfl
  trans _ _ _ := .trans

end Builds

namespace Extract

variable {ctx : Context σ}

/-! ## The primitive steps -/

/-- An answer of the layout oracle leaves the session as it is, and so does its refusal, which becomes
the error of the step. That is all the builders need to know of the oracle. -/
theorem ask_builds (answer : Except LayoutError α) :
    Within (Builds u d) (ask answer : Extract σ α) := by
  cases answer with
  | ok a => exact within_pure a
  | error e => exact within_throw _

/-- Giving out a number is the only change a description makes to the registry, and numbers that were
given stay (`Registry.Grows`). -/
theorem register_builds (d? : Option DeclId) : Within (Builds u d) (register ctx d?) :=
  within_modifyGet fun s => { Builds.rfl with registry := s.registry.register_grows _ _ }

/-- The same for what is written as C++, whose numbers are listed a second time as those of classes. -/
theorem registerClass_builds (d? : Option DeclId) : Within (Builds u d) (registerClass ctx d?) :=
  within_modifyGet fun s => { Builds.rfl with registry := s.registry.registerClass_grows _ _ }

/-- A builder marks the declaration it builds, or one that is no record: the member functions of a class
are marked when the class is built. The restriction is what makes a record's mark mean that this record
was built. -/
theorem markSeen_builds {x : DeclId} (hx : x = d ∨ (ctx.unit.node x).record? = none) :
    Within (Builds ctx.unit d) (markSeen ctx x) :=
  within_modify fun s =>
    { Builds.rfl (d := d) (s := s) with
      seen := fun _ => OrderedSet.mem_insert_of_mem
      of_seen := fun _ hc => (OrderedSet.mem_insert.1 hc).imp id fun hc => ⟨x, hc, hx⟩ }

/-- To be queued a record must be unnamed; one that was seen already is left out, which the first case
of the split is about. -/
theorem enqueue_builds {x : DeclId} (hx : ctx.unit.IsUnnamedRecord x) :
    Within (Builds ctx.unit d) (enqueue ctx x) := by
  refine within_modify fun s => ?_
  dsimp only
  split
  · exact .rfl
  · exact
      { Builds.rfl (d := d) (s := s) with
        pending := fun _ => OrderedSet.mem_insert_of_mem
        of_pending := fun _ hc => (OrderedSet.mem_insert.1 hc).imp id fun hc => ⟨x, hc, hx⟩ }

/-- Counting goes through one function of the session, so every counter is covered by one lemma.
`hemitted` is what sets the counters of the builders apart from the one of `writeEntry`. -/
theorem count_builds {f : Summary → Summary} (hf : ∀ c : Summary, c.Grows (f c))
    (hemitted : ∀ c, (f c).emitted = c.emitted) :
    Within (Builds u d) (count f : Extract σ Unit) :=
  within_modify fun s =>
    { Builds.rfl with emitted := hemitted s.summary, counters := hf s.summary }

theorem countSkipped_builds : Within (Builds u d)
    (count (fun c => { c with skippedInvalid := c.skippedInvalid + 1 }) : Extract σ Unit) :=
  count_builds (fun _ => ⟨Nat.le_succ _, Nat.le_refl _, Nat.le_refl _⟩) fun _ => Eq.refl _

theorem countDropped_builds : Within (Builds u d)
    (count (fun c => { c with droppedUnnamed := c.droppedUnnamed + 1 }) : Extract σ Unit) :=
  count_builds (fun _ => ⟨Nat.le_refl _, Nat.le_succ _, Nat.le_refl _⟩) fun _ => Eq.refl _

theorem countUnhandled_builds : Within (Builds u d)
    (count (fun c => { c with unhandled := c.unhandled + 1 }) : Extract σ Unit) :=
  count_builds (fun _ => ⟨Nat.le_refl _, Nat.le_refl _, Nat.le_succ _⟩) fun _ => Eq.refl _

/-! ## Describing types -/

/-- A reference to a record takes a number for it, in the list of classes if it is one, and queues it if
it has no name. `hx` says that a type refers to the record, and it is what `IsUnnamedRecord` asks of a
queued one. -/
theorem describeRecord_builds {x : DeclId} (hx : ∃ t, ctx.unit.type t = .record x) :
    Within (Builds ctx.unit d) (describeRecord ctx x) := by
  unfold describeRecord
  dsimp only
  -- Both ways of taking a number go on with the same test of the name.
  have hrest : ∀ t : TypeRef, Within (Builds ctx.unit d)
      (if (ctx.unit.node x).name.isEmpty = true then do
          enqueue ctx x
          pure t
        else pure t : Extract σ TypeRef) := by
    intro t
    split
    · next hname =>
      exact .bind (enqueue_builds ⟨String.isEmpty_iff.1 hname, .inr hx⟩) fun _ => within_pure _
    · exact within_pure _
  split
  · exact .bind (registerClass_builds _) fun _ => hrest _
  · exact .bind (register_builds _) fun _ => hrest _

theorem describeEnum_builds (x : DeclId) : Within (Builds u d) (describeEnum ctx x) := by
  unfold describeEnum
  dsimp only
  split
  · exact .bind (register_builds _) fun _ => within_pure _
  · exact .bind (within_pure _) fun _ => within_pure _

theorem describeArgWith_builds {describe : TypeId → Extract σ TypeRef}
    (h : ∀ t, Within (Builds u d) (describe t)) (a : TemplateArgument) :
    Within (Builds u d) (describeArgWith describe a) := by
  cases a with
  | type t => exact (h t).bind fun _ => within_pure _
  | integral t value => exact (h t).bind fun _ => within_pure _
  | other spelling => exact within_pure _

/-- By induction on the fuel, which goes down at every type constructor; the cases come in the order in
which `describeWithin` lists the types. Records, enums and template specializations are the only ones
that touch the session themselves. -/
theorem describeWithin_builds :
    ∀ (fuel : Nat) (t : TypeId), Within (Builds ctx.unit d) (describeWithin ctx fuel t)
  | 0, _ => within_pure _
  | fuel + 1, t => by
    have ih := describeWithin_builds fuel
    unfold describeWithin
    split
    · exact within_pure _
    · exact .bind (ask_builds _) fun _ => within_pure _
    · exact .ite (within_pure _) (.bind (ih _) fun _ => within_pure _)
    · exact .bind (ih _) fun _ => within_pure _
    · exact .bind (ih _) fun _ => within_pure _
    · exact .bind (ih _) fun _ => within_pure _
    · exact .bind (ih _) fun _ => within_pure _
    · exact .bind (ih _) fun _ => within_pure _
    · next x hx => exact describeRecord_builds ⟨t, hx⟩
    · exact describeEnum_builds _
    · exact within_pure _
    · exact ih _
    · exact ih _
    · exact within_pure _
    · exact .bind (registerClass_builds _) fun _ =>
        .bind (.mapM fun _ _ => describeArgWith_builds ih _) fun _ => within_pure _
    all_goals exact within_pure _

/-- Descriptions as the builders use them, with the fuel that the unit gives. -/
theorem describe_builds (t : TypeId) : Within (Builds ctx.unit d) (describe ctx t) :=
  describeWithin_builds _ t

/-- The arguments of a specialization are described from left to right. -/
theorem describeArgs_builds (args : List TemplateArgument) :
    Within (Builds ctx.unit d) (describeArgs ctx args) :=
  .mapM fun _ _ => describeArgWith_builds describe_builds _

theorem describeField_builds (f : FieldNode) :
    Within (Builds ctx.unit d) (describeField ctx f) := by
  unfold describeField
  refine .bind (describe_builds _) fun _ => ?_
  split
  · exact within_pure _
  · exact within_pure _

/-! ## Building entries -/

theorem buildVar_builds (v : VarNode) : Within (Builds ctx.unit d) (buildVar ctx d v) :=
  .bind (describe_builds _) fun _ => within_pure _

theorem buildParams_builds (params : List NodeParam) :
    Within (Builds ctx.unit d) (buildParams ctx params) :=
  .mapM fun _ _ => .bind (describe_builds _) fun _ => within_pure _

theorem buildArgs?_builds (args? : Option (List TemplateArgument)) :
    Within (Builds ctx.unit d) (buildArgs? ctx args?) := by
  cases args? with
  | none => exact within_pure _
  | some args => exact .bind (describeArgs_builds _) fun _ => within_pure _

/-- Functions and member functions. For the first `x` is the declaration itself, for the second a member
of the class `d`, and then it is no record. -/
theorem buildFunction_builds {x : DeclId} (hx : x = d ∨ (ctx.unit.node x).record? = none)
    (f : FunctionNode) : Within (Builds ctx.unit d) (buildFunction ctx x f) :=
  .bind (markSeen_builds hx) fun _ => .bind (describe_builds _) fun _ =>
    .bind (buildParams_builds _) fun _ => .bind (buildArgs?_builds _) fun _ => within_pure _

/-- A record that no layout can be given to is marked and counted here, and its builder then leaves it
out. No other answer leaves a trace, and an error of the oracle stops the builder. -/
theorem sizingOf_builds (r : RecordNode) : Within (Builds ctx.unit d) (sizingOf ctx d r) := by
  unfold sizingOf
  -- Both refusals that are no error leave the same trace.
  have hskip : Within (Builds ctx.unit d) (do
      markSeen ctx d
      count fun c => { c with skippedInvalid := c.skippedInvalid + 1 }
      return .unsizable : Extract σ Sizing) :=
    .bind (markSeen_builds (.inl rfl)) fun _ => .bind countSkipped_builds fun _ => within_pure _
  split
  · exact within_pure _
  · split
    · exact within_pure _
    · exact hskip
    · exact hskip
    · exact within_throw _

theorem fieldLayout_builds (t : TypeId) :
    Within (Builds u d) (fieldLayout ctx t : Extract σ TypeLayout) := by
  unfold fieldLayout
  split
  · exact within_pure _
  · exact within_pure _
  · exact within_pure _
  · exact within_throw _

theorem buildField_builds (x : DeclId) (f : FieldNode) (offset : Nat) :
    Within (Builds ctx.unit d) (buildField ctx x f offset) :=
  .bind (fieldLayout_builds _) fun _ => .bind (describeField_builds _) fun _ => within_pure _

/-- By induction on the fields, which come with their offsets. A field without an offset is an error of
the oracle and stops the builder, which `within_throw` covers. -/
theorem buildFields_builds (record : DeclId) :
    ∀ (fields : List (DeclId × FieldNode)) (index : Nat) (offsets : List Nat),
      Within (Builds ctx.unit d) (buildFields ctx record index offsets fields)
  | [], _, _ => by
    unfold buildFields
    exact within_pure _
  | _ :: _, _, [] => within_throw _
  | (x, f) :: fields, index, offset :: offsets =>
    .bind (buildField_builds x f offset) fun _ =>
      .bind (buildFields_builds record fields (index + 1) offsets) fun _ => within_pure _

/-- Fields are built only where there is a layout to place them with. -/
theorem buildBody_builds (x : DeclId) (r : RecordNode) (id : Nat) (sizing : Sizing) :
    Within (Builds ctx.unit d) (buildBody ctx x r id sizing) := by
  cases sizing with
  | sized layout => exact .bind (buildFields_builds _ _ _ _) fun _ => within_pure _
  | unsized => exact within_pure _
  | unsizable => exact within_pure _

theorem dropUnnamed_builds (x : DeclId) : Within (Builds u d) (dropUnnamed ctx x) := by
  refine .bind within_get fun s => ?_
  split
  · exact countDropped_builds
  · exact within_pure _

/-- The steps of a C record: left out where it is declared without a name, otherwise sized, marked,
registered, and its fields built. One that has no size was marked by `sizingOf` and goes no further. -/
theorem buildRecord?_builds (occasion : Occasion) (r : RecordNode) :
    Within (Builds ctx.unit d) (buildRecord? ctx occasion d r) := by
  unfold buildRecord?
  split
  · exact .bind (dropUnnamed_builds _) fun _ => within_pure _
  · refine .bind (sizingOf_builds r) fun sizing => ?_
    split
    · exact within_pure _
    · exact .bind (markSeen_builds (.inl rfl)) fun _ => .bind (register_builds _) fun _ =>
        .bind (buildBody_builds _ _ _ _) fun _ => within_pure _

/-- Members that are no methods are passed over. A method is no record, which is the second way a
builder may mark a declaration. -/
theorem buildMethods_builds (recordId : Nat) :
    ∀ ds : List DeclId, Within (Builds ctx.unit d) (buildMethods ctx recordId ds)
  | [] => within_pure _
  | x :: ds => by
    have ih := buildMethods_builds recordId ds
    unfold buildMethods
    split
    · next m hm =>
      have hx : (ctx.unit.node x).record? = none := by simp [Node.record?, hm]
      have hmethod : Within (Builds ctx.unit d) (buildMethod ctx recordId x m) :=
        .bind (buildFunction_builds (.inr hx) _) fun _ => within_pure _
      exact .bind hmethod fun _ => .bind ih fun _ => within_pure _
    · exact ih

theorem buildParents_builds (x : DeclId) (r : RecordNode) (sizing : Sizing) :
    Within (Builds u d) (buildParents ctx x r sizing) := by
  cases sizing with
  | sized layout => exact .mapM fun _ _ => .bind (ask_builds _) fun _ => within_pure _
  | unsized => exact within_pure _
  | unsizable => exact within_pure _

/-- The steps of a C++ record, in their order. Unlike `buildRecord?` it looks at the mark of invalid
declarations first, and it registers the class before its methods, so that these find its number. -/
theorem buildClass?_builds (occasion : Occasion) (r : RecordNode) :
    Within (Builds ctx.unit d) (buildClass? ctx occasion d r) := by
  unfold buildClass?
  dsimp only
  split
  · exact within_pure _
  split
  · exact .bind (dropUnnamed_builds _) fun _ => within_pure _
  refine .bind (sizingOf_builds r) fun sizing => ?_
  split
  · exact within_pure _
  · exact .bind (buildArgs?_builds _) fun _ => .bind (markSeen_builds (.inl rfl)) fun _ =>
      .bind (registerClass_builds _) fun _ => .bind (buildMethods_builds _ _) fun _ =>
      .bind (buildBody_builds _ _ _ _) fun _ => .bind (buildParents_builds _ _ _) fun _ =>
      within_pure _

/-- Which of the two builders runs is a matter of the record alone. -/
theorem buildAnyRecord?_builds (occasion : Occasion) (r : RecordNode) :
    Within (Builds ctx.unit d) (buildAnyRecord? ctx occasion d r) :=
  .ite (buildClass?_builds occasion r) (buildRecord?_builds occasion r)

theorem buildEnum_builds (enumerators : List Enumerator) :
    Within (Builds ctx.unit d) (buildEnum ctx d enumerators) := by
  refine .bind (markSeen_builds (.inl rfl)) fun _ => ?_
  dsimp only
  split
  · exact .bind (register_builds _) fun _ => within_pure _
  · exact .bind (within_pure _) fun _ => within_pure _

/-- A typedef of an invalid record is counted and makes no entry, and one of anything else is described.
-/
theorem buildTypedef?_builds (t : TypeId) :
    Within (Builds ctx.unit d) (buildTypedef? ctx d t) := by
  unfold buildTypedef?
  split
  · exact .bind (describe_builds _) fun _ => within_pure _
  · exact .bind countSkipped_builds fun _ => within_pure _

/-- A namespace registers itself and the scope around it. It is not marked as seen: every block of it
makes an entry of its own. -/
theorem buildNamespace_builds : Within (Builds u d) (buildNamespace ctx d) :=
  .bind within_get fun _ => .bind (registerClass_builds _) fun _ =>
    .bind (registerClass_builds _) fun _ => within_pure _

theorem buildTypeAlias_builds (t : TypeId) :
    Within (Builds ctx.unit d) (buildTypeAlias ctx d t) :=
  .bind (describe_builds _) fun _ => within_pure _

theorem buildTemplated_builds (t : TemplatedNode) :
    Within (Builds ctx.unit d) (buildTemplated ctx t) :=
  .bind (describe_builds _) fun _ => .bind (describeArgs_builds _) fun _ => within_pure _

theorem buildObjcMethods_builds :
    ∀ ds : List DeclId, Within (Builds ctx.unit d) (buildObjcMethods ctx ds)
  | [] => within_pure _
  | x :: ds => by
    have ih := buildObjcMethods_builds ds
    unfold buildObjcMethods
    dsimp only
    split
    · exact .bind (describe_builds _) fun _ => .bind (buildParams_builds _) fun _ =>
        .bind ih fun _ => within_pure _
    · exact ih

theorem buildIvars_builds (ds : List DeclId) :
    Within (Builds ctx.unit d) (buildIvars ctx ds) :=
  .mapM fun _ _ => buildField_builds _ _ _

theorem buildInterface_builds (n : InterfaceNode) :
    Within (Builds ctx.unit d) (buildInterface ctx d n) :=
  .bind (markSeen_builds (.inl rfl)) fun _ => .bind (buildIvars_builds _) fun _ =>
    .bind (buildObjcMethods_builds _) fun _ => within_pure _

theorem buildCategory_builds (n : CategoryNode) :
    Within (Builds ctx.unit d) (buildCategory ctx d n) :=
  .bind (markSeen_builds (.inl rfl)) fun _ =>
    .bind (buildObjcMethods_builds _) fun _ => within_pure _

theorem buildProtocol_builds (methods : List DeclId) :
    Within (Builds ctx.unit d) (buildProtocol ctx d methods) :=
  .bind (markSeen_builds (.inl rfl)) fun _ =>
    .bind (buildObjcMethods_builds _) fun _ => within_pure _

end Extract

end ForeignDecl
