import ForeignDecl.Proofs.Layout.Faults
import ForeignDecl.Proofs.Extract.Records
import ForeignDecl.Proofs.Extract.Writing

/-!
# What ends an extraction

An extraction asks its layout oracle about types, records and bases, one by one, and sends what it
makes of the answers to its writer. Some refusals it can do with: a record that cannot be sized is left
out, and a field whose type cannot be sized gets zeros. `Safe` is what is left when the answers fit
together and the writer accepts every call: a step fails only because of a declaration that has no
layout for another reason, and describing a type does not fail at all.

Steps are looked at twice. With `P` for any property at all, a lemma says that the step cannot fail,
since `False` is one of them; this is how describing and most builders are treated. With
`ExtractError.Stops` it says why it can. Only the layout of a field, the size of a record, and what is
made of them are of the second kind.
-/

set_option autoImplicit false

namespace ForeignDecl

/-- A reason that ends an extraction: a record that is not defined, depends on a template parameter or
contains itself has no layout, and one was needed. The others are passed over, or cannot come up with
answers that fit together. -/
def LayoutError.Stops : LayoutError → Prop
  | .incomplete _ | .dependent _ | .recursive _ => True
  | .noLayout _ | .tooLarge _ | .notABase _ _ | .missingField _ _ | .overflow => False

/-- Reasons for which there is no layout, and which are not a matter of size, end an extraction. -/
theorem LayoutError.stops_of_ofLayout {e : LayoutError} (h : e.OfLayout)
    (hnoLayout : ∀ what, e ≠ .noLayout what) (htooLarge : ∀ what, e ≠ .tooLarge what) :
    e.Stops := by
  cases e with
  | noLayout what => exact absurd rfl (hnoLayout what)
  | tooLarge what => exact absurd rfl (htooLarge what)
  | incomplete | dependent | recursive => trivial
  | notABase | missingField | overflow => exact h.elim

/-- The same for errors of extractions. A writer that accepts every call never ends one. -/
def ExtractError.Stops : ExtractError → Prop
  | .layout e => e.Stops
  | .write _ => False

namespace Extract

variable {σ α β : Type} {ctx : Context σ} {Fine : σ → Prop} {P : ExtractError → Prop}

/-- From a page that is `Fine` the step fails only with errors that have `P`, and it leaves a page that
is `Fine` if it does not fail. Nothing is said of the page after a failure, because no step follows. -/
def Safe (Fine : σ → Prop) (P : ExtractError → Prop) (x : Extract σ α) : Prop :=
  ∀ s, Fine s.page →
    match x s with
    | .ok _ s' => Fine s'.page
    | .error e _ => P e

theorem Safe.of_error {x : Extract σ α} (h : Safe Fine P x) {s s' : Session σ} {e : ExtractError}
    (hs : Fine s.page) (hx : x s = .error e s') : P e := by
  have hsafe := h s hs
  rwa [hx] at hsafe

theorem Safe.exists_ok {x : Extract σ α} (h : Safe Fine (fun _ => False) x) {s : Session σ}
    (hs : Fine s.page) : ∃ a s', x s = .ok a s' := by
  have hsafe := h s hs
  cases hx : x s with
  | ok a s' => exact ⟨a, s', rfl⟩
  | error e s' =>
    rw [hx] at hsafe
    exact hsafe.elim

/-! ## Rules -/

theorem safe_pure (a : α) : Safe Fine P (pure a : Extract σ α) := fun _ hs => hs

theorem safe_throw {e : ExtractError} (h : P e) : Safe Fine P (throw e : Extract σ α) :=
  fun _ _ => h

theorem safe_get : Safe Fine P (get : Extract σ (Session σ)) := fun _ hs => hs

/-- Steps on other parts of the session leave the page as it is. -/
theorem safe_modify {f : Session σ → Session σ} (h : ∀ s, (f s).page = s.page) :
    Safe Fine P (modify f : Extract σ PUnit) := fun s hs => by
  change Fine (f s).page
  rwa [h]

theorem safe_modifyGet {f : Session σ → α × Session σ} (h : ∀ s, (f s).2.page = s.page) :
    Safe Fine P (modifyGet f : Extract σ α) := fun s hs => by
  change Fine (f s).2.page
  rwa [h]

/-- Of the answer that goes into the second step it may be used that the first one gave it. That a
record has a size which fits is known in this way. -/
theorem Safe.bind_of_ok {x : Extract σ α} {f : α → Extract σ β} (hx : Safe Fine P x)
    (hf : ∀ s a s', x s = .ok a s' → Safe Fine P (f a)) : Safe Fine P (x >>= f) := by
  intro s hs
  have hsafe := hx s hs
  cases h : x s with
  | ok a s' =>
    rw [h] at hsafe
    have hrest := hf s a s' h s' hsafe
    simpa [Bind.bind, EStateM.bind, h] using hrest
  | error e s' =>
    rw [h] at hsafe
    simpa [Bind.bind, EStateM.bind, h] using hsafe

theorem Safe.bind {x : Extract σ α} {f : α → Extract σ β} (hx : Safe Fine P x)
    (hf : ∀ a, Safe Fine P (f a)) : Safe Fine P (x >>= f) := hx.bind_of_ok fun _ a _ _ => hf a

theorem Safe.map {x : Extract σ α} (hx : Safe Fine P x) (f : α → β) : Safe Fine P (f <$> x) := by
  rw [map_eq_pure_bind]
  exact hx.bind fun _ => safe_pure _

theorem Safe.ite {c : Prop} [Decidable c] {x y : Extract σ α} (hx : Safe Fine P x)
    (hy : Safe Fine P y) : Safe Fine P (if c then x else y) := by
  split
  · exact hx
  · exact hy

theorem Safe.mapM {γ : Type} {f : γ → Extract σ α} :
    ∀ {cs : List γ}, (∀ c ∈ cs, Safe Fine P (f c)) → Safe Fine P (cs.mapM f)
  | [], _ => by
    rw [List.mapM_nil]
    exact safe_pure _
  | c :: cs, h => by
    rw [List.mapM_cons]
    rw [List.forall_mem_cons] at h
    exact h.1.bind fun _ => (Safe.mapM h.2).bind fun _ => safe_pure _

theorem Safe.forM {γ : Type} {f : γ → Extract σ PUnit} (h : ∀ c, Safe Fine P (f c)) :
    ∀ cs : List γ, Safe Fine P (cs.forM f)
  | [] => safe_pure _
  | c :: cs => (h c).bind fun _ => Safe.forM h cs

theorem Safe.inScope {scope? : Option DeclId} {x : Extract σ α} (hx : Safe Fine P x) :
    Safe Fine P (inScope scope? x) := by
  intro s hs
  have hsafe := hx { s with scope? } hs
  unfold Extract.inScope
  cases h : x { s with scope? } <;> simpa [h] using hsafe

theorem safe_ask {answer : Except LayoutError α} (h : ∀ e, answer = .error e → P (.layout e)) :
    Safe Fine P (ask answer : Extract σ α) := by
  cases answer with
  | ok a => exact safe_pure a
  | error e => exact safe_throw (h e rfl)

/-- A writer that accepts every call on a `Fine` page cannot fail there. -/
theorem safe_send {emit : Emit σ Unit} (h : ∀ p, Fine p → ∃ p', emit p = .ok () p' ∧ Fine p') :
    Safe Fine P (send emit) := by
  intro s hs
  obtain ⟨p', hp', hfine⟩ := h s.page hs
  unfold send
  rw [hp']
  exact hfine

theorem register_safe (d? : Option DeclId) : Safe Fine P (register ctx d?) :=
  safe_modifyGet fun _ => rfl

theorem registerClass_safe (d? : Option DeclId) : Safe Fine P (registerClass ctx d?) :=
  safe_modifyGet fun _ => rfl

theorem markSeen_safe (d : DeclId) : Safe Fine P (markSeen ctx d) := safe_modify fun _ => rfl

theorem count_safe (f : Summary → Summary) : Safe Fine P (count f : Extract σ Unit) :=
  safe_modify fun _ => rfl

theorem enqueue_safe (d : DeclId) : Safe Fine P (enqueue ctx d) :=
  safe_modify fun s => by
    dsimp only
    split
    · rfl
    · rfl

/-! ## Describing types -/

section Describing

variable (hc : ctx.oracle.Coherent ctx.unit)

/-- Referring to a record asks for no layout. -/
theorem describeRecord_safe (d : DeclId) : Safe Fine P (describeRecord ctx d) := by
  unfold describeRecord
  dsimp only
  have hrest : ∀ t : TypeRef, Safe Fine P
      (if (ctx.unit.node d).name.isEmpty = true then do
          enqueue ctx d
          pure t
        else pure t : Extract σ TypeRef) :=
    fun t => .ite ((enqueue_safe d).bind fun _ => safe_pure t) (safe_pure t)
  split
  · exact .bind (registerClass_safe _) fun _ => hrest _
  · exact .bind (register_safe _) fun _ => hrest _

theorem describeEnum_safe (d : DeclId) : Safe Fine P (describeEnum ctx d) := by
  unfold describeEnum
  dsimp only
  split
  · exact .bind (register_safe _) fun _ => safe_pure _
  · exact .bind (safe_pure _) fun _ => safe_pure _

theorem describeArgWith_safe {describe : TypeId → Extract σ TypeRef}
    (h : ∀ t, Safe Fine P (describe t)) (a : TemplateArgument) :
    Safe Fine P (describeArgWith describe a) := by
  cases a with
  | type t => exact (h t).bind fun _ => safe_pure _
  | integral t value => exact (h t).bind fun _ => safe_pure _
  | other spelling => exact safe_pure _

include hc

/-- The only layouts that are asked for are those of builtin types, and for these `Coherent` promises an
answer. So the lemma holds for every `P`: a description is always made. -/
theorem describeWithin_safe :
    ∀ (fuel : Nat) (t : TypeId), Safe Fine P (describeWithin ctx fuel t)
  | 0, _ => safe_pure _
  | fuel + 1, t => by
    have ih := describeWithin_safe fuel
    unfold describeWithin
    split
    · exact safe_pure _
    · next kind hvoid ht =>
      obtain ⟨l, hl⟩ := hc.builtin ht (by simpa using hvoid)
      exact .bind (safe_ask (by simp [hl])) fun _ => safe_pure _
    · exact .ite (safe_pure _) (.bind (ih _) fun _ => safe_pure _)
    · exact .bind (ih _) fun _ => safe_pure _
    · exact .bind (ih _) fun _ => safe_pure _
    · exact .bind (ih _) fun _ => safe_pure _
    · exact .bind (ih _) fun _ => safe_pure _
    · exact .bind (ih _) fun _ => safe_pure _
    · exact describeRecord_safe _
    · exact describeEnum_safe _
    · exact safe_pure _
    · exact ih _
    · exact ih _
    · exact safe_pure _
    · exact .bind (registerClass_safe _) fun _ =>
        .bind (.mapM fun _ _ => describeArgWith_safe ih _) fun _ => safe_pure _
    all_goals exact safe_pure _

theorem describe_safe (t : TypeId) : Safe Fine P (describe ctx t) := describeWithin_safe hc _ t

theorem describeArgs_safe (args : List TemplateArgument) : Safe Fine P (describeArgs ctx args) :=
  .mapM fun _ _ => describeArgWith_safe (describe_safe hc) _

theorem describeField_safe (f : FieldNode) : Safe Fine P (describeField ctx f) := by
  unfold describeField
  refine .bind (describe_safe hc _) fun _ => ?_
  split
  · exact safe_pure _
  · exact safe_pure _

end Describing

/-! ## Building entries -/

section Building

variable (hc : ctx.oracle.Coherent ctx.unit) {d : DeclId} {r : RecordNode}

theorem dropUnnamed_safe (d : DeclId) : Safe Fine P (dropUnnamed ctx d) :=
  .bind safe_get fun _ => .ite (count_safe _) (safe_pure _)

include hc

theorem buildVar_safe (v : VarNode) : Safe Fine P (buildVar ctx d v) :=
  .bind (describe_safe hc _) fun _ => safe_pure _

theorem buildParams_safe (params : List NodeParam) : Safe Fine P (buildParams ctx params) :=
  .mapM fun _ _ => .bind (describe_safe hc _) fun _ => safe_pure _

theorem buildArgs?_safe (args? : Option (List TemplateArgument)) :
    Safe Fine P (buildArgs? ctx args?) := by
  cases args? with
  | none => exact safe_pure _
  | some args => exact .bind (describeArgs_safe hc _) fun _ => safe_pure _

theorem buildFunction_safe (d : DeclId) (f : FunctionNode) :
    Safe Fine P (buildFunction ctx d f) :=
  .bind (markSeen_safe _) fun _ => .bind (describe_safe hc _) fun _ =>
    .bind (buildParams_safe hc _) fun _ => .bind (buildArgs?_safe hc _) fun _ => safe_pure _

omit hc in
/-- The size of a record can be refused. Two refusals are passed over here; the hypothesis is about the
others. -/
theorem sizingOf_safe (h : ∀ e, ctx.oracle.record d = .error e → (∀ what, e ≠ .noLayout what) →
    (∀ what, e ≠ .tooLarge what) → P (.layout e)) : Safe Fine P (sizingOf ctx d r) := by
  unfold sizingOf
  have hskip : Safe Fine P (do
      markSeen ctx d
      count fun c => { c with skippedInvalid := c.skippedInvalid + 1 }
      return .unsizable : Extract σ Sizing) :=
    .bind (markSeen_safe _) fun _ => .bind (count_safe _) fun _ => safe_pure _
  split
  · exact safe_pure _
  · split
    · exact safe_pure _
    · exact hskip
    · exact hskip
    · next e hnoLayout htooLarge he => exact safe_throw (h e he hnoLayout htooLarge)

/-- A field whose type cannot be sized gets zeros, so only the other reasons are left. -/
theorem fieldLayout_safe (t : TypeId) : Safe Fine ExtractError.Stops (fieldLayout ctx t) := by
  unfold fieldLayout
  split
  · exact safe_pure _
  · exact safe_pure _
  · exact safe_pure _
  · next e hnoLayout htooLarge he =>
    exact safe_throw (LayoutError.stops_of_ofLayout (hc.type he) hnoLayout htooLarge)

theorem buildField_safe (d : DeclId) (f : FieldNode) (offset : Nat) :
    Safe Fine ExtractError.Stops (buildField ctx d f offset) :=
  .bind (fieldLayout_safe hc _) fun _ => .bind (describeField_safe hc _) fun _ => safe_pure _

/-- With an offset for each field, none is missing. -/
theorem buildFields_safe (record : DeclId) :
    ∀ (fields : List (DeclId × FieldNode)) (index : Nat) (offsets : List Nat),
      offsets.length = fields.length →
      Safe Fine ExtractError.Stops (buildFields ctx record index offsets fields)
  | [], _, [], _ => safe_pure _
  | (d, f) :: fields, index, offset :: offsets, h =>
    .bind (buildField_safe hc d f offset) fun _ =>
      .bind (buildFields_safe record fields (index + 1) offsets (by simpa using h)) fun _ =>
        safe_pure _

/-- A record with a layout has an offset for each of its fields (`Coherent.fieldOffsets`), so none is
missing. -/
theorem buildBody_safe (hr : (ctx.unit.node d).record? = some r) (id : Nat) {sizing : Sizing}
    (hfits : sizing.Fits ctx d r) :
    Safe Fine ExtractError.Stops (buildBody ctx d r id sizing) := by
  cases sizing with
  | sized layout =>
    exact .bind (buildFields_safe hc _ _ _ _ (hc.fieldOffsets hr hfits.2)) fun _ => safe_pure _
  | unsized => exact safe_pure _
  | unsizable => exact safe_pure _

theorem buildMethods_safe (recordId : Nat) :
    ∀ ds : List DeclId, Safe Fine P (buildMethods ctx recordId ds)
  | [] => safe_pure _
  | x :: ds => by
    have ih := buildMethods_safe recordId ds
    unfold buildMethods
    split
    · next m _ =>
      have hmethod : Safe Fine P (buildMethod ctx recordId x m) :=
        .bind (buildFunction_safe hc _ _) fun _ => safe_pure _
      exact .bind hmethod fun _ => .bind ih fun _ => safe_pure _
    · exact ih

/-- The layout of a record has an offset for each of its bases, so this cannot fail at all. -/
theorem buildParents_safe (hr : (ctx.unit.node d).record? = some r) {sizing : Sizing}
    (hfits : sizing.Fits ctx d r) : Safe Fine P (buildParents ctx d r sizing) := by
  cases sizing with
  | sized layout =>
    refine .mapM fun b hb => ?_
    obtain ⟨offset, hoffset⟩ := hc.base hr hfits.2 hb
    exact .bind (safe_ask (by simp [hoffset])) fun _ => safe_pure _
  | unsized => exact safe_pure _
  | unsizable => exact safe_pure _

omit hc in
/-- What both kinds of record have in common; the record is built only with a size that fits. -/
theorem sizedOrLeft_safe {occasion : Occasion} {build : Sizing → Extract σ (Option Entry)}
    (hsizing : Safe Fine P (sizingOf ctx d r))
    (hbuild : ∀ sizing : Sizing, sizing.Fits ctx d r → Safe Fine P (build sizing)) :
    Safe Fine P
      (if occasion = .declared ∧ (ctx.unit.node d).name.isEmpty then do
        dropUnnamed ctx d
        return none
      else do
        match ← sizingOf ctx d r with
        | .unsizable => return none
        | sizing => build sizing : Extract σ (Option Entry)) := by
  refine .ite ((dropUnnamed_safe d).bind fun _ => safe_pure _) ?_
  refine hsizing.bind_of_ok fun s sizing s' hs => ?_
  rcases sizingOf_eq_ok hs with ⟨rfl, _⟩ | ⟨hfits, _⟩
  · exact safe_pure _
  · cases sizing with
    | unsizable => exact safe_pure _
    | sized layout => exact hbuild _ hfits
    | unsized => exact hbuild _ hfits

omit hc in
/-- A record that cannot be sized is never built, so nothing can go wrong with it. This holds for every
`P` and is what `Withstands.leavesOut` rests on. -/
theorem buildAnyRecord?_safe_of_refuses (hneeds : r.NeedsSize) (hrefuses : ctx.oracle.Refuses d)
    (occasion : Occasion) : Safe Fine P (buildAnyRecord? ctx occasion d r) := by
  have hsizing : Safe Fine P (sizingOf ctx d r) := by
    refine sizingOf_safe fun e he hnoLayout htooLarge => ?_
    obtain ⟨what, hwhat | hwhat⟩ := hrefuses
    · exact absurd (Except.error.inj (he.symm.trans hwhat)) (hnoLayout what)
    · exact absurd (Except.error.inj (he.symm.trans hwhat)) (htooLarge what)
  have hbuild : ∀ (build : Sizing → Extract σ (Option Entry)) (sizing : Sizing),
      sizing.Fits ctx d r → Safe Fine P (build sizing) :=
    fun _ _ hfits => absurd hrefuses (hfits.not_refuses hneeds)
  refine .ite ?_ (sizedOrLeft_safe hsizing (hbuild _))
  unfold buildClass?
  exact .ite (safe_pure _) (sizedOrLeft_safe hsizing (hbuild _))

/-- Any record: its size can be refused for a reason that stops, and so can the layout of a field. -/
theorem buildAnyRecord?_safe (hr : (ctx.unit.node d).record? = some r) (occasion : Occasion) :
    Safe Fine ExtractError.Stops (buildAnyRecord? ctx occasion d r) := by
  have hsizing : Safe Fine ExtractError.Stops (sizingOf ctx d r) :=
    sizingOf_safe fun _ he => LayoutError.stops_of_ofLayout (hc.record he)
  refine .ite ?_ ?_
  · unfold buildClass?
    refine .ite (safe_pure _) (sizedOrLeft_safe hsizing fun sizing hfits => ?_)
    exact .bind (buildArgs?_safe hc _) fun _ => .bind (markSeen_safe _) fun _ =>
      .bind (registerClass_safe _) fun _ => .bind (buildMethods_safe hc _ _) fun _ =>
      .bind (buildBody_safe hc hr _ hfits) fun _ => .bind (buildParents_safe hc hr hfits) fun _ =>
      safe_pure _
  · refine sizedOrLeft_safe hsizing fun sizing hfits => ?_
    exact .bind (markSeen_safe _) fun _ => .bind (register_safe _) fun _ =>
      .bind (buildBody_safe hc hr _ hfits) fun _ => safe_pure _

omit hc in
theorem buildEnum_safe (enumerators : List Enumerator) :
    Safe Fine P (buildEnum ctx d enumerators) := by
  refine .bind (markSeen_safe _) fun _ => ?_
  dsimp only
  split
  · exact .bind (register_safe _) fun _ => safe_pure _
  · exact .bind (safe_pure _) fun _ => safe_pure _

omit hc in
theorem buildNamespace_safe : Safe Fine P (buildNamespace ctx d) :=
  .bind safe_get fun _ => .bind (registerClass_safe _) fun _ =>
    .bind (registerClass_safe _) fun _ => safe_pure _

theorem buildTypedef?_safe (t : TypeId) : Safe Fine P (buildTypedef? ctx d t) :=
  .ite (.bind (describe_safe hc _) fun _ => safe_pure _)
    (.bind (count_safe _) fun _ => safe_pure _)

theorem buildTypeAlias_safe (t : TypeId) : Safe Fine P (buildTypeAlias ctx d t) :=
  .bind (describe_safe hc _) fun _ => safe_pure _

theorem buildTemplated_safe (t : TemplatedNode) : Safe Fine P (buildTemplated ctx t) :=
  .bind (describe_safe hc _) fun _ => .bind (describeArgs_safe hc _) fun _ => safe_pure _

theorem buildObjcMethods_safe :
    ∀ ds : List DeclId, Safe Fine P (buildObjcMethods ctx ds)
  | [] => safe_pure _
  | x :: ds => by
    have ih := buildObjcMethods_safe ds
    unfold buildObjcMethods
    dsimp only
    split
    · exact .bind (describe_safe hc _) fun _ => .bind (buildParams_safe hc _) fun _ =>
        .bind ih fun _ => safe_pure _
    · exact ih

/-- Instance variables are fields without an offset; their layouts are asked for. -/
theorem buildInterface_safe (n : InterfaceNode) :
    Safe Fine ExtractError.Stops (buildInterface ctx d n) :=
  .bind (markSeen_safe _) fun _ => .bind (.mapM fun _ _ => buildField_safe hc _ _ _) fun _ =>
    .bind (buildObjcMethods_safe hc _) fun _ => safe_pure _

theorem buildCategory_safe (n : CategoryNode) : Safe Fine P (buildCategory ctx d n) :=
  .bind (markSeen_safe _) fun _ => .bind (buildObjcMethods_safe hc _) fun _ => safe_pure _

theorem buildProtocol_safe (methods : List DeclId) : Safe Fine P (buildProtocol ctx d methods) :=
  .bind (markSeen_safe _) fun _ => .bind (buildObjcMethods_safe hc _) fun _ => safe_pure _

/-- **Building an entry fails only for a declaration without a layout.** -/
theorem build?_safe (d : DeclId) : Safe Fine ExtractError.Stops (build? ctx d) := by
  unfold build?
  dsimp only
  split
  · exact buildNamespace_safe.map _
  · exact (buildVar_safe hc _).map _
  · exact (buildFunction_safe hc _ _).map _
  · next r hr => exact buildAnyRecord?_safe hc (by simp [Node.record?, hr]) _
  · exact (buildEnum_safe _).map _
  · exact buildTypedef?_safe hc _
  · exact (buildTypeAlias_safe hc _).map _
  · exact ((buildTemplated_safe hc _).bind fun _ => safe_pure _).map _
  · exact ((buildTemplated_safe hc _).bind fun _ => safe_pure _).map _
  · exact safe_pure _
  · exact safe_pure _
  · exact safe_pure _
  · exact (buildInterface_safe hc _).map _
  · exact (buildCategory_safe hc _).map _
  · exact (buildProtocol_safe hc _).map _
  · exact (count_safe _).bind fun _ => safe_pure _
  all_goals exact safe_pure _

theorem buildPending?_safe (d : DeclId) : Safe Fine ExtractError.Stops (buildPending? ctx d) := by
  unfold buildPending?
  split
  · next r hr => exact buildAnyRecord?_safe hc hr _
  · exact safe_pure _

end Building

/-! ## Whole documents -/

section Documents

variable (hc : ctx.oracle.Coherent ctx.unit) (hw : ctx.writer.Accepts Fine)

include hw

/-- From here on the writer is needed as well. -/
theorem perform_safe (c : Call) : Safe Fine P (send (ctx.writer.perform c)) :=
  safe_send fun p hp => hw c p hp

theorem writeEntry_safe (source : DeclId) (e : Entry) : Safe Fine P (writeEntry ctx source e) := by
  refine .bind safe_get fun _ => .bind (register_safe _) fun _ => .bind safe_get fun _ => ?_
  have hentry : ∀ e, Safe Fine P (send (ctx.writer.entry e)) := fun e => perform_safe hw (.entry e)
  have hrest : ∀ e, Safe Fine P (do
      send (ctx.writer.entry e)
      count fun c => { c with emitted := c.emitted + 1 } : Extract σ Unit) :=
    fun e => .bind (hentry e) fun _ => count_safe _
  dsimp only
  split
  · exact .bind (perform_safe hw .separator) fun _ => hrest _
  · exact .bind (safe_modify fun _ => rfl) fun _ => hrest _

include hc

omit hw in
/-- Queued records are built where they are referred to, and can stop the run as others do. -/
theorem flushWith_safe {write : DeclId → Option Entry → Extract σ Unit}
    (hwrite : ∀ d e?, Safe Fine ExtractError.Stops (write d e?)) :
    ∀ ds, Safe Fine ExtractError.Stops (flushWith ctx write ds)
  | [] => safe_pure _
  | d :: ds => by
    have ih := flushWith_safe hwrite ds
    refine .bind safe_get fun s => ?_
    dsimp only
    split
    · exact .bind (buildPending?_safe hc d) fun _ => .bind (hwrite _ _) fun _ => ih
    · exact ih

/-- By induction on the fuel. -/
theorem emitWithin_safe : ∀ (fuel : Nat) (d : DeclId) (e? : Option Entry),
    Safe Fine ExtractError.Stops (emitWithin ctx fuel d e?)
  | 0, _, _ => safe_pure _
  | fuel + 1, d, e? => by
    refine .bind (safe_modifyGet fun _ => rfl) fun ds =>
      .bind (flushWith_safe hc (emitWithin_safe fuel) ds) fun _ => ?_
    cases e? with
    | none => exact safe_pure _
    | some e => exact writeEntry_safe hw d e

/-- By induction on the nesting. The scope plays no part in it. -/
theorem visitWithin_safe : ∀ (fuel : Nat) (scope? : Option DeclId) (d : DeclId),
    Safe Fine ExtractError.Stops (visitWithin ctx fuel scope? d)
  | 0, _, _ => safe_pure _
  | fuel + 1, scope?, d => by
    rw [visitWithin_succ]
    have hown : Safe Fine ExtractError.Stops (writeOwn ctx d) :=
      .ite (.bind (build?_safe hc d) fun _ => emitWithin_safe hc hw _ _ _) (safe_pure _)
    exact .ite (count_safe _)
      (.inScope (.bind hown fun _ => .forM (fun _ => visitWithin_safe fuel _ _) _))

/-- **With answers that fit together and a writer that accepts every call**, only few reasons end an
extraction. -/
theorem document_safe (namespaceName? : Option String) :
    Safe Fine ExtractError.Stops (document ctx namespaceName?) := by
  refine .bind (.bind (perform_safe hw .header) fun _ => ?_) fun _ =>
    .bind (.forM (fun _ => visitWithin_safe hc hw _ _ _) _) fun _ => perform_safe hw .footer
  cases namespaceName? with
  | none => exact safe_pure _
  | some name => exact perform_safe hw (.announce name)

end Documents

/-! ## Natural layouts -/

/-- How an extraction deals with what its oracle refuses. -/
structure Withstands (ctx : Context σ) (Fine : σ → Prop) : Prop where
  /-- Nothing but a declaration without a layout ends it, and not for a matter of size. -/
  stops : ∀ {namespaceName? : Option String} {s s' : Session σ} {e : ExtractError}, Fine s.page →
    document ctx namespaceName? s = .error e s' → ∃ fault, e = .layout fault ∧ fault.Stops
  /-- A record that cannot be sized is left out ... -/
  leavesOut : ∀ {d : DeclId} {r : RecordNode}, (ctx.unit.node d).record? = some r → r.NeedsSize →
    ctx.oracle.Refuses d → ∀ (occasion : Occasion) (s : Session σ),
      ∃ s', buildAnyRecord? ctx occasion d r s = .ok none s'
  /-- ... and counted when its size is asked for. -/
  skips : ∀ {d : DeclId} {r : RecordNode}, (ctx.unit.node d).record? = some r → r.NeedsSize →
    ctx.oracle.Refuses d → ∀ s : Session σ, ∃ s', sizingOf ctx d r s = .ok .unsizable s' ∧
      s'.summary = { s.summary with skippedInvalid := s.summary.skippedInvalid + 1 }
  /-- A field whose type cannot be sized has zeros. -/
  zeros : ∀ {d : DeclId} {f : FieldNode} {what : String},
    ctx.oracle.type f.type = .error (.noLayout what) ∨
      ctx.oracle.type f.type = .error (.tooLarge what) →
    ∀ (offset : Nat) (s : Session σ), ∃ entry s',
      buildField ctx d f offset s = .ok entry s' ∧ entry.size = 0 ∧ entry.align = 0
  /-- No offset of a field or a base is missing in a record that has a size. -/
  coherent : ctx.oracle.Coherent ctx.unit
  /-- A description is made of any type. -/
  describes : ∀ (t : TypeId) (s : Session σ), ∃ description s',
    describe ctx t s = .ok description s'

/-- What is counted where the size of a record is refused. -/
theorem sizingOf_of_refuses {d : DeclId} {r : RecordNode} (hneeds : r.NeedsSize)
    (hrefuses : ctx.oracle.Refuses d) (s : Session σ) :
    ∃ s', sizingOf ctx d r s = .ok .unsizable s' ∧
      s'.summary = { s.summary with skippedInvalid := s.summary.skippedInvalid + 1 } := by
  obtain ⟨what, hwhat | hwhat⟩ := hrefuses
  · exact ⟨_, by simp only [sizingOf, hneeds.1, hneeds.2, hwhat]; rfl, rfl⟩
  · exact ⟨_, by simp only [sizingOf, hneeds.1, hneeds.2, hwhat]; rfl, rfl⟩

/-- **An extraction with answers that fit together withstands every matter of size.** Nothing about
natural layout is used but that its answers fit together, so the result holds for any such oracle. -/
theorem withstands_of_coherent (hc : ctx.oracle.Coherent ctx.unit)
    (hw : ctx.writer.Accepts Fine) : Withstands ctx Fine where
  stops {_ s s' e} hs h := by
    have hstops := (document_safe hc hw _).of_error hs h
    cases e with
    | layout fault => exact ⟨fault, rfl, hstops⟩
    | write _ => exact hstops.elim
  leavesOut {d r} hr hneeds hrefuses occasion s := by
    -- A builder that fails for no reason succeeds, and it cannot have made an entry of a record without a
    -- size.
    have hsafe : Safe (fun _ => True) (fun _ => False) (buildAnyRecord? ctx occasion d r) :=
      buildAnyRecord?_safe_of_refuses hneeds hrefuses occasion
    obtain ⟨e?, s', h⟩ := hsafe.exists_ok (s := s) trivial
    rcases buildAnyRecord?_eq_ok h with ⟨rfl, _⟩ | ⟨_, _, hentry, _⟩
    · exact ⟨s', h⟩
    · exact absurd hrefuses (hentry.sized hneeds)
  skips _ hneeds hrefuses s := sizingOf_of_refuses hneeds hrefuses s
  zeros {d f what} h offset s := by
    have hlayout : fieldLayout ctx f.type = pure ⟨0, 0⟩ := by
      rcases h with h | h
      · simp [fieldLayout, h]
      · simp [fieldLayout, h]
    have hsafe : Safe (fun _ => True) (fun _ => False) (describeField ctx f) :=
      describeField_safe hc f
    obtain ⟨type, s', htype⟩ := hsafe.exists_ok (s := s) trivial
    refine ⟨⟨(ctx.unit.node d).name, type, offset, 0, 0⟩, s', ?_, rfl, rfl⟩
    simp only [buildField, hlayout, pure_bind]
    exact bind_eq_ok.2 ⟨type, s', htype, rfl⟩
  coherent := hc
  describes t s := by
    have hsafe : Safe (fun _ => True) (fun _ => False) (describe ctx t) := describe_safe hc t
    exact hsafe.exists_ok trivial

/-- **With natural layouts only a record that is not defined, depends on a template parameter or
contains itself ends an extraction**, whatever the unit and the target are. That a record has no size,
or one that is too large, is no reason to end: such a record is left out and counted, and a field of
such a type has zeros. The writer is one that cannot fail; what a sink that runs full does is a matter
of the run. -/
theorem natural_withstands (u : TranslationUnit) (t : Target) {w : DocumentWriter σ}
    (hw : w.Accepts Fine) :
    Withstands { unit := u, oracle := Layout.natural u t, writer := w } Fine :=
  withstands_of_coherent (Layout.natural_coherent u t) hw

/-- An Objective-C class with an instance variable of a record that is not defined. -/
def forwardIvar : TranslationUnit where
  file := "a.h"
  types := #[.record ⟨1⟩]
  nodes := #[{ name := "I", kind := .objcInterface { isDefined := true, ivars := [⟨2⟩] } },
    { name := "S", kind := .record { isComplete := false } },
    { name := "x", kind := .field { type := ⟨0⟩ } }]
  topLevel := #[⟨0⟩]

theorem natural_withstands_forward :
    let ctx : Context Unit :=
      { unit := forwardIvar, oracle := Layout.natural forwardIvar (.lp64 "")
        writer := DocumentWriter.silent }
    (∃ s', document ctx none { page := () } = .error (.layout (.incomplete "S")) s') ∧
      Withstands ctx fun _ => True := by
  intro ctx
  refine ⟨?_, natural_withstands _ _ DocumentWriter.silent_accepts⟩
  exact ⟨_, rfl⟩

end Extract

end ForeignDecl
