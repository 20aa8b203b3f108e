import ForeignDecl.Proofs.Document.Streams
import ForeignDecl.Proofs.Extract.Visiting

/-!
# Extractions onto a sink that runs full

An extraction touches its page only in `send`. Everything else, from giving out numbers to building the
entry of a class, neither looks at the sink of the page nor writes to it, and so it streams because it
is quiet. The walk hands on whatever ends a step. So if every call of the writer streams, the document
does as a whole (`document_streams`): the sink has the bytes that it has without a limit, up to the
limit, and nothing happens behind it.

Only `send` and the scope need a proof about a sink. All lemmas behind them follow the text of their
builder with the rules for `Streams` (`Proofs/Document/Streams.lean`), the one for `bind` above all:
what fails there is the last step, so two steps that stream do so in a row.
-/

set_option autoImplicit false

namespace ForeignDecl

open HasSink (into)

instance : HasSink (Session Page) where
  into k s := { s with page := into k s.page }

namespace Extract

variable {α : Type} {ctx : Context Page}

/-- `Streams` for steps of extractions. The error of a full sink reaches an extraction as an error of
its writer. -/
abbrev Flows (x : Extract Page α) : Prop := Streams (.write .sinkFull) x

/-! ## Steps -/

/-- What the writer writes is written by the session. The sink is looked at through the page of the
session, which is what `Streams.through` carries a proof across. -/
theorem send_flows {emit : Emit Page α} (h : Streams WriteError.sinkFull emit) :
    Flows (send emit) := by
  refine h.through Session.page (fun s r => match r with
    | .ok a page => .ok a { s with page }
    | .error e page => .error (.write e) { s with page }) ?_ ?_ ?_
  · intro k s
    unfold send
    dsimp only [into]
    cases emit _ <;> rfl
  · intro k s r
    cases r <;> rfl
  · intro s page
    exact ⟨{ s with page }, rfl⟩

/-- The scope is put back also where the sink ran full, and what was written stays. -/
theorem inScope_flows {scope? : Option DeclId} {x : Extract Page α} (hx : Flows x) :
    Flows (inScope scope? x) := by
  refine hx.through (fun s => { s with scope? }) (fun s r => match r with
    | .ok a s' => .ok a { s' with scope? := s.scope? }
    | .error e s' => .error e { s' with scope? := s.scope? }) ?_ ?_ ?_
  · intro k s
    unfold inScope
    dsimp only [into]
    cases x _ <;> rfl
  · intro k s r
    cases r <;> rfl
  · intro s s'
    exact ⟨{ s' with scope? := s.scope? }, rfl⟩

/-- The oracle is asked without a look at the sink. -/
theorem ask_flows (answer : Except LayoutError α) : Flows (ask answer) := by
  cases answer with
  | ok a => exact streams_pure a
  | error e => exact streams_throw _

/-- Numbers are given out without a look at the sink; the same holds of marks, counters and the queue.
-/
theorem register_flows (d? : Option DeclId) : Flows (register ctx d?) :=
  streams_modifyGet fun _ _ => rfl

theorem registerClass_flows (d? : Option DeclId) : Flows (registerClass ctx d?) :=
  streams_modifyGet fun _ _ => rfl

theorem markSeen_flows (d : DeclId) : Flows (markSeen ctx d) := streams_modify fun _ _ => rfl

theorem count_flows (f : Summary → Summary) : Flows (count f) := streams_modify fun _ _ => rfl

/-- Whether a record is queued depends on what was seen and not on the page. -/
theorem enqueue_flows (d : DeclId) : Flows (enqueue ctx d) := by
  refine streams_modify fun k s => ?_
  by_cases h : ctx.unit.canonical d ∈ s.seen
  · simp only [into, h, if_true]
  · simp only [into, h, if_false]

/-! ## Describing types -/

/-- Describing types is quiet. These lemmas and those about the builders have no hypothesis, since
nothing in them sends. -/
theorem describeRecord_flows (d : DeclId) : Flows (describeRecord ctx d) := by
  have hrest : ∀ t : TypeRef, Flows
      (if (ctx.unit.node d).name.isEmpty = true then do
          enqueue ctx d
          pure t
        else pure t) :=
    fun t => .ite ((enqueue_flows d).bind fun _ => streams_pure t) (streams_pure t)
  unfold describeRecord
  dsimp only
  split
  · exact .bind (registerClass_flows _) fun _ => hrest _
  · exact .bind (register_flows _) fun _ => hrest _

theorem describeEnum_flows (d : DeclId) : Flows (describeEnum ctx d) := by
  unfold describeEnum
  dsimp only
  split
  · exact .bind (register_flows _) fun _ => streams_pure _
  · exact .bind (streams_pure _) fun _ => streams_pure _

theorem describeArgWith_flows {describe : TypeId → Extract Page TypeRef}
    (h : ∀ t, Flows (describe t)) (a : TemplateArgument) : Flows (describeArgWith describe a) := by
  cases a with
  | type t => exact (h t).bind fun _ => streams_pure _
  | integral t value => exact (h t).bind fun _ => streams_pure _
  | other spelling => exact streams_pure _

/-- By induction on the fuel, with the cases in the order of the definition. -/
theorem describeWithin_flows (fuel : Nat) (t : TypeId) : Flows (describeWithin ctx fuel t) := by
  induction fuel generalizing t with
  | zero => exact streams_pure _
  | succ fuel ih =>
    unfold describeWithin
    split
    · exact streams_pure _
    · exact .bind (ask_flows _) fun _ => streams_pure _
    · exact .ite (streams_pure _) (.bind (ih _) fun _ => streams_pure _)
    · exact .bind (ih _) fun _ => streams_pure _
    · exact .bind (ih _) fun _ => streams_pure _
    · exact .bind (ih _) fun _ => streams_pure _
    · exact .bind (ih _) fun _ => streams_pure _
    · exact .bind (ih _) fun _ => streams_pure _
    · exact describeRecord_flows _
    · exact describeEnum_flows _
    · exact streams_pure _
    · exact ih _
    · exact ih _
    · exact streams_pure _
    · exact .bind (registerClass_flows _) fun _ =>
        .bind (.mapM (describeArgWith_flows ih) _) fun _ => streams_pure _
    all_goals exact streams_pure _

theorem describe_flows (t : TypeId) : Flows (describe ctx t) := describeWithin_flows _ t

theorem describeArgs_flows (args : List TemplateArgument) : Flows (describeArgs ctx args) :=
  .mapM (describeArgWith_flows describe_flows) args

theorem describeField_flows (f : FieldNode) : Flows (describeField ctx f) := by
  refine .bind (describe_flows _) fun _ => ?_
  split
  · exact streams_pure _
  · exact streams_pure _

/-! ## Building entries -/

section Building

variable {d : DeclId} {r : RecordNode}

theorem buildVar_flows (v : VarNode) : Flows (buildVar ctx d v) :=
  .bind (describe_flows _) fun _ => streams_pure _

theorem buildParams_flows (params : List NodeParam) : Flows (buildParams ctx params) :=
  .mapM (fun _ => .bind (describe_flows _) fun _ => streams_pure _) params

theorem buildArgs?_flows (args? : Option (List TemplateArgument)) :
    Flows (buildArgs? ctx args?) := by
  cases args? with
  | none => exact streams_pure _
  | some args => exact .bind (describeArgs_flows _) fun _ => streams_pure _

theorem buildFunction_flows (d : DeclId) (f : FunctionNode) : Flows (buildFunction ctx d f) :=
  .bind (markSeen_flows _) fun _ => .bind (describe_flows _) fun _ =>
    .bind (buildParams_flows _) fun _ => .bind (buildArgs?_flows _) fun _ => streams_pure _

theorem dropUnnamed_flows (d : DeclId) : Flows (dropUnnamed ctx d) :=
  streams_get_bind (fun _ _ => rfl) fun _ => .ite (count_flows _) (streams_pure _)

theorem sizingOf_flows : Flows (sizingOf ctx d r) := by
  have hskip : Flows (do
      markSeen ctx d
      count fun c => { c with skippedInvalid := c.skippedInvalid + 1 }
      return Sizing.unsizable) :=
    .bind (markSeen_flows _) fun _ => .bind (count_flows _) fun _ => streams_pure _
  unfold sizingOf
  split
  · exact streams_pure _
  · split
    · exact streams_pure _
    · exact hskip
    · exact hskip
    · exact streams_throw _

theorem fieldLayout_flows (t : TypeId) : Flows (fieldLayout ctx t) := by
  unfold fieldLayout
  split
  · exact streams_pure _
  · exact streams_pure _
  · exact streams_pure _
  · exact streams_throw _

theorem buildField_flows (d : DeclId) (f : FieldNode) (offset : Nat) :
    Flows (buildField ctx d f offset) :=
  .bind (fieldLayout_flows _) fun _ => .bind (describeField_flows _) fun _ => streams_pure _

/-- By induction on the fields. Missing an offset is an error of its own, before the sink and behind it.
-/
theorem buildFields_flows (record : DeclId) :
    ∀ (fields : List (DeclId × FieldNode)) (index : Nat) (offsets : List Nat),
      Flows (buildFields ctx record index offsets fields)
  | [], _, _ => by
    unfold buildFields
    exact streams_pure _
  | _ :: _, _, [] => streams_throw _
  | (d, f) :: fields, index, offset :: offsets =>
    .bind (buildField_flows d f offset) fun _ =>
      .bind (buildFields_flows record fields (index + 1) offsets) fun _ => streams_pure _

theorem buildBody_flows (id : Nat) (sizing : Sizing) : Flows (buildBody ctx d r id sizing) := by
  cases sizing with
  | sized layout => exact .bind (buildFields_flows _ _ _ _) fun _ => streams_pure _
  | unsized => exact streams_pure _
  | unsizable => exact streams_pure _

theorem buildMethods_flows (recordId : Nat) (ds : List DeclId) :
    Flows (buildMethods ctx recordId ds) := by
  induction ds with
  | nil => exact streams_pure _
  | cons x ds ih =>
    unfold buildMethods
    split
    · next m _ =>
      have hmethod : Flows (buildMethod ctx recordId x m) :=
        .bind (buildFunction_flows _ _) fun _ => streams_pure _
      exact .bind hmethod fun _ => .bind ih fun _ => streams_pure _
    · exact ih

theorem buildParents_flows (sizing : Sizing) : Flows (buildParents ctx d r sizing) := by
  cases sizing with
  | sized layout => exact .mapM (fun _ => .bind (ask_flows _) fun _ => streams_pure _) _
  | unsized => exact streams_pure _
  | unsizable => exact streams_pure _

/-- What both kinds of record have in common: leaving the record out, or asking for its size. What is
built then is a parameter. -/
theorem sizedOrLeft_flows {occasion : Occasion} {build : Sizing → Extract Page (Option Entry)}
    (hbuild : ∀ sizing, Flows (build sizing)) :
    Flows
      (if occasion = .declared ∧ (ctx.unit.node d).name.isEmpty then do
        dropUnnamed ctx d
        return none
      else do
        match ← sizingOf ctx d r with
        | .unsizable => return none
        | sizing => build sizing) := by
  refine .ite ((dropUnnamed_flows d).bind fun _ => streams_pure _) ?_
  refine sizingOf_flows.bind fun sizing => ?_
  cases sizing with
  | unsizable => exact streams_pure _
  | sized layout => exact hbuild _
  | unsized => exact hbuild _

/-- Both builders of records, step by step behind what they share. -/
theorem buildAnyRecord?_flows (occasion : Occasion) :
    Flows (buildAnyRecord? ctx occasion d r) := by
  refine .ite ?_ ?_
  · unfold buildClass?
    refine .ite (streams_pure _) (sizedOrLeft_flows fun sizing => ?_)
    exact .bind (buildArgs?_flows _) fun _ => .bind (markSeen_flows _) fun _ =>
      .bind (registerClass_flows _) fun _ => .bind (buildMethods_flows _ _) fun _ =>
      .bind (buildBody_flows _ _) fun _ => .bind (buildParents_flows _) fun _ => streams_pure _
  · refine sizedOrLeft_flows fun sizing => ?_
    exact .bind (markSeen_flows _) fun _ => .bind (register_flows _) fun _ =>
      .bind (buildBody_flows _ _) fun _ => streams_pure _

theorem buildEnum_flows (enumerators : List Enumerator) : Flows (buildEnum ctx d enumerators) := by
  refine .bind (markSeen_flows _) fun _ => ?_
  dsimp only
  split
  · exact .bind (register_flows _) fun _ => streams_pure _
  · exact .bind (streams_pure _) fun _ => streams_pure _

theorem buildNamespace_flows : Flows (buildNamespace ctx d) :=
  streams_get_bind (fun _ _ => rfl) fun _ => .bind (registerClass_flows _) fun _ =>
    .bind (registerClass_flows _) fun _ => streams_pure _

theorem buildTypedef?_flows (t : TypeId) : Flows (buildTypedef? ctx d t) :=
  .ite (.bind (describe_flows _) fun _ => streams_pure _)
    (.bind (count_flows _) fun _ => streams_pure _)

theorem buildTypeAlias_flows (t : TypeId) : Flows (buildTypeAlias ctx d t) :=
  .bind (describe_flows _) fun _ => streams_pure _

theorem buildTemplated_flows (t : TemplatedNode) : Flows (buildTemplated ctx t) :=
  .bind (describe_flows _) fun _ => .bind (describeArgs_flows _) fun _ => streams_pure _

theorem buildObjcMethods_flows (ds : List DeclId) : Flows (buildObjcMethods ctx ds) := by
  induction ds with
  | nil => exact streams_pure _
  | cons x ds ih =>
    unfold buildObjcMethods
    dsimp only
    split
    · exact .bind (describe_flows _) fun _ => .bind (buildParams_flows _) fun _ =>
        .bind ih fun _ => streams_pure _
    · exact ih

theorem buildInterface_flows (n : InterfaceNode) : Flows (buildInterface ctx d n) :=
  .bind (markSeen_flows _) fun _ => .bind (.mapM (fun _ => buildField_flows _ _ _) _) fun _ =>
    .bind (buildObjcMethods_flows _) fun _ => streams_pure _

theorem buildCategory_flows (n : CategoryNode) : Flows (buildCategory ctx d n) :=
  .bind (markSeen_flows _) fun _ => .bind (buildObjcMethods_flows _) fun _ => streams_pure _

theorem buildProtocol_flows (methods : List DeclId) : Flows (buildProtocol ctx d methods) :=
  .bind (markSeen_flows _) fun _ => .bind (buildObjcMethods_flows _) fun _ => streams_pure _

/-- **Building an entry is quiet**, whatever the declaration is. -/
theorem build?_flows (d : DeclId) : Flows (build? ctx d) := by
  unfold build?
  dsimp only
  split
  · exact buildNamespace_flows.map _
  · exact (buildVar_flows _).map _
  · exact (buildFunction_flows _ _).map _
  · exact buildAnyRecord?_flows _
  · exact (buildEnum_flows _).map _
  · exact buildTypedef?_flows _
  · exact (buildTypeAlias_flows _).map _
  · exact ((buildTemplated_flows _).bind fun _ => streams_pure _).map _
  · exact ((buildTemplated_flows _).bind fun _ => streams_pure _).map _
  · exact streams_pure _
  · exact streams_pure _
  · exact streams_pure _
  · exact (buildInterface_flows _).map _
  · exact (buildCategory_flows _).map _
  · exact (buildProtocol_flows _).map _
  · exact (count_flows _).bind fun _ => streams_pure _
  all_goals exact streams_pure _

theorem buildPending?_flows (d : DeclId) : Flows (buildPending? ctx d) := by
  unfold buildPending?
  split
  · exact buildAnyRecord?_flows _
  · exact streams_pure _

end Building

/-! ## Whole documents -/

section Documents

variable (hw : ctx.writer.Streaming)

include hw

/-- From here on the writer matters: each of its calls streams by hypothesis. -/
theorem perform_flows (c : Call) : Flows (send (ctx.writer.perform c)) := send_flows (hw c)

/-- An entry is one call or two, with the separator before it. If the separator does not fit, the entry
is not sent. -/
theorem writeEntry_flows (source : DeclId) (e : Entry) : Flows (writeEntry ctx source e) := by
  have hrest : ∀ e, Flows (do
      send (ctx.writer.entry e)
      count fun c => { c with emitted := c.emitted + 1 }) :=
    fun e => .bind (perform_flows hw (.entry e)) fun _ => count_flows _
  refine streams_get_bind (fun _ _ => rfl) fun _ => .bind (register_flows _) fun _ => ?_
  refine streams_get_bind (fun _ _ => rfl) fun _ => ?_
  dsimp only
  split
  · exact .bind (perform_flows hw .separator) fun _ => hrest _
  · exact .bind (streams_modify fun _ _ => rfl) fun _ => hrest _

omit hw in
/-- The queue streams if writing one entry does. -/
theorem flushWith_flows {write : DeclId → Option Entry → Extract Page Unit}
    (hwrite : ∀ d e?, Flows (write d e?)) (ds : List DeclId) : Flows (flushWith ctx write ds) := by
  induction ds with
  | nil => exact streams_pure _
  | cons d ds ih =>
    refine streams_get_bind (fun _ _ => rfl) fun s => ?_
    dsimp only
    split
    · exact .bind (buildPending?_flows d) fun _ => .bind (hwrite _ _) fun _ => ih
    · exact ih

/-- By induction on the fuel, which bounds both runs alike. -/
theorem emitWithin_flows (fuel : Nat) (d : DeclId) (e? : Option Entry) :
    Flows (emitWithin ctx fuel d e?) := by
  induction fuel generalizing d e? with
  | zero => exact streams_pure _
  | succ fuel ih =>
    refine .bind (streams_modifyGet fun _ _ => rfl) fun ds =>
      .bind (flushWith_flows ih ds) fun _ => ?_
    cases e? with
    | none => exact streams_pure _
    | some e => exact writeEntry_flows hw d e

/-- By induction on the nesting. -/
theorem visitWithin_flows (fuel : Nat) (scope? : Option DeclId) (d : DeclId) :
    Flows (visitWithin ctx fuel scope? d) := by
  induction fuel generalizing scope? d with
  | zero => exact streams_pure _
  | succ fuel ih =>
    rw [visitWithin_succ]
    have hown : Flows (writeOwn ctx d) :=
      .ite (.bind (build?_flows d) fun _ => emitWithin_flows hw _ _ _) (streams_pure _)
    exact .ite (count_flows _) (inScope_flows (.bind hown fun _ => .forM (ih _) _))

/-- **A document streams if each call of its writer does**, however deep in it the sink runs full. -/
theorem document_streams (namespaceName? : Option String) : Flows (document ctx namespaceName?) := by
  have hstart : Flows (start ctx namespaceName?) := by
    refine .bind (perform_flows hw .header) fun _ => ?_
    cases namespaceName? with
    | none => exact streams_pure _
    | some name => exact perform_flows hw (.announce name)
  have hvisit : Flows (visitTopLevel ctx ctx.unit.topLevel.toList) :=
    .forM (visitWithin_flows hw _ _) _
  exact .bind hstart fun _ => .bind hvisit fun _ => perform_flows hw .footer

end Documents

end Extract

end ForeignDecl
