import ForeignDecl.Proofs.Extract.Mirroring
import ForeignDecl.Proofs.Extract.Visiting

/-!
# Entries of renumbered declarations

The builders read the unit through handles and put numbers of the registry into the entries, but no
handle. So over a renumbered unit each of them makes the same entry out of the corresponding declaration
(`build?_mirrors`).

The lemmas come in the order of the builders and follow their texts. Each one first rewrites what its
builder reads of the unit, through the equations of `IsRenumbering`, until both sides read the same;
then it goes through the steps with `Mirrors.bind`. Where a builder branches on something it read, the
rewriting has made both conditions one, so `Mirrors.ite` asks for no more than `Iff.rfl`.
-/

set_option autoImplicit false

namespace ForeignDecl

namespace Extract

variable {σ : Type} {ρ : Renumbering} {ctx ctx' : Context σ} (h : ctx.Mirrors ρ ctx')

include h

/-! ## Describing types -/

/-- Whether a pointer is one to a function is decided by the resolved type, and of that only the
constructor matters. -/
theorem isFunctionType_renumber (t : TypeId) :
    ctx'.unit.isFunctionType (ρ.type t) = ctx.unit.isFunctionType t := by
  unfold TranslationUnit.isFunctionType
  rw [h.unit.resolve]
  cases ctx.unit.resolve t <;> rfl

/-- A description holds the name, the number and two flags of the record. The flags are read off the
node under the new handle (`hrecord`), and the number is the one that the renumbered registry gives. -/
theorem describeRecord_mirrors (d : DeclId) :
    Mirrors ρ (describeRecord ctx d) (describeRecord ctx' (ρ.decl d)) := by
  have hrecord : ∀ p : RecordNode → Bool, (∀ r, p (r.renumber ρ) = p r) →
      (ctx'.unit.node (ρ.decl d)).record?.any p = (ctx.unit.node d).record?.any p := by
    intro p hp
    rw [h.unit.node, Node.record?_renumber]
    cases (ctx.unit.node d).record? with
    | none => rfl
    | some r => exact hp r
  -- After either way of taking a number comes the same test of the name.
  have hrest : ∀ t : TypeRef, Mirrors ρ
      (if (ctx.unit.node d).name.isEmpty = true then do
          enqueue ctx d
          pure t
        else pure t)
      (if (ctx.unit.node d).name.isEmpty = true then do
          enqueue ctx' (ρ.decl d)
          pure t
        else pure t) :=
    fun t => .ite Iff.rfl ((enqueue_mirrors h d).bind fun _ => mirrors_pure t) (mirrors_pure t)
  unfold describeRecord
  dsimp only
  rw [hrecord _ (RecordNode.isCxx_renumber ρ), hrecord _ (RecordNode.isUnion_renumber ρ),
    hrecord _ (RecordNode.isClass_renumber ρ), h.unit.name]
  refine .ite Iff.rfl ?_ ?_
  · exact (registerClass_mirrors h (some d)).bind fun _ => hrest _
  · exact (register_mirrors h (some d)).bind fun _ => hrest _

/-- A named enumeration has no number, so the registry is asked for unnamed ones only. -/
theorem describeEnum_mirrors (d : DeclId) :
    Mirrors ρ (describeEnum ctx d) (describeEnum ctx' (ρ.decl d)) := by
  unfold describeEnum
  dsimp only
  rw [h.unit.name]
  refine .ite Iff.rfl ?_ ?_
  · exact (register_mirrors h (some d)).bind fun _ => mirrors_pure _
  · exact (mirrors_pure 0).bind fun _ => mirrors_pure _

omit h in
/-- Template arguments are types under new handles, values and spellings. -/
theorem describeArgWith_mirrors {describe describe' : TypeId → Extract σ TypeRef}
    (hdescribe : ∀ t, Mirrors ρ (describe t) (describe' (ρ.type t))) (a : TemplateArgument) :
    Mirrors ρ (describeArgWith describe a) (describeArgWith describe' (a.renumber ρ)) := by
  cases a with
  | type t => exact (hdescribe t).bind fun _ => mirrors_pure _
  | integral t value => exact (hdescribe t).bind fun _ => mirrors_pure _
  | other spelling => exact mirrors_pure _

/-- By induction on the fuel, for all types at once; the cases are the constructors of a type. What a
constructor holds is renumbered and what is described of it is not. -/
theorem describeWithin_mirrors (fuel : Nat) (t : TypeId) :
    Mirrors ρ (describeWithin ctx fuel t) (describeWithin ctx' fuel (ρ.type t)) := by
  induction fuel generalizing t with
  | zero => exact mirrors_pure _
  | succ fuel ih =>
    unfold describeWithin
    rw [h.unit.type]
    cases htype : ctx.unit.type t
    case builtin kind =>
      -- Only here the oracle is asked, and it answers alike for the renumbered type.
      have hbasic : ∀ name : String, Mirrors ρ
          (do
            let l ← ask (ctx.oracle.type t)
            return .basic name l.size l.align : Extract σ TypeRef)
          (do
            let l ← ask (ctx'.oracle.type (ρ.type t))
            return .basic name l.size l.align) :=
        fun name => (ask_mirrors (h.oracle.type t)).bind fun _ => mirrors_pure _
      cases kind
      case void => exact mirrors_pure _
      all_goals exact hbasic _
    case pointer target =>
      simp only [CType.renumber, isFunctionType_renumber h]
      exact .ite Iff.rfl (mirrors_pure _) ((ih target).bind fun _ => mirrors_pure _)
    case lvalueReference target => exact (ih target).bind fun _ => mirrors_pure _
    case rvalueReference target => exact (ih target).bind fun _ => mirrors_pure _
    case array element count => exact (ih element).bind fun _ => mirrors_pure _
    case incompleteArray element => exact (ih element).bind fun _ => mirrors_pure _
    case variableArray element => exact (ih element).bind fun _ => mirrors_pure _
    case record d => exact describeRecord_mirrors h d
    case enum d => exact describeEnum_mirrors h d
    case typedef d =>
      simp only [CType.renumber, h.unit.name]
      exact mirrors_pure _
    case elaborated inner => exact ih inner
    case paren inner => exact ih inner
    case specialization template args record? =>
      exact (registerClass_mirrors h record?).bind fun _ =>
        (Mirrors.mapM (describeArgWith_mirrors ih) args).bind fun _ => mirrors_pure _
    case objcPointer interface? =>
      cases interface? with
      | none => exact mirrors_pure _
      | some d =>
        simp only [CType.renumber, Option.map_some, h.unit.name]
        exact mirrors_pure _
    all_goals exact mirrors_pure _

/-- Both units have as many types, so both descriptions start with the same fuel. -/
theorem describe_mirrors (t : TypeId) :
    Mirrors ρ (describe ctx t) (describe ctx' (ρ.type t)) := by
  unfold describe
  rw [h.unit.typeBudget]
  exact describeWithin_mirrors h _ t

theorem describeArgs_mirrors (args : List TemplateArgument) :
    Mirrors ρ (describeArgs ctx args) (describeArgs ctx' (args.map (·.renumber ρ))) :=
  .mapM (describeArgWith_mirrors (describe_mirrors h)) args

theorem describeField_mirrors (f : FieldNode) :
    Mirrors ρ (describeField ctx f) (describeField ctx' (f.renumber ρ)) := by
  have hwidth : (f.renumber ρ).width? = f.width? := rfl
  unfold describeField
  rw [hwidth]
  refine (describe_mirrors h f.type).bind fun _ => ?_
  cases f.width? with
  | none => exact mirrors_pure _
  | some width => exact mirrors_pure _

/-! ## Building entries -/

/-- The name of a variable and its constant are no handles. The macro that it may stand for is looked up
by name, in the same table. -/
theorem buildVar_mirrors (d : DeclId) (v : VarNode) :
    Mirrors ρ (buildVar ctx d v) (buildVar ctx' (ρ.decl d) (v.renumber ρ)) := by
  unfold buildVar
  rw [h.unit.node, Node.name_renumber, h.unit.macros, h.unit.constantOf?]
  exact (describe_mirrors h v.type).bind fun _ => mirrors_pure _

theorem buildParams_mirrors (params : List NodeParam) :
    Mirrors ρ (buildParams ctx params) (buildParams ctx' (params.map (·.renumber ρ))) :=
  .mapM (fun p => (describe_mirrors h p.type).bind fun _ => mirrors_pure _) params

theorem buildArgs?_mirrors (args? : Option (List TemplateArgument)) :
    Mirrors ρ (buildArgs? ctx args?) (buildArgs? ctx' (args?.map (·.map (·.renumber ρ)))) := by
  cases args? with
  | none => exact mirrors_pure _
  | some args => exact (describeArgs_mirrors h args).bind fun _ => mirrors_pure _

/-- Marking a function marks the renumbered one. -/
theorem buildFunction_mirrors (d : DeclId) (f : FunctionNode) :
    Mirrors ρ (buildFunction ctx d f) (buildFunction ctx' (ρ.decl d) (f.renumber ρ)) := by
  unfold buildFunction
  rw [h.unit.name]
  exact (markSeen_mirrors h d).bind fun _ => (describe_mirrors h f.result).bind fun _ =>
    (buildParams_mirrors h f.params).bind fun _ => (buildArgs?_mirrors h f.templateArgs?).bind fun _ =>
    mirrors_pure _

theorem buildMethod_mirrors (recordId : Nat) (d : DeclId) (m : MethodNode) :
    Mirrors ρ (buildMethod ctx recordId d m) (buildMethod ctx' recordId (ρ.decl d) (m.renumber ρ)) := by
  unfold buildMethod
  rw [h.unit.node, Node.locationText_renumber]
  exact (buildFunction_mirrors h d m.function).bind fun _ => mirrors_pure _

/-- By induction on the members, which are renumbered one by one. A member is a method on both sides or
on neither. -/
theorem buildMethods_mirrors (recordId : Nat) (ds : List DeclId) :
    Mirrors ρ (buildMethods ctx recordId ds) (buildMethods ctx' recordId (ds.map ρ.decl)) := by
  induction ds with
  | nil => exact mirrors_pure _
  | cons d ds ih =>
    rw [List.map_cons, buildMethods, buildMethods, h.unit.node, Node.kind_renumber]
    cases (ctx.unit.node d).kind
    case method m =>
      exact (buildMethod_mirrors h recordId d m).bind fun _ => ih.bind fun _ => mirrors_pure _
    all_goals exact ih

/-- Whether an unnamed record was seen is asked of the session, which remembers the renumbered handle.
-/
theorem dropUnnamed_mirrors (d : DeclId) :
    Mirrors ρ (dropUnnamed ctx d) (dropUnnamed ctx' (ρ.decl d)) :=
  mirrors_get_bind fun s =>
    .ite (not_congr (seen_renumber_iff h s d)) (count_mirrors _) (mirrors_pure _)

/-! ## Records -/

section Records

variable (d : DeclId) (r : RecordNode)

/-- Both oracles answer with the same layout, or refuse for the same reason. The message of a refusal
may differ, since it names the record by its handle where it has no name, but the step looks at the
constructor only. -/
theorem sizingOf_mirrors : Mirrors ρ (sizingOf ctx d r) (sizingOf ctx' (ρ.decl d) (r.renumber ρ)) := by
  have hskip : Mirrors ρ
      (do
        markSeen ctx d
        count fun c => { c with skippedInvalid := c.skippedInvalid + 1 }
        return Sizing.unsizable)
      (do
        markSeen ctx' (ρ.decl d)
        count fun c => { c with skippedInvalid := c.skippedInvalid + 1 }
        return Sizing.unsizable) :=
    (markSeen_mirrors h d).bind fun _ => (count_mirrors _).bind fun _ => mirrors_pure _
  -- The two answers are generalized together with what relates them, so that its cases can be taken.
  have hanswer := h.oracle.record d
  unfold sizingOf
  rw [RecordNode.isComplete_renumber, RecordNode.isDependent_renumber]
  refine .ite Iff.rfl (mirrors_pure _) ?_
  generalize ctx.oracle.record d = answer at hanswer ⊢
  generalize ctx'.oracle.record (ρ.decl d) = answer' at hanswer ⊢
  obtain hl | @⟨e, e', he⟩ := hanswer
  · exact hl ▸ mirrors_pure _
  · -- The reason tells the constructor, and so which refusals are passed over.
    cases e <;> cases e' <;> first | exact hskip | exact refusal_mirrors he | cases he

/-- As for records, with zeros in the place of leaving the record out. -/
theorem fieldLayout_mirrors (t : TypeId) :
    Mirrors ρ (fieldLayout ctx t) (fieldLayout ctx' (ρ.type t)) := by
  have hanswer := h.oracle.type t
  unfold fieldLayout
  generalize ctx.oracle.type t = answer at hanswer ⊢
  generalize ctx'.oracle.type (ρ.type t) = answer' at hanswer ⊢
  obtain hl | @⟨e, e', he⟩ := hanswer
  · exact hl ▸ mirrors_pure _
  · cases e <;> cases e' <;> first | exact mirrors_pure _ | exact refusal_mirrors he | cases he

theorem buildField_mirrors (f : FieldNode) (offset : Nat) :
    Mirrors ρ (buildField ctx d f offset) (buildField ctx' (ρ.decl d) (f.renumber ρ) offset) := by
  unfold buildField
  rw [h.unit.name]
  exact (fieldLayout_mirrors h f.type).bind fun _ => (describeField_mirrors h f).bind fun _ =>
    mirrors_pure _

/-- By induction on the fields, each with the next offset. Where the offsets run out both sides stop,
with messages that may name the record differently. -/
theorem buildFields_mirrors (fields : List (DeclId × FieldNode)) (index : Nat) (offsets : List Nat) :
    Mirrors ρ (buildFields ctx d index offsets fields) (buildFields ctx' (ρ.decl d) index offsets
      (fields.map fun p => (ρ.decl p.1, p.2.renumber ρ))) := by
  induction fields generalizing index offsets with
  | nil =>
    rw [List.map_nil, buildFields, buildFields]
    exact mirrors_pure _
  | cons p fields ih =>
    cases offsets with
    | nil => exact mirrors_throw rfl
    | cons offset offsets =>
      exact (buildField_mirrors h p.1 p.2 offset).bind fun _ => (ih _ _).bind fun _ => mirrors_pure _

/-- The members that are fields are the same ones, in the same order. -/
theorem buildBody_mirrors (id : Nat) (sizing : Sizing) :
    Mirrors ρ (buildBody ctx d r id sizing)
      (buildBody ctx' (ρ.decl d) (r.renumber ρ) id sizing) := by
  unfold buildBody
  rw [h.unit.node, Node.name_renumber, RecordNode.isUnion_renumber, RecordNode.members_renumber,
    h.unit.fieldsAmong]
  cases sizing with
  | sized layout => exact (buildFields_mirrors h d _ _ _).bind fun _ => mirrors_pure _
  | unsized => exact mirrors_pure _
  | unsizable => exact mirrors_pure _

/-- Bases are asked for by handle and told by name. -/
theorem buildParent_mirrors (b : BaseSpecifier) :
    Mirrors ρ (buildParent ctx d b) (buildParent ctx' (ρ.decl d) (b.renumber ρ)) := by
  have hanswer : Layout.Alike id
      (if b.isVirtual then ctx.oracle.virtualBaseOffset d b.record
        else ctx.oracle.baseOffset d b.record)
      (if b.isVirtual then ctx'.oracle.virtualBaseOffset (ρ.decl d) (ρ.decl b.record)
        else ctx'.oracle.baseOffset (ρ.decl d) (ρ.decl b.record)) := by
    split
    · exact h.oracle.virtualBaseOffset d b.record
    · exact h.oracle.baseOffset d b.record
  have hname : (ctx'.unit.node (b.renumber ρ).record).name = (ctx.unit.node b.record).name :=
    h.unit.name b.record
  unfold buildParent
  rw [hname]
  exact (ask_mirrors hanswer).bind fun _ => mirrors_pure _

theorem buildParents_mirrors (sizing : Sizing) :
    Mirrors ρ (buildParents ctx d r sizing)
      (buildParents ctx' (ρ.decl d) (r.renumber ρ) sizing) := by
  cases sizing with
  | sized layout =>
    unfold buildParents
    rw [RecordNode.bases_renumber]
    exact .mapM (buildParent_mirrors h d) _
  | unsized => exact mirrors_pure _
  | unsizable => exact mirrors_pure _

/-- What both kinds of record have in common: one without a name is left out where it is declared, one
without a size is left out, and with any other answer about its size the builder goes on. The rest of
the builder is a parameter. -/
theorem sizedOrLeft_mirrors {occasion : Occasion} {build build' : Sizing → Extract σ (Option Entry)}
    (hbuild : ∀ sizing, Mirrors ρ (build sizing) (build' sizing)) :
    Mirrors ρ
      (if occasion = .declared ∧ (ctx.unit.node d).name.isEmpty then do
        dropUnnamed ctx d
        return none
      else do
        match ← sizingOf ctx d r with
        | .unsizable => return none
        | sizing => build sizing)
      (if occasion = .declared ∧ (ctx'.unit.node (ρ.decl d)).name.isEmpty then do
        dropUnnamed ctx' (ρ.decl d)
        return none
      else do
        match ← sizingOf ctx' (ρ.decl d) (r.renumber ρ) with
        | .unsizable => return none
        | sizing => build' sizing) := by
  rw [h.unit.name]
  refine .ite Iff.rfl ((dropUnnamed_mirrors h d).bind fun _ => mirrors_pure _) ?_
  refine (sizingOf_mirrors h d r).bind fun sizing => ?_
  cases sizing with
  | unsizable => exact mirrors_pure _
  | sized layout => exact hbuild _
  | unsized => exact hbuild _

/-- Of a class its arguments, methods, fields and bases are made one after another, each by a builder
above. -/
theorem buildClass?_mirrors (occasion : Occasion) :
    Mirrors ρ (buildClass? ctx occasion d r)
      (buildClass? ctx' occasion (ρ.decl d) (r.renumber ρ)) := by
  have hargs : ((r.renumber ρ).class?.bind (·.specialization?)).map (·.args) =
      ((r.class?.bind (·.specialization?)).map (·.args)).map (·.map (·.renumber ρ)) := by
    rw [RecordNode.specialization?_renumber, Option.map_map, Option.map_map]
    rfl
  have hcondition : (!(r.renumber ρ).isComplete || (ctx'.unit.node (ρ.decl d)).isInvalid) =
      (!r.isComplete || (ctx.unit.node d).isInvalid) := by
    rw [RecordNode.isComplete_renumber, h.unit.node, Node.isInvalid_renumber]
  unfold buildClass?
  dsimp only
  refine .ite (by rw [hcondition]) (mirrors_pure _) (sizedOrLeft_mirrors h d r fun sizing => ?_)
  rw [hargs, RecordNode.members_renumber, RecordNode.isClass_renumber]
  exact (buildArgs?_mirrors h _).bind fun _ => (markSeen_mirrors h d).bind fun _ =>
    (registerClass_mirrors h (some d)).bind fun id =>
    (buildMethods_mirrors h id r.members).bind fun _ => (buildBody_mirrors h d r id sizing).bind fun _ =>
    (buildParents_mirrors h d r sizing).bind fun _ => mirrors_pure _

theorem buildRecord?_mirrors (occasion : Occasion) :
    Mirrors ρ (buildRecord? ctx occasion d r)
      (buildRecord? ctx' occasion (ρ.decl d) (r.renumber ρ)) := by
  refine sizedOrLeft_mirrors h d r fun sizing => ?_
  exact (markSeen_mirrors h d).bind fun _ => (register_mirrors h (some d)).bind fun id =>
    (buildBody_mirrors h d r id sizing).bind fun _ => mirrors_pure _

theorem buildAnyRecord?_mirrors (occasion : Occasion) :
    Mirrors ρ (buildAnyRecord? ctx occasion d r)
      (buildAnyRecord? ctx' occasion (ρ.decl d) (r.renumber ρ)) := by
  unfold buildAnyRecord?
  rw [RecordNode.isCxx_renumber]
  exact .ite Iff.rfl (buildClass?_mirrors h d r occasion) (buildRecord?_mirrors h d r occasion)

end Records

/-! ## The other kinds -/

section Kinds

variable (d : DeclId)

/-- Enumerators are names and values and stay as they are. -/
theorem buildEnum_mirrors (enumerators : List Enumerator) :
    Mirrors ρ (buildEnum ctx d enumerators) (buildEnum ctx' (ρ.decl d) enumerators) := by
  unfold buildEnum
  dsimp only
  rw [h.unit.name]
  refine (markSeen_mirrors h d).bind fun _ => .ite Iff.rfl ?_ ?_
  · exact (register_mirrors h (some d)).bind fun _ => mirrors_pure _
  · exact (mirrors_pure 0).bind fun _ => mirrors_pure _

/-- The scope around a namespace is registered first, and it too is the renumbered one. -/
theorem buildNamespace_mirrors : Mirrors ρ (buildNamespace ctx d) (buildNamespace ctx' (ρ.decl d)) := by
  unfold buildNamespace
  rw [h.unit.name]
  exact mirrors_get_bind fun s => (registerClass_mirrors h s.scope?).bind fun _ =>
    (registerClass_mirrors h (some d)).bind fun _ => mirrors_pure _

/-- Resolving leads to the renumbered record, which is invalid if the other one is. -/
theorem underlyingIsValid_renumber (t : TypeId) :
    underlyingIsValid ctx'.unit (ρ.type t) = underlyingIsValid ctx.unit t := by
  unfold underlyingIsValid
  rw [h.unit.resolve]
  cases ctx.unit.resolve t
  case record d => simp only [CType.renumber, h.unit.node, Node.isInvalid_renumber]
  all_goals rfl

theorem buildTypedef?_mirrors (t : TypeId) :
    Mirrors ρ (buildTypedef? ctx d t) (buildTypedef? ctx' (ρ.decl d) (ρ.type t)) := by
  unfold buildTypedef?
  rw [underlyingIsValid_renumber h, h.unit.name]
  exact .ite Iff.rfl ((describe_mirrors h t).bind fun _ => mirrors_pure _)
    ((count_mirrors _).bind fun _ => mirrors_pure _)

theorem buildTypeAlias_mirrors (t : TypeId) :
    Mirrors ρ (buildTypeAlias ctx d t) (buildTypeAlias ctx' (ρ.decl d) (ρ.type t)) := by
  unfold buildTypeAlias
  rw [h.unit.name]
  exact (describe_mirrors h t).bind fun _ => mirrors_pure _

theorem buildTemplated_mirrors (t : TemplatedNode) :
    Mirrors ρ (buildTemplated ctx t) (buildTemplated ctx' (t.renumber ρ)) :=
  (describe_mirrors h t.type).bind fun _ => (describeArgs_mirrors h t.params).bind fun _ =>
    mirrors_pure _

theorem buildAliasTemplate_mirrors (t : TemplatedNode) :
    Mirrors ρ (buildAliasTemplate ctx d t) (buildAliasTemplate ctx' (ρ.decl d) (t.renumber ρ)) := by
  unfold buildAliasTemplate
  rw [h.unit.name]
  exact (buildTemplated_mirrors h t).bind fun _ => mirrors_pure _

theorem buildVarTemplate_mirrors (t : TemplatedNode) :
    Mirrors ρ (buildVarTemplate ctx d t) (buildVarTemplate ctx' (ρ.decl d) (t.renumber ρ)) := by
  unfold buildVarTemplate
  rw [h.unit.name]
  exact (buildTemplated_mirrors h t).bind fun _ => mirrors_pure _

/-- By induction on the members, as for the methods of a class. -/
theorem buildObjcMethods_mirrors (ds : List DeclId) :
    Mirrors ρ (buildObjcMethods ctx ds) (buildObjcMethods ctx' (ds.map ρ.decl)) := by
  induction ds with
  | nil => exact mirrors_pure _
  | cons d ds ih =>
    rw [List.map_cons, buildObjcMethods, buildObjcMethods, h.unit.node, Node.kind_renumber,
      Node.name_renumber, Node.locationText_renumber]
    cases (ctx.unit.node d).kind
    case objcMethod m =>
      exact (describe_mirrors h m.result).bind fun _ => (buildParams_mirrors h m.params).bind fun _ =>
        ih.bind fun _ => mirrors_pure _
    all_goals exact ih

theorem buildIvars_mirrors (ds : List DeclId) :
    Mirrors ρ (buildIvars ctx ds) (buildIvars ctx' (ds.map ρ.decl)) := by
  unfold buildIvars
  rw [h.unit.fieldsAmong]
  exact .mapM (fun p => buildField_mirrors h p.1 p.2 0) _

/-- The superclass and the protocols are told by name, so they are the same texts. -/
theorem buildInterface_mirrors (n : InterfaceNode) :
    Mirrors ρ (buildInterface ctx d n) (buildInterface ctx' (ρ.decl d) (n.renumber ρ)) := by
  have hsuperclass : (n.renumber ρ).superclass?.map (fun s => (ctx'.unit.node s).name) =
      n.superclass?.map fun s => (ctx.unit.node s).name := by
    rw [InterfaceNode.renumber, Option.map_map]
    exact congrFun (congrArg _ (funext h.unit.name)) _
  have hprotocols : (n.renumber ρ).protocols.map (fun p => (ctx'.unit.node p).name) =
      n.protocols.map fun p => (ctx.unit.node p).name := by
    rw [InterfaceNode.renumber, List.map_map]
    exact List.map_congr_left fun p _ => h.unit.name p
  unfold buildInterface
  rw [hsuperclass, hprotocols, h.unit.name]
  exact (markSeen_mirrors h d).bind fun _ => (buildIvars_mirrors h n.ivars).bind fun _ =>
    (buildObjcMethods_mirrors h n.methods).bind fun _ => mirrors_pure _

theorem buildCategory_mirrors (n : CategoryNode) :
    Mirrors ρ (buildCategory ctx d n) (buildCategory ctx' (ρ.decl d) (n.renumber ρ)) := by
  unfold buildCategory
  rw [show (n.renumber ρ).interface = ρ.decl n.interface from rfl, h.unit.name, h.unit.name]
  exact (markSeen_mirrors h d).bind fun _ => (buildObjcMethods_mirrors h n.methods).bind fun _ =>
    mirrors_pure _

theorem buildProtocol_mirrors (methods : List DeclId) :
    Mirrors ρ (buildProtocol ctx d methods)
      (buildProtocol ctx' (ρ.decl d) (methods.map ρ.decl)) := by
  unfold buildProtocol
  rw [h.unit.name]
  exact (markSeen_mirrors h d).bind fun _ => (buildObjcMethods_mirrors h methods).bind fun _ =>
    mirrors_pure _

/-- **Every declaration is made into the same entry.** The cases are the kinds of a declaration; each is
the lemma about its builder, and kinds without an entry answer without a step. -/
theorem build?_mirrors : Mirrors ρ (build? ctx d) (build? ctx' (ρ.decl d)) := by
  unfold build?
  dsimp only
  rw [h.unit.node, Node.kind_renumber, Node.name_renumber]
  cases (ctx.unit.node d).kind
  case namespaceBlock members => exact (buildNamespace_mirrors h d).map _
  case var v => exact (buildVar_mirrors h d v).map _
  case function f => exact (buildFunction_mirrors h d f).map _
  case record r => exact buildAnyRecord?_mirrors h d r .declared
  case enum enumerators => exact (buildEnum_mirrors h d enumerators).map _
  case typedef t => exact buildTypedef?_mirrors h d t
  case typeAlias t => exact (buildTypeAlias_mirrors h d t).map _
  case aliasTemplate t => exact (buildAliasTemplate_mirrors h d t).map _
  case varTemplate t => exact (buildVarTemplate_mirrors h d t).map _
  case objcInterface n => exact (buildInterface_mirrors h d n).map _
  case objcCategory n => exact (buildCategory_mirrors h d n).map _
  case objcProtocol methods => exact (buildProtocol_mirrors h d methods).map _
  case other label named =>
    cases named with
    | false => exact mirrors_pure _
    | true => exact (count_mirrors _).bind fun _ => mirrors_pure _
  all_goals exact mirrors_pure _

end Kinds

end Extract

end ForeignDecl
