import ForeignDecl.Proofs.Extract.Entities

/-!
# Declarations of C++, in the order of registration

While an entry is built, records are registered: those that its types refer to, in the order in which
the types are described, and for a C++ record the record itself, behind its template arguments. Some of
them are remembered as declarations of C++. `TranslationUnit.classesTold` lists these from the
translation unit alone, and `build?_registers` says that a builder registers them and no others.

The order matters: the instantiations that a document asks for are written in the order in which their
classes were first registered (`Proofs/Extract/Instantiations.lean`). So everything here is about
lists, and a step that registers nothing has the empty list.
-/

set_option autoImplicit false

namespace ForeignDecl

/-! ## What there is to register -/

namespace TranslationUnit

variable (u : TranslationUnit)

/-- The declarations of C++ in a type of at most `fuel` layers: C++ records, and the records of
specializations, each before what its arguments bring along. The recursion is that of `describeWithin`;
a function type behind a pointer is not looked into, as it is not described. -/
def classesWithin : Nat → TypeId → List DeclId
  | 0, _ => []
  | fuel + 1, t =>
    match u.type t with
    | .pointer target => if u.isFunctionType target then [] else classesWithin fuel target
    | .lvalueReference inner | .rvalueReference inner | .array inner _ | .incompleteArray inner
    | .variableArray inner | .elaborated inner | .paren inner => classesWithin fuel inner
    | .record d => if (u.node d).record?.any RecordNode.isCxx then [d] else []
    | .specialization _ args record? =>
      record?.toList ++ (args.filterMap (·.type?)).flatMap (classesWithin fuel)
    | _ => []

/-- The declarations of C++ in a type. -/
def classes (t : TypeId) : List DeclId := u.classesWithin u.typeBudget t

/-- The declarations of C++ that are registered for the entry of a declaration inside a scope. A
namespace has the scope around it registered before itself, and a class stands behind its template
arguments and before its methods and fields, because that is when it is given its number. -/
def classesTold (scope? : Option DeclId) (d : DeclId) : List DeclId :=
  match (u.node d).kind with
  | .namespaceBlock _ => scope?.toList ++ [d]
  | .record r =>
    if r.isCxx then
      (r.args.filterMap (·.type?)).flatMap u.classes ++
        d :: ((u.methodsAmong r.members).flatMap (·.function.types) ++ u.bodyTypes r).flatMap u.classes
    else (u.bodyTypes r).flatMap u.classes
  | _ => (u.typesTold d).flatMap u.classes

end TranslationUnit

/-! ## What is registered -/

variable {σ α β : Type} {u : TranslationUnit} {cs cs' : List DeclId}

/-- Between the sessions, `cs` were registered as declarations of C++, in this order. A declaration that
was registered before stays where it was, which the insertion into the ordered set says. -/
def Registers (u : TranslationUnit) (cs : List DeclId) (s s' : Session σ) : Prop :=
  s'.registry.classes = (cs.map u.canonical).foldl .insert s.registry.classes

namespace Registers

variable {s s₁ s' : Session σ}

theorem of_eq (h : s'.registry.classes = s.registry.classes) : Registers u [] s s' := h

theorem append (h : Registers u cs s s₁) (h' : Registers u cs' s₁ s') :
    Registers u (cs ++ cs') s s' := by
  unfold Registers at h h' ⊢
  rw [List.map_append, List.foldl_append, ← h, h']

end Registers

namespace Extract

variable {ctx : Context σ}

/-- A step that succeeds registers `cs` as declarations of C++. The list does not depend on the session:
what a type brings along is registered again each time, and only the first time shows. -/
def Registering (ctx : Context σ) (cs : List DeclId) (x : Extract σ α) : Prop :=
  ∀ s a s', x s = .ok a s' → Registers ctx.unit cs s s'

/-! ## Steps -/

namespace Registering

theorem of_throw (e : ExtractError) : Registering ctx cs (throw e : Extract σ α) :=
  fun _ _ _ h => absurd h throw_ne_ok

theorem pure (a : α) : Registering ctx [] (pure a : Extract σ α) := by
  intro s b s' h
  obtain ⟨_, rfl⟩ := pure_eq_ok.1 h
  exact .of_eq rfl

/-- Two steps register what the first one does, and then what the second one does. -/
theorem bind {x : Extract σ α} {f : α → Extract σ β} (hx : Registering ctx cs x)
    (hf : ∀ a, Registering ctx cs' (f a)) : Registering ctx (cs ++ cs') (x >>= f) := by
  intro s b s'' h
  obtain ⟨a, s', hxa, hfa⟩ := bind_eq_ok.1 h
  exact (hx s a s' hxa).append (hf a s' b s'' hfa)

theorem after {x : Extract σ α} {f : α → Extract σ β} (hx : Registering ctx [] x)
    (hf : ∀ a, Registering ctx cs (f a)) : Registering ctx cs (x >>= f) := hx.bind hf

theorem before {x : Extract σ α} {f : α → Extract σ β} (hx : Registering ctx cs x)
    (hf : ∀ a, Registering ctx [] (f a)) : Registering ctx cs (x >>= f) := by
  have h := hx.bind hf
  rwa [List.append_nil] at h

theorem map {x : Extract σ α} (hx : Registering ctx cs x) (f : α → β) :
    Registering ctx cs (f <$> x) := by
  rw [map_eq_pure_bind]
  exact hx.before fun _ => .pure _

/-- A step for each element registers what they do, in a row. -/
theorem mapM {γ : Type} {f : γ → Extract σ α} {classes : γ → List DeclId} :
    ∀ {xs : List γ}, (∀ x ∈ xs, Registering ctx (classes x) (f x)) →
      Registering ctx (xs.flatMap classes) (xs.mapM f)
  | [], _ => by
    rw [List.mapM_nil]
    exact .pure _
  | x :: xs, h => by
    rw [List.mapM_cons]
    exact (h x (by simp)).bind fun _ =>
      (mapM fun y hy => h y (by simp [hy])).before fun _ => .pure _

end Registering

theorem modify_registering {f : Session σ → Session σ}
    (h : ∀ s, (f s).registry.classes = s.registry.classes) :
    Registering ctx [] (modify f : Extract σ PUnit) := by
  intro s a s' hs
  obtain rfl := modify_eq_ok.1 hs
  exact .of_eq (h s)

theorem markSeen_registering (d : DeclId) : Registering ctx [] (markSeen ctx d) :=
  modify_registering fun _ => rfl

theorem count_registering (f : Summary → Summary) :
    Registering ctx [] (count f : Extract σ PUnit) := modify_registering fun _ => rfl

theorem enqueue_registering (d : DeclId) : Registering ctx [] (enqueue ctx d) := by
  refine modify_registering fun s => ?_
  dsimp only
  split <;> rfl

theorem ask_registering (answer : Except LayoutError α) :
    Registering ctx [] (ask answer : Extract σ α) := by
  cases answer with
  | ok a => exact .pure a
  | error e => exact .of_throw _

/-- A number alone does not make a declaration one of C++. -/
theorem register_registering (d? : Option DeclId) : Registering ctx [] (register ctx d?) := by
  intro s id s' h
  cases modifyGet_eq_ok.1 h
  cases d? <;> exact .of_eq rfl

/-- The one step that registers such a declaration. -/
theorem registerClass_registering (d? : Option DeclId) :
    Registering ctx d?.toList (registerClass ctx d?) := by
  intro s id s' h
  cases modifyGet_eq_ok.1 h
  cases d? with
  | none => exact .of_eq rfl
  | some d => exact rfl

/-! ## Describing types -/

/-- A reference to a record registers it, and lists it if it is one of C++. -/
theorem describeRecord_registering (d : DeclId) :
    Registering ctx (if (ctx.unit.node d).record?.any RecordNode.isCxx then [d] else [])
      (describeRecord ctx d) := by
  -- Queueing a record without a name registers nothing more.
  have hrest : ∀ ref : TypeRef, Registering ctx []
      (if (ctx.unit.node d).name.isEmpty then (do
        enqueue ctx d
        Pure.pure ref) else Pure.pure ref : Extract σ TypeRef) := by
    intro ref
    split
    · exact (enqueue_registering d).after fun _ => .pure _
    · exact .pure _
  unfold describeRecord
  dsimp only
  split
  · exact (registerClass_registering _).before fun _ => hrest _
  · exact (register_registering _).after fun _ => hrest _

theorem describeEnum_registering (d : DeclId) : Registering ctx [] (describeEnum ctx d) := by
  unfold describeEnum
  dsimp only
  split
  · exact (register_registering _).after fun _ => .pure _
  · exact Registering.after (.pure _) fun _ => .pure _

/-- Template arguments in their order, with describing a type as a parameter. -/
theorem describeArgs_registering_of {describe : TypeId → Extract σ TypeRef}
    {classes : TypeId → List DeclId} (h : ∀ t, Registering ctx (classes t) (describe t))
    (args : List TemplateArgument) :
    Registering ctx ((args.filterMap (·.type?)).flatMap classes)
      (args.mapM (describeArgWith describe)) := by
  rw [List.filterMap_eq_flatMap_toList, List.flatMap_assoc]
  refine .mapM fun a _ => ?_
  cases a with
  | type t =>
    simp only [TemplateArgument.type?, Option.toList, List.flatMap_singleton]
    exact (h t).before fun _ => .pure _
  | integral t value =>
    simp only [TemplateArgument.type?, Option.toList, List.flatMap_singleton]
    exact (h t).before fun _ => .pure _
  | other spelling => exact .pure _

/-- **Describing a type registers the declarations of C++ in it.** By induction on the fuel; both
recursions are unfolded together. -/
theorem describeWithin_registering : ∀ (fuel : Nat) (t : TypeId),
    Registering ctx (ctx.unit.classesWithin fuel t) (describeWithin ctx fuel t)
  | 0, _ => .pure _
  | fuel + 1, t => by
    have ih := describeWithin_registering fuel
    -- Most types are another one with something around it.
    have hwrap : ∀ (inner : TypeId) (f : TypeRef → TypeRef),
        Registering ctx (ctx.unit.classesWithin fuel inner)
          (do return f (← describeWithin ctx fuel inner) : Extract σ TypeRef) :=
      fun inner f => (ih inner).before fun _ => .pure _
    unfold describeWithin TranslationUnit.classesWithin
    cases ctx.unit.type t
    case builtin kind =>
      cases kind
      case void => exact .pure _
      all_goals exact (ask_registering _).after fun _ => .pure _
    case pointer target =>
      dsimp only
      split
      · exact .pure _
      · exact hwrap target _
    case lvalueReference target => exact hwrap target _
    case rvalueReference target => exact hwrap target _
    case array element count => exact hwrap element _
    case incompleteArray element => exact hwrap element _
    case variableArray element => exact hwrap element _
    case record d => exact describeRecord_registering d
    case enum d => exact describeEnum_registering d
    case elaborated inner => exact ih inner
    case paren inner => exact ih inner
    case specialization template args record? =>
      exact (registerClass_registering _).bind fun _ =>
        (describeArgs_registering_of ih args).before fun _ => .pure _
    case objcPointer d? => cases d? <;> exact .pure _
    all_goals exact .pure _

theorem describe_registering (t : TypeId) :
    Registering ctx (ctx.unit.classes t) (describe ctx t) := describeWithin_registering _ t

theorem describeArgs_registering (args : List TemplateArgument) :
    Registering ctx ((args.filterMap (·.type?)).flatMap ctx.unit.classes) (describeArgs ctx args) :=
  describeArgs_registering_of describe_registering args

/-! ## Building entries -/

/-- The declarations of C++ in some types, in their order. -/
abbrev classesOf (ctx : Context σ) (ts : List TypeId) : List DeclId := ts.flatMap ctx.unit.classes

theorem buildParams_registering (params : List NodeParam) :
    Registering ctx (classesOf ctx (params.map (·.type))) (buildParams ctx params) := by
  rw [classesOf, List.flatMap_map]
  exact .mapM fun p _ => (describe_registering _).before fun _ => .pure _

theorem buildArgs?_registering (args? : Option (List TemplateArgument)) :
    Registering ctx (classesOf ctx ((args?.getD []).filterMap (·.type?))) (buildArgs? ctx args?) := by
  cases args? with
  | none => exact .pure _
  | some args => exact (describeArgs_registering args).before fun _ => .pure _

theorem buildFunction_registering (d : DeclId) (f : FunctionNode) :
    Registering ctx (classesOf ctx f.types) (buildFunction ctx d f) := by
  rw [classesOf, FunctionNode.types, List.flatMap_cons, List.flatMap_append]
  exact (markSeen_registering d).after fun _ => (describe_registering _).bind fun _ =>
    (buildParams_registering _).bind fun _ => (buildArgs?_registering _).before fun _ => .pure _

theorem fieldLayout_registering (t : TypeId) : Registering ctx [] (fieldLayout ctx t) := by
  unfold fieldLayout
  split
  · exact .pure _
  · exact .pure _
  · exact .pure _
  · exact .of_throw _

theorem buildField_registering (d : DeclId) (f : FieldNode) (offset : Nat) :
    Registering ctx (ctx.unit.classes f.type) (buildField ctx d f offset) := by
  refine (fieldLayout_registering _).after fun _ => Registering.before ?_ fun _ => .pure _
  refine (describe_registering _).before fun _ => ?_
  split <;> exact .pure _

/-- By induction on the fields, with an offset for each. -/
theorem buildFields_registering (record : DeclId) :
    ∀ (fields : List (DeclId × FieldNode)) (index : Nat) (offsets : List Nat),
      Registering ctx (classesOf ctx (fields.map (·.2.type))) (buildFields ctx record index offsets fields)
  | [], _, _ => by
    unfold buildFields
    exact .pure _
  | (d, f) :: fields, index, [] => .of_throw _
  | (d, f) :: fields, index, offset :: offsets =>
    (buildField_registering d f offset).bind fun _ =>
      (buildFields_registering record fields (index + 1) offsets).before fun _ => .pure _

/-- A record without a layout has no fields to describe, and `bodyTypes` lists none. -/
theorem buildBody_registering {d : DeclId} {r : RecordNode} {sizing : Sizing}
    (hfits : sizing.Fits ctx d r) (id : Nat) :
    Registering ctx (classesOf ctx (ctx.unit.bodyTypes r)) (buildBody ctx d r id sizing) := by
  unfold TranslationUnit.bodyTypes
  cases sizing with
  | sized layout =>
    rw [if_pos hfits.1]
    exact (buildFields_registering d _ 0 _).before fun _ => .pure _
  | unsized =>
    rw [if_neg hfits]
    exact .pure _
  | unsizable => exact hfits.elim

/-- By induction on the members. What is no method is passed over by both sides. -/
theorem buildMethods_registering (recordId : Nat) : ∀ ds : List DeclId,
    Registering ctx (classesOf ctx ((ctx.unit.methodsAmong ds).flatMap (·.function.types)))
      (buildMethods ctx recordId ds)
  | [] => .pure _
  | d :: ds => by
    have ih := buildMethods_registering recordId ds
    unfold buildMethods TranslationUnit.methodsAmong
    rw [List.filterMap_cons]
    cases (ctx.unit.node d).kind
    case method m =>
      dsimp only
      rw [classesOf, List.flatMap_cons, List.flatMap_append]
      exact Registering.bind ((buildFunction_registering d _).before fun _ => .pure _) fun _ =>
        ih.before fun _ => .pure _
    all_goals exact ih

theorem buildObjcMethods_registering : ∀ ds : List DeclId,
    Registering ctx (classesOf ctx ((ctx.unit.objcMethodsAmong ds).flatMap (·.types)))
      (buildObjcMethods ctx ds)
  | [] => .pure _
  | d :: ds => by
    have ih := buildObjcMethods_registering ds
    unfold buildObjcMethods TranslationUnit.objcMethodsAmong
    rw [List.filterMap_cons]
    dsimp only
    cases (ctx.unit.node d).kind
    case objcMethod m =>
      dsimp only
      rw [classesOf, List.flatMap_cons, List.flatMap_append, ObjcMethodNode.types, List.flatMap_cons,
        List.append_assoc]
      exact (describe_registering _).bind fun _ => (buildParams_registering _).bind fun _ =>
        ih.before fun _ => .pure _
    all_goals exact ih

theorem buildIvars_registering (ds : List DeclId) :
    Registering ctx (classesOf ctx (ctx.unit.fieldTypes ds)) (buildIvars ctx ds) := by
  rw [classesOf, TranslationUnit.fieldTypes, List.flatMap_map]
  exact .mapM fun p _ => buildField_registering _ _ _

/-- Bases are asked for their offsets and told by name, so they register nothing. -/
theorem buildParents_registering (d : DeclId) (r : RecordNode) (sizing : Sizing) :
    Registering ctx [] (buildParents ctx d r sizing) := by
  cases sizing with
  | sized layout =>
    have h : Registering ctx (r.bases.flatMap fun _ => []) (r.bases.mapM (buildParent ctx d)) :=
      .mapM fun b _ => (ask_registering _).before fun _ => .pure _
    rwa [List.flatMap_eq_nil_iff.2 fun _ _ => rfl] at h
  | unsized => exact .pure _
  | unsizable => exact .pure _

theorem buildTemplated_registering (t : TemplatedNode) :
    Registering ctx (classesOf ctx (t.type :: t.params.filterMap (·.type?)))
      (buildTemplated ctx t) := by
  rw [classesOf, List.flatMap_cons]
  exact (describe_registering _).bind fun _ => (describeArgs_registering _).before fun _ => .pure _

/-! ## Entries that may not be there -/

/-- A builder registers `cs` if it makes an entry, and nothing if it makes none. Records that are left
out, and typedefs of invalid records, are the reason for the second half. -/
def RegisteringIfMade (ctx : Context σ) (cs : List DeclId) (x : Extract σ (Option Entry)) : Prop :=
  ∀ s e? s', x s = .ok e? s' → Registers ctx.unit (e?.toList.flatMap fun _ => cs) s s'

theorem Registering.ifMade {x : Extract σ (Option Entry)} (h : Registering ctx cs x)
    (hmade : Returns (·.isSome) x) : RegisteringIfMade ctx cs x := by
  intro s e? s' hx
  obtain ⟨e, rfl⟩ := Option.isSome_iff_exists.1 (hmade s e? s' hx)
  simpa using h s _ s' hx

theorem Registering.ifMade_some {x : Extract σ Entry} (h : Registering ctx cs x) :
    RegisteringIfMade ctx cs (some <$> x) :=
  (h.map _).ifMade (.map fun _ _ _ _ => rfl)

/-- A step that registers nothing, and behind it none is made. -/
theorem Registering.none {x : Extract σ α} (h : Registering ctx [] x) :
    RegisteringIfMade ctx cs (x >>= fun _ => Pure.pure Option.none) := by
  intro s e? s' hx
  obtain ⟨a, s₁, ha, hx⟩ := bind_eq_ok.1 hx
  obtain ⟨rfl, rfl⟩ := pure_eq_ok.1 hx
  exact h s a s₁ ha

theorem dropUnnamed_registering (d : DeclId) : Registering ctx [] (dropUnnamed ctx d) := by
  intro s a s' h
  obtain ⟨_, _, hget, h⟩ := bind_eq_ok.1 h
  obtain ⟨rfl, rfl⟩ := get_eq_ok.1 hget
  split at h
  · exact count_registering _ _ _ _ h
  · exact Registering.pure _ _ _ _ h

/-- Asking for a size registers nothing, whatever the answer is. -/
theorem sizingOf_registering (d : DeclId) (r : RecordNode) :
    Registering ctx [] (sizingOf ctx d r) := by
  have hskip : Registering ctx [] (do
      markSeen ctx d
      count fun c => { c with skippedInvalid := c.skippedInvalid + 1 }
      return .unsizable : Extract σ Sizing) :=
    (markSeen_registering d).after fun _ => (count_registering _).after fun _ => .pure _
  unfold sizingOf
  split
  · exact .pure _
  · split
    · exact .pure _
    · exact hskip
    · exact hskip
    · exact .of_throw _

/-- What both kinds of record have in common. The rest of the builder is only reached with a size that
fits, and may use it. -/
theorem sizedOrLeft_registering {occasion : Occasion} {d : DeclId} {r : RecordNode}
    {build : Sizing → Extract σ (Option Entry)}
    (hbuild : ∀ sizing : Sizing, sizing.Fits ctx d r → RegisteringIfMade ctx cs (build sizing)) :
    RegisteringIfMade ctx cs
      (if occasion = .declared ∧ (ctx.unit.node d).name.isEmpty then do
        dropUnnamed ctx d
        return none
      else do
        match ← sizingOf ctx d r with
        | .unsizable => return none
        | sizing => build sizing) := by
  intro s e? s' h
  split at h
  · exact (dropUnnamed_registering d).none _ _ _ h
  · obtain ⟨sizing, s₁, hsizing, h⟩ := bind_eq_ok.1 h
    rcases sizingOf_eq_ok hsizing with ⟨rfl, _, _⟩ | ⟨hfits, rfl⟩
    · obtain ⟨rfl, rfl⟩ := pure_eq_ok.1 h
      exact sizingOf_registering d r _ _ _ hsizing
    · cases sizing with
      | unsizable => exact hfits.elim
      | sized layout => exact hbuild _ hfits _ _ _ h
      | unsized => exact hbuild _ hfits _ _ _ h

/-- A record of C registers what its fields refer to. -/
theorem buildRecord?_registering (occasion : Occasion) (d : DeclId) (r : RecordNode) :
    RegisteringIfMade ctx (classesOf ctx (ctx.unit.bodyTypes r)) (buildRecord? ctx occasion d r) := by
  refine sizedOrLeft_registering fun sizing hfits => Registering.ifMade ?_ ?_
  · exact (markSeen_registering d).after fun _ => (register_registering _).after fun _ =>
      (buildBody_registering hfits _).before fun _ => .pure _
  · exact .bind fun _ => .bind fun _ => .bind fun _ => returns_pure rfl

/-- A record of C++ registers its arguments, itself, and what its methods and fields refer to. -/
theorem buildClass?_registering (occasion : Occasion) (d : DeclId) (r : RecordNode) :
    RegisteringIfMade ctx
      (classesOf ctx (r.args.filterMap (·.type?)) ++ d :: classesOf ctx
        ((ctx.unit.methodsAmong r.members).flatMap (·.function.types) ++ ctx.unit.bodyTypes r))
      (buildClass? ctx occasion d r) := by
  intro s e? s' h
  unfold buildClass? at h
  dsimp only at h
  split at h
  · obtain ⟨rfl, rfl⟩ := pure_eq_ok.1 h
    exact .of_eq rfl
  · refine sizedOrLeft_registering (fun sizing hfits => Registering.ifMade ?_ ?_) _ _ _ h
    · rw [classesOf, classesOf, List.flatMap_append]
      exact (buildArgs?_registering _).bind fun _ => (markSeen_registering d).after fun _ =>
        (registerClass_registering (some d)).bind fun _ => (buildMethods_registering _ _).bind fun _ =>
        (buildBody_registering hfits _).before fun _ => (buildParents_registering _ _ _).after
        fun _ => .pure _
    · exact .bind fun _ => .bind fun _ => .bind fun _ => .bind fun _ => .bind fun _ =>
        .bind fun _ => returns_pure rfl

theorem buildAnyRecord?_registering (occasion : Occasion) {d : DeclId} {r : RecordNode}
    (hkind : (ctx.unit.node d).kind = .record r) (scope? : Option DeclId) :
    RegisteringIfMade ctx (ctx.unit.classesTold scope? d) (buildAnyRecord? ctx occasion d r) := by
  unfold buildAnyRecord? TranslationUnit.classesTold
  simp only [hkind]
  split
  · exact buildClass?_registering occasion d r
  · exact buildRecord?_registering occasion d r

/-- **A queued record registers the declarations of C++ that its entry tells of.** -/
theorem buildPending?_registering (d : DeclId) (scope? : Option DeclId) :
    RegisteringIfMade ctx (ctx.unit.classesTold scope? d) (buildPending? ctx d) := by
  unfold buildPending?
  split
  · next r hr => exact buildAnyRecord?_registering _ (Node.record?_eq_some.1 hr) scope?
  · exact Registering.none (.pure ())

theorem buildTypedef?_registering (d : DeclId) (t : TypeId) :
    RegisteringIfMade ctx (ctx.unit.classes t) (buildTypedef? ctx d t) := by
  unfold buildTypedef?
  split
  · exact Registering.ifMade ((describe_registering t).before fun _ => .pure _)
      (.bind fun _ => returns_pure rfl)
  · exact (count_registering _).none

theorem buildEnum_registering (d : DeclId) (enumerators : List Enumerator) :
    Registering ctx [] (buildEnum ctx d enumerators) := by
  refine (markSeen_registering d).after fun _ => ?_
  dsimp only
  split
  · exact (register_registering _).after fun _ => .pure _
  · exact Registering.after (.pure _) fun _ => .pure _

/-- **A builder registers the declarations of C++ that its entry tells of**, and nothing if there is
none. -/
theorem build?_registers {d : DeclId} {s s' : Session σ} {e? : Option Entry}
    (h : build? ctx d s = .ok e? s') :
    Registers ctx.unit (e?.toList.flatMap fun _ => ctx.unit.classesTold s.scope? d) s s' := by
  unfold build? at h
  cases hkind : (ctx.unit.node d).kind
  all_goals simp only [hkind] at h
  case record r => exact buildAnyRecord?_registering _ hkind _ _ _ _ h
  all_goals simp only [TranslationUnit.classesTold, TranslationUnit.typesTold, hkind]
  case namespaceBlock ms =>
    obtain ⟨e, hbuild, rfl⟩ := map_eq_ok.1 h
    obtain ⟨_, _, hget, hbuild⟩ := bind_eq_ok.1 hbuild
    obtain ⟨rfl, rfl⟩ := get_eq_ok.1 hget
    have hboth : Registering ctx (s.scope?.toList ++ [d]) (do
        let _ ← registerClass ctx s.scope?
        let id ← registerClass ctx (some d)
        return .namespaceBlock { name := (ctx.unit.node d).name } id : Extract σ Entry) :=
      (registerClass_registering _).bind fun _ =>
        (registerClass_registering (some d)).before fun _ => .pure _
    simpa using hboth _ _ _ hbuild
  case typedef t =>
    rw [List.flatMap_singleton]
    exact buildTypedef?_registering d t _ _ _ h
  case function f =>
    exact ((buildFunction_registering d f).map _).ifMade (.map fun _ _ _ _ => rfl) _ _ _ h
  case other label named =>
    cases named with
    | true =>
      exact Registering.ifMade ((count_registering _).after fun _ => .pure _)
        (.bind fun _ => returns_pure rfl) _ _ _ h
    | false => exact Registering.none (.pure ()) _ _ _ h
  case usingDecl => exact Registering.ifMade (.pure _) (returns_pure rfl) _ _ _ h
  case usingShadow => exact Registering.ifMade (.pure _) (returns_pure rfl) _ _ _ h
  case usingDirective => exact Registering.ifMade (.pure _) (returns_pure rfl) _ _ _ h
  -- All other builders make an entry or nothing at all.
  case var v =>
    rw [List.flatMap_singleton]
    exact ((describe_registering v.type).before fun _ => .pure _).ifMade_some _ _ _ h
  case typeAlias t =>
    rw [List.flatMap_singleton]
    exact ((describe_registering t).before fun _ => .pure _).ifMade_some _ _ _ h
  case enum es => exact (buildEnum_registering d es).ifMade_some _ _ _ h
  case aliasTemplate t =>
    exact ((buildTemplated_registering t).before fun _ => .pure _).ifMade_some _ _ _ h
  case varTemplate t =>
    exact ((buildTemplated_registering t).before fun _ => .pure _).ifMade_some _ _ _ h
  case objcInterface n =>
    rw [List.flatMap_append]
    exact ((markSeen_registering d).after fun _ => (buildIvars_registering _).bind fun _ =>
      (buildObjcMethods_registering _).before fun _ => .pure _).ifMade_some _ _ _ h
  case objcCategory n =>
    exact ((markSeen_registering d).after fun _ => (buildObjcMethods_registering _).before
      fun _ => .pure _).ifMade_some _ _ _ h
  case objcProtocol ms =>
    exact ((markSeen_registering d).after fun _ => (buildObjcMethods_registering _).before
      fun _ => .pure _).ifMade_some _ _ _ h
  all_goals exact Registering.none (.pure ()) _ _ _ h

end Extract

end ForeignDecl
