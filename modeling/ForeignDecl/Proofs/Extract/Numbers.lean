import ForeignDecl.Proofs.Extract.Origins
import ForeignDecl.Proofs.Extract.Telling

/-!
# Numbers in documents

Numbers are asked for all over a run: for references and for definitions, for scopes, and for the
scope around a namespace before its own. Every builder leaves the numbers that the registry has given,
so each number in a document is the one that the registry has for its entity at the end of the run,
and it does not matter when it was asked for (`document_numbers`).

`TranslationUnit.entities` and its relatives list, from the unit alone, what the numbers of an entry
stand for. The lemmas here say of each builder that the list and the numbers in the entry go together,
one by one. For the numbers inside types this comes from `describe` (`tells_numbers`); the others are
looked up in the builders.
-/

set_option autoImplicit false

namespace ForeignDecl

namespace Extract

variable {σ : Type} {ctx : Context σ} {s s' : Session σ}

/-! ## Describing types -/

/-- A number that was just given is that of its entity, and no entity has the number zero. -/
theorem isNumberOf_register {x? : Option DeclId} {id : Nat}
    (h : register ctx x? s = .ok id s') : IsNumberOf ctx.unit s'.registry x? id := by
  cases modifyGet_eq_ok.1 h
  cases x? with
  | none => exact .none
  | some x => exact .some (Registry.register_pos _ _ _)

theorem isNumberOf_registerClass {x? : Option DeclId} {id : Nat}
    (h : registerClass ctx x? s = .ok id s') : IsNumberOf ctx.unit s'.registry x? id := by
  cases modifyGet_eq_ok.1 h
  cases x? with
  | none => exact .none
  | some x => exact .some (Registry.registerClass_pos _ _ _)

theorem Enters.isNumberOf {d : DeclId} {id : Nat} (h : Enters ctx d id s s') :
    IsNumberOf ctx.unit s'.registry (some d) id := ⟨h.number, fun _ => h.pos⟩

/-- A reference to a record holds one number, that of the record. Queueing it afterwards does not touch
the registry. -/
theorem describeRecord_numbered {x : DeclId} {a : TypeRef} (h : describeRecord ctx x s = .ok a s') :
    Numbered ctx.unit s'.registry [some x] a.numbers := by
  -- Records of C and of C++ are registered differently; what is done with the number is the same.
  have hnumbered : ∀ (s₁ : Session σ) (id : Nat) (isUnion isClass : Bool),
      IsNumberOf ctx.unit s₁.registry (some x) id →
      let r : TypeRef := .record (ctx.unit.node x).name id isUnion isClass
      (if (ctx.unit.node x).name.isEmpty then (do
        enqueue ctx x
        pure r) else pure r : Extract σ TypeRef) s₁ = .ok a s' →
      Numbered ctx.unit s'.registry [some x] a.numbers := by
    intro s₁ id isUnion isClass hid r h
    split at h
    · obtain ⟨_, s₂, hqueue, h⟩ := bind_eq_ok.1 h
      obtain ⟨rfl, rfl⟩ := pure_eq_ok.1 h
      exact .singleton ((enqueue_eq_ok hqueue).1 ▸ hid)
    · obtain ⟨rfl, rfl⟩ := pure_eq_ok.1 h
      exact .singleton hid
  unfold describeRecord at h
  dsimp only at h
  split at h
  · obtain ⟨id, s₁, hnumber, h⟩ := bind_eq_ok.1 h
    exact hnumbered s₁ id _ _ (isNumberOf_registerClass hnumber) h
  · obtain ⟨id, s₁, hnumber, h⟩ := bind_eq_ok.1 h
    exact hnumbered s₁ id _ _ (isNumberOf_register hnumber) h

/-- Only an unnamed enumeration is given a number. -/
theorem enumNumber_eq_ok {β : Type} {x : DeclId} {f : Nat → Extract σ β} {b : β}
    (h : (do
      let id ← if (ctx.unit.node x).name.isEmpty then register ctx (some x) else pure 0
      f id : Extract σ β) s = .ok b s') :
    ∃ id s₁, IsNumberOf ctx.unit s₁.registry (ctx.unit.numberedEnum? x) id ∧
      f id s₁ = .ok b s' := by
  unfold TranslationUnit.numberedEnum?
  split at h
  · next hname =>
    obtain ⟨id, s₁, hid, h⟩ := bind_eq_ok.1 h
    exact ⟨id, s₁, if_pos hname ▸ isNumberOf_register hid, h⟩
  · next hname =>
    obtain ⟨id, s₁, hid, h⟩ := bind_eq_ok.1 h
    obtain ⟨rfl, rfl⟩ := pure_eq_ok.1 hid
    exact ⟨0, s, if_neg hname ▸ .none, h⟩

/-- A reference to an enumeration holds the number of an unnamed one and zero, the number of no entity,
for others. -/
theorem describeEnum_numbered {x : DeclId} {a : TypeRef} (h : describeEnum ctx x s = .ok a s') :
    Numbered ctx.unit s'.registry [ctx.unit.numberedEnum? x] a.numbers := by
  obtain ⟨id, s₁, hid, h⟩ := enumNumber_eq_ok h
  obtain ⟨rfl, rfl⟩ := pure_eq_ok.1 h
  exact .singleton hid

/-- What is numbered by each step of a list of builders is numbered by the whole list. -/
theorem mapM_numbered {γ α : Type} {f : γ → Extract σ α} (entities : γ → List (Option DeclId))
    (numbers : α → List Nat) (hbuilds : ∀ c, Within (Builds ctx.unit ⟨0⟩) (f c))
    (hf : ∀ c s a s', f c s = .ok a s' →
      Numbered ctx.unit s'.registry (entities c) (numbers a)) :
    ∀ {cs : List γ} {as : List α} {s s' : Session σ}, cs.mapM f s = .ok as s' →
      Numbered ctx.unit s'.registry (cs.flatMap entities) (as.flatMap numbers)
  | [], as, s, s', h => by
    rw [List.mapM_nil] at h
    obtain ⟨rfl, rfl⟩ := pure_eq_ok.1 h
    exact .nil
  | c :: cs, as, s, s', h => by
    rw [List.mapM_cons] at h
    obtain ⟨a, s₁, ha, h⟩ := bind_eq_ok.1 h
    obtain ⟨as', s₂, has, h⟩ := bind_eq_ok.1 h
    obtain ⟨rfl, rfl⟩ := pure_eq_ok.1 h
    -- Numbers that were given stay while the rest of the list is worked off.
    have hrest : Builds ctx.unit ⟨0⟩ s₁ s₂ := (Within.mapM fun c' _ => hbuilds c').of_ok has
    exact ((hf c s a s₁ ha).mono hrest.registry).append (mapM_numbered _ _ hbuilds hf has)

/-- Template arguments, with describing a type as a parameter: the recursion calls this with one layer
less. -/
theorem describeArgs_numbered_of {describe : TypeId → Extract σ TypeRef}
    {entities : TypeId → List (Option DeclId)}
    (hbuilds : ∀ d t, Within (Builds ctx.unit d) (describe t))
    (hdescribe : ∀ t s a s', describe t s = .ok a s' →
      Numbered ctx.unit s'.registry (entities t) a.numbers)
    {args : List TemplateArgument} {rs : TemplateArgs}
    (h : args.mapM (describeArgWith describe) s = .ok rs s') :
    Numbered ctx.unit s'.registry ((args.filterMap (·.type?)).flatMap entities)
      (rs.types.flatMap (·.numbers)) := by
  have hall := mapM_numbered (fun a => a.type?.toList.flatMap entities) (fun r => r.1.numbers)
    (describeArgWith_builds (hbuilds ⟨0⟩)) ?_ h
  · have hentities : args.flatMap (fun a => a.type?.toList.flatMap entities) =
        (args.filterMap (·.type?)).flatMap entities := by
      rw [List.filterMap_eq_flatMap_toList, List.flatMap_assoc]
    rw [hentities] at hall
    rw [TemplateArgs.types, List.flatMap_map]
    exact hall
  · intro a s r s' h
    cases a with
    | type t =>
      obtain ⟨a, s₁, ht, h⟩ := bind_eq_ok.1 h
      obtain ⟨rfl, rfl⟩ := pure_eq_ok.1 h
      simpa [TemplateArgument.type?] using hdescribe t s a s₁ ht
    | integral t value =>
      obtain ⟨a, s₁, ht, h⟩ := bind_eq_ok.1 h
      obtain ⟨rfl, rfl⟩ := pure_eq_ok.1 h
      simpa [TemplateArgument.type?] using hdescribe t s a s₁ ht
    | other spelling =>
      obtain ⟨rfl, rfl⟩ := pure_eq_ok.1 h
      exact .nil

/-- **The numbers in a type are those of its entities.** By induction on the fuel. The list of entities
is defined by the same recursion as the description, so both are unfolded together and the cases are the
constructors of a type. -/
theorem describeWithin_numbered :
    ∀ (fuel : Nat) (t : TypeId) (s : Session σ) (a : TypeRef) (s' : Session σ),
      describeWithin ctx fuel t s = .ok a s' →
      Numbered ctx.unit s'.registry (ctx.unit.entitiesWithin fuel t) a.numbers := by
  intro fuel
  induction fuel with
  | zero =>
    intro t s a s' h
    obtain ⟨rfl, rfl⟩ := pure_eq_ok.1 h
    exact .nil
  | succ fuel ih =>
    intro t s a s' h
    -- Most types are another one with something around it.
    have hwrap : ∀ (inner : TypeId) (f : TypeRef → TypeRef), (∀ b, (f b).numbers = b.numbers) →
        (do return f (← describeWithin ctx fuel inner) : Extract σ TypeRef) s = .ok a s' →
        Numbered ctx.unit s'.registry (ctx.unit.entitiesWithin fuel inner) a.numbers := by
      intro inner f hf h
      obtain ⟨b, s₁, hinner, h⟩ := bind_eq_ok.1 h
      obtain ⟨rfl, rfl⟩ := pure_eq_ok.1 h
      exact (hf b).symm ▸ ih inner s b s₁ hinner
    have hplain : ∀ {s₁ : Session σ} (b : TypeRef), b.numbers = [] →
        (pure b : Extract σ TypeRef) s₁ = .ok a s' → Numbered ctx.unit s'.registry [] a.numbers := by
      intro s₁ b hb h
      obtain ⟨rfl, rfl⟩ := pure_eq_ok.1 h
      exact hb.symm ▸ .nil
    unfold describeWithin at h
    unfold TranslationUnit.entitiesWithin
    cases ht : ctx.unit.type t
    all_goals
      rw [ht] at h
      dsimp only at h ⊢
    case builtin kind =>
      cases kind
      case void => exact hplain _ rfl h
      all_goals
        obtain ⟨l, s₁, hask, h⟩ := bind_eq_ok.1 h
        exact hplain _ rfl h
    case pointer target =>
      split at h
      · next hfunction =>
        rw [if_pos hfunction]
        exact hplain _ rfl h
      · next hfunction =>
        rw [if_neg hfunction]
        exact hwrap target .pointer (fun _ => rfl) h
    case lvalueReference target => exact hwrap target .reference (fun _ => rfl) h
    case rvalueReference target => exact hwrap target .reference (fun _ => rfl) h
    case array element count => exact hwrap element (.array · count) (fun _ => rfl) h
    case incompleteArray element => exact hwrap element (.array · 0) (fun _ => rfl) h
    case variableArray element => exact hwrap element (.array · 0) (fun _ => rfl) h
    case record x => exact describeRecord_numbered h
    case enum x => exact describeEnum_numbered h
    case elaborated inner => exact ih inner s a s' h
    case paren inner => exact ih inner s a s' h
    case specialization template args record? =>
      obtain ⟨id, s₁, hregister, h⟩ := bind_eq_ok.1 h
      obtain ⟨rs, s₂, hargs, h⟩ := bind_eq_ok.1 h
      obtain ⟨rfl, rfl⟩ := pure_eq_ok.1 h
      have hbuilds : Builds ctx.unit ⟨0⟩ s₁ s₂ :=
        (Within.mapM fun a _ => describeArgWith_builds (describeWithin_builds fuel) a).of_ok hargs
      rw [TypeRef.numbers, numbersOfArgs_eq]
      exact .cons ((isNumberOf_registerClass hregister).mono hbuilds.registry)
        (describeArgs_numbered_of (fun _ => describeWithin_builds fuel) ih hargs)
    case objcPointer x? =>
      cases x? with
      | some x => exact hplain _ rfl h
      | none => exact hplain _ rfl h
    -- What is left is told by its name or its kind.
    all_goals exact hplain _ rfl h

/-- The numbers that describing a type leaves in it are kept while entries are built. -/
theorem tells_numbers : TellsOf ctx fun s t ref =>
    Numbered ctx.unit s.registry (ctx.unit.entities t) ref.numbers where
  describe h := describeWithin_numbered _ _ _ _ _ h
  bitfield _ h := h
  mono hb h := h.mono hb.registry

/-- What is told by its spelling has no number, so it can be left out of the comparison. -/
theorem numbersTypes_of_toldAs {r : Registry} {ts : List TypeId} {refs : List TypeRef}
    (h : ToldAs (fun t ref => Numbered ctx.unit r (ctx.unit.entities t) ref.numbers) ts refs) :
    NumbersTypes ctx.unit r ts refs := by
  induction h with
  | nil => exact .nil
  | cons h _ ih => exact .cons (.singleton h) ih
  | spelled _ ih => exact ih

/-! ## Own numbers -/

/-- Every method has the number of its record for a scope. By induction on the members; the number is
handed down and never looked up again. -/
theorem buildMethods_scopes {recordId : Nat} :
    ∀ {ds : List DeclId} {es : List MethodEntry} {s s' : Session σ},
      buildMethods ctx recordId ds s = .ok es s' →
      es.map (·.function.info.scope) = (ctx.unit.methodsAmong ds).map fun _ => recordId := by
  intro ds
  induction ds with
  | nil =>
    intro es s s' h
    obtain ⟨rfl, rfl⟩ := pure_eq_ok.1 h
    rfl
  | cons x ds ih =>
    intro es s s' h
    unfold buildMethods at h
    unfold TranslationUnit.methodsAmong
    rw [List.filterMap_cons]
    cases hkind : (ctx.unit.node x).kind
    all_goals rw [hkind] at h
    case method m =>
      obtain ⟨e, s₁, hmethod, h⟩ := bind_eq_ok.1 h
      obtain ⟨es, s₂, hmethods, h⟩ := bind_eq_ok.1 h
      obtain ⟨rfl, rfl⟩ := pure_eq_ok.1 h
      obtain ⟨f, s₃, hfunction, h⟩ := bind_eq_ok.1 hmethod
      obtain ⟨rfl, rfl⟩ := pure_eq_ok.1 h
      exact congrArg (recordId :: ·) (ih hmethods)
    all_goals exact ih h

theorem buildObjcMethods_scopes :
    ∀ {ds : List DeclId} {es : List FunctionEntry} {s s' : Session σ},
      buildObjcMethods ctx ds s = .ok es s' →
      es.map (·.info.scope) = (ctx.unit.objcMethodsAmong ds).map fun _ => globalScope := by
  intro ds
  induction ds with
  | nil =>
    intro es s s' h
    obtain ⟨rfl, rfl⟩ := pure_eq_ok.1 h
    rfl
  | cons x ds ih =>
    intro es s s' h
    unfold buildObjcMethods at h
    dsimp only at h
    unfold TranslationUnit.objcMethodsAmong
    rw [List.filterMap_cons]
    cases hkind : (ctx.unit.node x).kind
    all_goals rw [hkind] at h
    case objcMethod m =>
      obtain ⟨result, s₁, _, h⟩ := bind_eq_ok.1 h
      obtain ⟨params, s₂, _, h⟩ := bind_eq_ok.1 h
      obtain ⟨es, s₃, hmethods, h⟩ := bind_eq_ok.1 h
      obtain ⟨rfl, rfl⟩ := pure_eq_ok.1 h
      exact congrArg (globalScope :: ·) (ih hmethods)
    all_goals exact ih h

/-- What is declared in Objective-C has no scope, so the numbers of these scopes are those of no entity.
-/
theorem buildObjcMethods_numbered {r : Registry} {ds : List DeclId} {es : List FunctionEntry}
    (h : buildObjcMethods ctx ds s = .ok es s') :
    Numbered ctx.unit r ((ctx.unit.objcMethodsAmong ds).map fun _ => none)
      (es.map (·.info.scope)) := by
  rw [buildObjcMethods_scopes h]
  exact .map_const .none

/-- A record has its own number, which its methods have for a scope. What is built after it was
registered leaves the registry's numbers as they are. -/
theorem Makes.numbered {d : DeclId} {r : RecordNode} {e : Entry}
    (hkind : (ctx.unit.node d).kind = .record r) (h : Makes ctx d r s s' e) :
    Numbered ctx.unit s'.registry (ctx.unit.ownEntities d) e.ownNumbers := by
  cases h with
  | @record _ id b s₁ hcxx fits enters body =>
    obtain ⟨hid, _⟩ := buildBody_header _ _ _ _ _ _ _ body
    have hbuilds : Builds ctx.unit d s₁ s' := (buildBody_builds _ _ _ _).of_ok body
    simp only [TranslationUnit.ownEntities, hkind, hcxx, Entry.ownNumbers, hid]
    exact .singleton (enters.isNumberOf.mono hbuilds.registry)
  | @classRecord _ id args? ms b ps s₁ s₂ s₃ s₄ hcxx fits args enters methods body parents =>
    obtain ⟨hid, _⟩ := buildBody_header _ _ _ _ _ _ _ body
    have hmethods : Builds ctx.unit d s₂ s' := ((buildMethods_builds _ _).of_ok methods).trans
      (((buildBody_builds _ _ _ _).of_ok body).trans ((buildParents_builds _ _ _).of_ok parents))
    have hnumber := enters.isNumberOf.mono hmethods.registry
    simp only [TranslationUnit.ownEntities, hkind, hcxx, if_true, Entry.ownNumbers, hid,
      buildMethods_scopes methods]
    exact .cons hnumber (Numbered.map_const hnumber)

/-- Where there is an entry of a record, it was made as `Makes` says. -/
theorem buildAnyRecord?_numbered {occasion : Occasion} {d : DeclId} {r : RecordNode} {e : Entry}
    (hkind : (ctx.unit.node d).kind = .record r)
    (h : buildAnyRecord? ctx occasion d r s = .ok (some e) s') :
    Numbered ctx.unit s'.registry (ctx.unit.ownEntities d) e.ownNumbers := by
  rcases buildAnyRecord?_eq_ok h with ⟨he, _⟩ | ⟨_, he, _, hmakes⟩
  · cases he
  · cases he
    exact hmakes.numbered hkind

theorem buildPending?_numbered {d : DeclId} {e : Entry}
    (h : buildPending? ctx d s = .ok (some e) s') :
    Numbered ctx.unit s'.registry (ctx.unit.ownEntities d) e.ownNumbers := by
  rcases buildPending?_eq_ok h with ⟨he, _⟩ | ⟨_, he, _⟩ | ⟨r, _, he, hr, _, hmakes⟩
  · cases he
  · cases he
  · cases he
    exact hmakes.numbered (Node.record?_eq_some.1 hr)

/-- A namespace has its own number; the scope around it was registered before, and its number shows only
in the stamp. -/
theorem buildNamespace_numbered {d : DeclId} {e : Entry}
    (h : buildNamespace ctx d s = .ok e s') :
    Numbered ctx.unit s'.registry [some d] e.ownNumbers := by
  obtain ⟨_, s₁, _, h⟩ := bind_eq_ok.1 h
  obtain ⟨_, s₂, _, h⟩ := bind_eq_ok.1 h
  obtain ⟨id, s₃, hid, h⟩ := bind_eq_ok.1 h
  obtain ⟨rfl, rfl⟩ := pure_eq_ok.1 h
  exact .singleton (isNumberOf_registerClass hid)

/-- An enumeration has a number if it has no name. -/
theorem buildEnum_numbered {d : DeclId} {enumerators : List Enumerator} {e : Entry}
    (h : buildEnum ctx d enumerators s = .ok e s') :
    Numbered ctx.unit s'.registry [ctx.unit.numberedEnum? d] e.ownNumbers := by
  obtain ⟨_, s₁, _, h⟩ := bind_eq_ok.1 h
  obtain ⟨id, s₂, hid, h⟩ := enumNumber_eq_ok h
  obtain ⟨rfl, rfl⟩ := pure_eq_ok.1 h
  exact .singleton hid

theorem buildInterface_numbered {d : DeclId} {n : InterfaceNode} {e : Entry}
    (h : buildInterface ctx d n s = .ok e s') :
    Numbered ctx.unit s'.registry ((ctx.unit.objcMethodsAmong n.methods).map fun _ => none)
      e.ownNumbers := by
  obtain ⟨_, s₁, _, h⟩ := bind_eq_ok.1 h
  obtain ⟨ivars, s₂, _, h⟩ := bind_eq_ok.1 h
  obtain ⟨methods, s₃, hmethods, h⟩ := bind_eq_ok.1 h
  obtain ⟨rfl, rfl⟩ := pure_eq_ok.1 h
  exact buildObjcMethods_numbered hmethods

/-- **What a builder numbers is what the entry tells of.** -/
theorem build?_numbered {d : DeclId} {e : Entry} (h : build? ctx d s = .ok (some e) s') :
    Numbered ctx.unit s'.registry (ctx.unit.ownEntities d) e.ownNumbers := by
  -- Some builders cannot fail to make an entry.
  have hentry : ∀ (x : Extract σ Entry), (some <$> x) s = .ok (some e) s' → x s = .ok e s' := by
    intro x h
    obtain ⟨a, ha, hae⟩ := map_eq_ok.1 h
    cases hae
    exact ha
  have hnone : ∀ {s₁ : Session σ} (e' : Entry),
      (pure (some e') : Extract σ (Option Entry)) s₁ = .ok (some e) s' →
      e'.ownNumbers = [] → Numbered ctx.unit s'.registry [] e.ownNumbers := by
    intro s₁ e' h hown
    cases (pure_eq_ok.1 h).1
    rw [hown]
    exact .nil
  unfold build? at h
  cases hkind : (ctx.unit.node d).kind
  all_goals simp only [hkind] at h
  case record r => exact buildAnyRecord?_numbered hkind h
  all_goals simp only [TranslationUnit.ownEntities, hkind]
  case namespaceBlock ms => exact buildNamespace_numbered (hentry _ h)
  case enum es => exact buildEnum_numbered (hentry _ h)
  case typedef t =>
    unfold buildTypedef? at h
    split at h
    · obtain ⟨a, s₁, _, h⟩ := bind_eq_ok.1 h
      exact hnone _ h rfl
    · obtain ⟨_, s₁, _, h⟩ := bind_eq_ok.1 h
      cases (pure_eq_ok.1 h).1
  case var v =>
    obtain ⟨a, s₁, _, h⟩ := bind_eq_ok.1 (hentry _ h)
    obtain ⟨rfl, rfl⟩ := pure_eq_ok.1 h
    exact .nil
  case typeAlias t =>
    obtain ⟨a, s₁, _, h⟩ := bind_eq_ok.1 (hentry _ h)
    obtain ⟨rfl, rfl⟩ := pure_eq_ok.1 h
    exact .nil
  case function f =>
    obtain ⟨b, _, he⟩ := map_eq_ok.1 h
    cases he
    exact .nil
  case aliasTemplate t =>
    obtain ⟨p, s₁, _, h⟩ := bind_eq_ok.1 (hentry _ h)
    obtain ⟨rfl, rfl⟩ := pure_eq_ok.1 h
    exact .nil
  case varTemplate t =>
    obtain ⟨p, s₁, _, h⟩ := bind_eq_ok.1 (hentry _ h)
    obtain ⟨rfl, rfl⟩ := pure_eq_ok.1 h
    exact .nil
  case objcInterface n => exact buildInterface_numbered (hentry _ h)
  case objcCategory n =>
    obtain ⟨_, s₁, _, h⟩ := bind_eq_ok.1 (hentry _ h)
    obtain ⟨methods, s₂, hmethods, h⟩ := bind_eq_ok.1 h
    obtain ⟨rfl, rfl⟩ := pure_eq_ok.1 h
    exact buildObjcMethods_numbered hmethods
  case objcProtocol ds =>
    obtain ⟨_, s₁, _, h⟩ := bind_eq_ok.1 (hentry _ h)
    obtain ⟨methods, s₂, hmethods, h⟩ := bind_eq_ok.1 h
    obtain ⟨rfl, rfl⟩ := pure_eq_ok.1 h
    exact buildObjcMethods_numbered hmethods
  case usingDecl => exact hnone _ h rfl
  case usingShadow => exact hnone _ h rfl
  case usingDirective => exact hnone _ h rfl
  case other label named =>
    cases named with
    | true =>
      obtain ⟨_, s₁, _, h⟩ := bind_eq_ok.1 h
      exact hnone _ h rfl
    | false => cases (pure_eq_ok.1 h).1
  all_goals cases (pure_eq_ok.1 h).1

/-- A stamp adds the scope's number, which is not among an entry's own. -/
@[simp]
theorem ownNumbers_stamp (scope : Nat) (location : String) (e : Entry) :
    (stamp scope location e).ownNumbers = e.ownNumbers := by
  cases e <;> rfl

namespace Origin.Gives

variable {r : Registry} {o : Origin} {e : Entry}

/-- The own number of an entry is that of its source, and so are the scopes of its methods. The entry
was built in the middle of the run and is looked at with the registry at the end, which has only grown.
-/
theorem ownNumbered (h : o.Gives ctx r e) :
    Numbered ctx.unit r (ctx.unit.ownEntities o.source) e.ownNumbers := by
  obtain ⟨occasion, scope?, d⟩ := o
  obtain ⟨s, e₀, s', build, hgrows, rfl⟩ := h.built
  rw [ownNumbers_stamp]
  cases occasion with
  | declared => exact (build?_numbered build).mono hgrows
  | referred => exact (buildPending?_numbered build).mono hgrows

/-- **The numbers in an entry are those of the entities its origin tells of**: the scope it was met in,
its own, and those its types refer to. -/
theorem numbered (h : o.Gives ctx r e) :
    Numbered ctx.unit r (ctx.unit.entitiesTold o.scope? o.source) e.numbers := by
  have hown := h.ownNumbered
  obtain ⟨occasion, scope?, d⟩ := o
  obtain ⟨s, e₀, s', build, hgrows, rfl⟩ := h.built
  have htypes : NumbersTypes ctx.unit s'.registry (ctx.unit.typesTold d) e₀.types := by
    cases occasion with
    | declared => exact numbersTypes_of_toldAs (build?_tells tells_numbers build)
    | referred => exact numbersTypes_of_toldAs (buildPending?_tells tells_numbers build)
  rw [Entry.numbers, scope_stamp, types_stamp]
  refine .cons ⟨rfl, ?_⟩ (hown.append (htypes.mono hgrows))
  intro hsome
  obtain ⟨x, rfl⟩ := Option.isSome_iff_exists.1 hsome
  exact h.registered x rfl

end Origin.Gives

/-! ## Documents -/

/-- Somewhere in the entries that were made of these origins, `id` stands for the entity `x`. -/
def StandsFor (u : TranslationUnit) (origins : List Origin) (entries : List Entry) (x : DeclId)
    (id : Nat) : Prop :=
  ∃ o e, (o, e) ∈ origins.zip entries ∧ (some x, id) ∈ (u.entitiesTold o.scope? o.source).zip e.numbers

/-- **Every number in a document is that of the entity it stands for**, as the registry has it at the
end, and two numbers are equal exactly if they stand for declarations of one entity. Many numbers are
written long before the entry of what they stand for, and some before it is even registered; that they
are right at the end rests on numbers never being changed (`Registry.Grows.number_eq`). -/
theorem document_numbers {w : DocumentWriter σ} {page : σ} (u : TranslationUnit)
    (oracle : LayoutOracle) (namespaceName? : Option String) {s' : Session (σ × List Call)}
    (h : document { unit := u, oracle, writer := w.recorded } namespaceName? { page := (page, []) } =
      .ok () s') :
    let entries := Call.entries s'.page.2
    ∃ origins, List.Forall₂
        (Origin.Gives { unit := u, oracle, writer := w.recorded } s'.registry) origins entries ∧
      List.Forall₂ (fun o e => Numbered u s'.registry (u.entitiesTold o.scope? o.source) e.numbers)
        origins entries ∧
      (∀ x id, StandsFor u origins entries x id → s'.registry.number u x = id ∧ 0 < id) ∧
      ∀ x id y id', StandsFor u origins entries x id → StandsFor u origins entries y id' →
        (id = id' ↔ u.canonical x = u.canonical y) := by
  intro entries
  obtain ⟨origins, horigins⟩ := document_origins h
  have hnumbered : List.Forall₂
      (fun o e => Numbered u s'.registry (u.entitiesTold o.scope? o.source) e.numbers)
      origins entries := horigins.imp fun _ _ hgives => hgives.numbered
  have hstands : ∀ x id, StandsFor u origins entries x id →
      IsNumberOf u s'.registry (some x) id := by
    rintro x id ⟨o, e, hzip, hid⟩
    exact List.forall₂_zip (List.forall₂_zip hnumbered hzip) hid
  refine ⟨origins, horigins, hnumbered, fun x id hid => ?_, fun x id y id' hid hid' => ?_⟩
  · exact ⟨(hstands x id hid).eq, (hstands x id hid).pos rfl⟩
  · exact (hstands x id hid).eq_iff (hstands y id' hid')

/-- A record that is referred to before it is defined, an enumeration without a name, and a
specialization that is only named. -/
def referring : TranslationUnit where
  file := "a.h"
  types := #[.builtin .int, .record ⟨2⟩, .pointer ⟨1⟩, .enum ⟨0⟩,
    .specialization "T" [.type ⟨1⟩] (some ⟨7⟩)]
  nodes := #[{ kind := .enum [] },
    { name := "N", kind := .namespaceBlock [⟨2⟩, ⟨3⟩, ⟨4⟩] },
    { name := "S", kind := .record { isComplete := false, class? := some {} } },
    { name := "p", kind := .var { type := ⟨2⟩ } },
    { name := "S", canonical? := some ⟨2⟩
      kind := .record { members := [⟨5⟩, ⟨6⟩], class? := some {} } },
    { name := "f", kind := .field { type := ⟨0⟩ } },
    { name := "m", kind := .method { function := { result := ⟨3⟩, params := [⟨"t", ⟨4⟩⟩] } } },
    { name := "T", kind := .record { isComplete := false, class? := some {} } }]
  topLevel := #[⟨0⟩, ⟨1⟩]

theorem document_numbers_referring :
    let ctx : Context (Unit × List Call) :=
      { unit := referring, oracle := Layout.natural referring (Target.lp64 "")
        writer := DocumentWriter.silent.recorded }
    let s' := after (document ctx none) { page := ((), []) }
    let entries := Call.entries s'.page.2
    document ctx none { page := ((), []) } = .ok () s' ∧
      entries.map Entry.numbers = [[0, 1], [0, 2], [2, 3], [2, 3, 3, 1, 4, 3]] ∧
      ∃ origins, List.Forall₂ (Origin.Gives ctx s'.registry) origins entries ∧
        List.Forall₂ (fun o e =>
          Numbered referring s'.registry (referring.entitiesTold o.scope? o.source) e.numbers)
          origins entries ∧
        (∀ x id, StandsFor referring origins entries x id →
          s'.registry.number referring x = id ∧ 0 < id) ∧
        ∀ x id y id', StandsFor referring origins entries x id →
          StandsFor referring origins entries y id' →
          (id = id' ↔ referring.canonical x = referring.canonical y) := by
  intro ctx s' entries
  have hs' : document ctx none { page := ((), []) } = .ok () s' :=
    ok_after_of_succeeds (by decide +kernel)
  exact ⟨hs', by decide +kernel, document_numbers referring ctx.oracle none hs'⟩

end Extract

end ForeignDecl
