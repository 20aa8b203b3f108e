import ForeignDecl.Proofs.Extract.Entities

/-!
# What entries tell of types

A builder describes the types of its declaration in the order in which `TranslationUnit.typesTold` lists
them, and puts what it is told into the entry. So whatever holds of one type that is described, and goes
on to hold while the builder does, holds of all types of an entry (`build?_tells`): it is proved for
`describe`, and no builder is looked into again.

The modules about numbers, about sugar and about sizes in types each define such a relation and get
their theorem about entries from here.
-/

set_option autoImplicit false

namespace ForeignDecl

/-! ## Types and what is told of them -/

/-- `refs` is what is told of the types `ts`, each of them as `P` says. A template argument that is no
type is told by its spelling, so the second list can be longer than the first, which is why this is not
`List.Forall₂`. -/
inductive ToldAs (P : TypeId → TypeRef → Prop) : List TypeId → List TypeRef → Prop where
  | nil : ToldAs P [] []
  | cons {t : TypeId} {ref : TypeRef} {ts : List TypeId} {refs : List TypeRef} (h : P t ref)
    (rest : ToldAs P ts refs) : ToldAs P (t :: ts) (ref :: refs)
  | spelled {name : String} {ts : List TypeId} {refs : List TypeRef} (rest : ToldAs P ts refs) :
    ToldAs P ts (.simple name :: refs)

namespace ToldAs

variable {P Q : TypeId → TypeRef → Prop} {t : TypeId} {ref : TypeRef} {ts ts' : List TypeId}
  {refs refs' : List TypeRef}

theorem single (h : P t ref) : ToldAs P [t] [ref] := .cons h .nil

theorem append (h : ToldAs P ts refs) (h' : ToldAs P ts' refs') :
    ToldAs P (ts ++ ts') (refs ++ refs') := by
  induction h with
  | nil => exact h'
  | cons h _ ih => exact .cons h ih
  | spelled _ ih => exact .spelled ih

/-- The relation may be weakened at every type. -/
theorem imp (h : ToldAs P ts refs) (hPQ : ∀ t ref, P t ref → Q t ref) : ToldAs Q ts refs := by
  induction h with
  | nil => exact .nil
  | cons h _ ih => exact .cons (hPQ _ _ h) ih
  | spelled _ ih => exact .spelled ih

/-- What is told is a spelling, or it is told of one of the types. -/
theorem exists_type (h : ToldAs P ts refs) :
    ∀ ref ∈ refs, (∃ name, ref = .simple name) ∨ ∃ t ∈ ts, P t ref := by
  induction h with
  | nil => simp
  | @cons t ref ts refs h _ ih =>
    refine List.forall_mem_cons.2 ⟨.inr ⟨t, by simp, h⟩, fun ref' href' => ?_⟩
    exact (ih ref' href').imp_right fun ⟨t', ht', h'⟩ => ⟨t', by simp [ht'], h'⟩
  | @spelled name ts refs _ ih => exact List.forall_mem_cons.2 ⟨.inl ⟨name, rfl⟩, ih⟩

end ToldAs

namespace Extract

variable {σ : Type} {ctx : Context σ} {s s' : Session σ}

/-- What `R` says of a type and its description holds when the type was described, of bitfields too, and
goes on to hold while entries are built. The session is a parameter of `R` because numbers mean
something only together with a registry; `mono` says that it may be a later one. -/
structure TellsOf (ctx : Context σ) (R : Session σ → TypeId → TypeRef → Prop) : Prop where
  describe : ∀ {t : TypeId} {s : Session σ} {ref : TypeRef} {s' : Session σ},
    describe ctx t s = .ok ref s' → R s' t ref
  bitfield : ∀ {t : TypeId} {s : Session σ} {ref : TypeRef} (width : Nat),
    R s t ref → R s t (.bitfield ref width)
  mono : ∀ {d : DeclId} {s s' : Session σ} {t : TypeId} {ref : TypeRef},
    Builds ctx.unit d s s' → R s t ref → R s' t ref

section Builders

variable {R : Session σ → TypeId → TypeRef → Prop} (hR : TellsOf ctx R)

include hR

/-- What was told earlier in a builder still holds at its end. -/
theorem TellsOf.all_mono {d : DeclId} {ts : List TypeId} {refs : List TypeRef}
    (h : ToldAs (R s) ts refs) (hb : Builds ctx.unit d s s') : ToldAs (R s') ts refs :=
  h.imp fun _ _ => hR.mono hb

/-- What is told by each step of a list of builders is told by the whole list. -/
theorem mapM_tells {γ α : Type} {f : γ → Extract σ α} (types : γ → List TypeId)
    (refs : α → List TypeRef) (hbuilds : ∀ c, Within (Builds ctx.unit ⟨0⟩) (f c))
    (hf : ∀ c s a s', f c s = .ok a s' → ToldAs (R s') (types c) (refs a)) :
    ∀ {cs : List γ} {as : List α} {s s' : Session σ}, cs.mapM f s = .ok as s' →
      ToldAs (R s') (cs.flatMap types) (as.flatMap refs)
  | [], as, s, s', h => by
    rw [List.mapM_nil] at h
    obtain ⟨rfl, rfl⟩ := pure_eq_ok.1 h
    exact .nil
  | c :: cs, as, s, s', h => by
    rw [List.mapM_cons] at h
    obtain ⟨a, s₁, ha, h⟩ := bind_eq_ok.1 h
    obtain ⟨as', s₂, has, h⟩ := bind_eq_ok.1 h
    obtain ⟨rfl, rfl⟩ := pure_eq_ok.1 h
    -- Describing builds for any declaration, so which one is named here does not matter.
    have hrest : Builds ctx.unit ⟨0⟩ s₁ s₂ := (Within.mapM fun c' _ => hbuilds c').of_ok has
    exact (hR.all_mono (hf c s a s₁ ha) hrest).append (mapM_tells types refs hbuilds hf has)

/-- Template arguments tell the types among them. -/
theorem describeArgs_tells {args : List TemplateArgument} {rs : TemplateArgs}
    (h : describeArgs ctx args s = .ok rs s') :
    ToldAs (R s') (args.filterMap (·.type?)) rs.types := by
  have hall := mapM_tells hR (fun a => a.type?.toList) (fun r => [r.1])
    (describeArgWith_builds describe_builds) ?_ h
  · rw [List.filterMap_eq_flatMap_toList, TemplateArgs.types, List.map_eq_flatMap]
    exact hall
  · intro a s r s' h
    cases a with
    | type t =>
      obtain ⟨ref, s₁, ht, h⟩ := bind_eq_ok.1 h
      obtain ⟨rfl, rfl⟩ := pure_eq_ok.1 h
      exact .single (hR.describe ht)
    | integral t value =>
      obtain ⟨ref, s₁, ht, h⟩ := bind_eq_ok.1 h
      obtain ⟨rfl, rfl⟩ := pure_eq_ok.1 h
      exact .single (hR.describe ht)
    | other spelling =>
      obtain ⟨rfl, rfl⟩ := pure_eq_ok.1 h
      exact .spelled .nil

theorem buildParams_tells {params : List NodeParam} {ps : List ParamEntry}
    (h : buildParams ctx params s = .ok ps s') :
    ToldAs (R s') (params.map (·.type)) (ps.map (·.type)) := by
  rw [List.map_eq_flatMap, List.map_eq_flatMap]
  refine mapM_tells hR _ _ (fun p => .bind (describe_builds _) fun _ => within_pure _) ?_ h
  intro p s a s' h
  obtain ⟨t, s₁, ht, h⟩ := bind_eq_ok.1 h
  obtain ⟨rfl, rfl⟩ := pure_eq_ok.1 h
  exact .single (hR.describe ht)

theorem buildArgs?_tells {args? : Option (List TemplateArgument)} {rs? : Option TemplateArgs}
    (h : buildArgs? ctx args? s = .ok rs? s') :
    ToldAs (R s') ((args?.getD []).filterMap (·.type?)) (rs?.getD []).types := by
  cases args? with
  | none =>
    obtain ⟨rfl, rfl⟩ := pure_eq_ok.1 h
    exact .nil
  | some args =>
    obtain ⟨rs, s₁, hargs, h⟩ := bind_eq_ok.1 h
    obtain ⟨rfl, rfl⟩ := pure_eq_ok.1 h
    exact describeArgs_tells hR hargs

/-- A function tells its result, its parameters and its template arguments, in this order, which is the
order of `FunctionNode.types`. -/
theorem buildFunction_tells {x : DeclId} {f : FunctionNode} {e : FunctionEntry}
    (h : buildFunction ctx x f s = .ok e s') : ToldAs (R s') f.types e.types := by
  obtain ⟨_, s₁, _, h⟩ := bind_eq_ok.1 h
  obtain ⟨result, s₂, hresult, h⟩ := bind_eq_ok.1 h
  obtain ⟨params, s₃, hparams, h⟩ := bind_eq_ok.1 h
  obtain ⟨args?, s₄, hargs, h⟩ := bind_eq_ok.1 h
  obtain ⟨rfl, rfl⟩ := pure_eq_ok.1 h
  have hbuilds : Builds ctx.unit x s₂ s₃ := (buildParams_builds _).of_ok hparams
  have hbuilds' : Builds ctx.unit x s₃ s₄ := (buildArgs?_builds _).of_ok hargs
  refine .cons (hR.mono (hbuilds.trans hbuilds') (hR.describe hresult)) ?_
  exact (hR.all_mono (buildParams_tells hR hparams) hbuilds').append (buildArgs?_tells hR hargs)

/-- A field tells its type, or a bitfield of it. The layout of the type is asked for before and leaves
nothing behind. -/
theorem buildField_tells {x : DeclId} {f : FieldNode} {offset : Nat} {e : FieldEntry}
    (h : buildField ctx x f offset s = .ok e s') : R s' f.type e.type := by
  obtain ⟨layout, s₁, _, h⟩ := bind_eq_ok.1 h
  obtain ⟨type, s₂, htype, h⟩ := bind_eq_ok.1 h
  obtain ⟨rfl, rfl⟩ := pure_eq_ok.1 h
  obtain ⟨base, s₃, hbase, h⟩ := bind_eq_ok.1 htype
  cases hwidth : f.width? with
  | some width =>
    rw [hwidth] at h
    obtain ⟨rfl, rfl⟩ := pure_eq_ok.1 h
    exact hR.bitfield width (hR.describe hbase)
  | none =>
    rw [hwidth] at h
    obtain ⟨rfl, rfl⟩ := pure_eq_ok.1 h
    exact hR.describe hbase

/-- By induction on the fields, as far as there are offsets for them. -/
theorem buildFields_tells {record : DeclId} :
    ∀ {fields : List (DeclId × FieldNode)} {index : Nat} {offsets : List Nat}
      {es : List FieldEntry} {s s' : Session σ},
      buildFields ctx record index offsets fields s = .ok es s' →
      ToldAs (R s') (fields.map (·.2.type)) (es.map (·.type)) := by
  intro fields
  induction fields with
  | nil =>
    intro index offsets es s s' h
    unfold buildFields at h
    obtain ⟨rfl, rfl⟩ := pure_eq_ok.1 h
    exact .nil
  | cons field fields ih =>
    obtain ⟨x, f⟩ := field
    intro index offsets es s s' h
    cases offsets with
    | nil => exact absurd h throw_ne_ok
    | cons offset offsets =>
      obtain ⟨e, s₁, hfield, h⟩ := bind_eq_ok.1 h
      obtain ⟨es, s₂, hfields, h⟩ := bind_eq_ok.1 h
      obtain ⟨rfl, rfl⟩ := pure_eq_ok.1 h
      have hbuilds : Builds ctx.unit record s₁ s₂ := (buildFields_builds _ _ _ _).of_ok hfields
      exact .cons (hR.mono hbuilds (buildField_tells hR hfield)) (ih hfields)

/-- A record tells its fields if it has a layout and nothing if it has none. `hfits` ties what is known
of its size to the declaration, which decides whether `bodyTypes` lists the fields. -/
theorem buildBody_tells {x : DeclId} {r : RecordNode} {id : Nat} {sizing : Sizing}
    {e : RecordEntry} (hfits : sizing.Fits ctx x r) (h : buildBody ctx x r id sizing s = .ok e s') :
    ToldAs (R s') (ctx.unit.bodyTypes r) e.types := by
  unfold TranslationUnit.bodyTypes
  cases sizing with
  | sized layout =>
    rw [if_pos hfits.1]
    obtain ⟨fields, s₁, hfields, h⟩ := bind_eq_ok.1 h
    obtain ⟨rfl, rfl⟩ := pure_eq_ok.1 h
    exact buildFields_tells hR hfields
  | unsized =>
    rw [if_neg hfits]
    obtain ⟨rfl, rfl⟩ := pure_eq_ok.1 h
    exact .nil
  | unsizable => exact hfits.elim

/-- By induction on the members; those that are no methods tell nothing. -/
theorem buildMethods_tells {recordId : Nat} :
    ∀ {ds : List DeclId} {es : List MethodEntry} {s s' : Session σ},
      buildMethods ctx recordId ds s = .ok es s' →
      ToldAs (R s') ((ctx.unit.methodsAmong ds).flatMap (·.function.types))
        (es.flatMap (·.function.types)) := by
  intro ds
  induction ds with
  | nil =>
    intro es s s' h
    obtain ⟨rfl, rfl⟩ := pure_eq_ok.1 h
    exact .nil
  | cons x ds ih =>
    intro es s s' h
    unfold buildMethods at h
    unfold TranslationUnit.methodsAmong
    rw [List.filterMap_cons]
    cases hkind : (ctx.unit.node x).kind
    all_goals rw [hkind] at h
    case method m =>
      obtain ⟨e, s₁, hmethod, h⟩ := bind_eq_ok.1 h
      obtain ⟨es, s₂, hmethods, h⟩ := bind_eq_ok.1 h
      obtain ⟨rfl, rfl⟩ := pure_eq_ok.1 h
      obtain ⟨f, s₃, hfunction, h⟩ := bind_eq_ok.1 hmethod
      obtain ⟨rfl, rfl⟩ := pure_eq_ok.1 h
      have hbuilds : Builds ctx.unit x s₃ s₂ := (buildMethods_builds _ _).of_ok hmethods
      exact (hR.all_mono (buildFunction_tells hR hfunction) hbuilds).append (ih hmethods)
    all_goals exact ih h

theorem buildObjcMethods_tells :
    ∀ {ds : List DeclId} {es : List FunctionEntry} {s s' : Session σ},
      buildObjcMethods ctx ds s = .ok es s' →
      ToldAs (R s') ((ctx.unit.objcMethodsAmong ds).flatMap (·.types)) (es.flatMap (·.types)) := by
  intro ds
  induction ds with
  | nil =>
    intro es s s' h
    obtain ⟨rfl, rfl⟩ := pure_eq_ok.1 h
    exact .nil
  | cons x ds ih =>
    intro es s s' h
    unfold buildObjcMethods at h
    dsimp only at h
    unfold TranslationUnit.objcMethodsAmong
    rw [List.filterMap_cons]
    cases hkind : (ctx.unit.node x).kind
    all_goals rw [hkind] at h
    case objcMethod m =>
      obtain ⟨result, s₁, hresult, h⟩ := bind_eq_ok.1 h
      obtain ⟨params, s₂, hparams, h⟩ := bind_eq_ok.1 h
      obtain ⟨es, s₃, hmethods, h⟩ := bind_eq_ok.1 h
      obtain ⟨rfl, rfl⟩ := pure_eq_ok.1 h
      have hbuilds : Builds ctx.unit x s₁ s₂ := (buildParams_builds _).of_ok hparams
      have hbuilds' : Builds ctx.unit x s₂ s₃ := (buildObjcMethods_builds _).of_ok hmethods
      have hparams' := hR.all_mono (buildParams_tells hR hparams) hbuilds'
      -- A method of Objective-C has no template arguments.
      have hmethod : ToldAs (R s₃) m.types (result :: (params.map (·.type) ++ [])) :=
        .cons (hR.mono (hbuilds.trans hbuilds') (hR.describe hresult))
          (by rw [List.append_nil]; exact hparams')
      exact hmethod.append (ih hmethods)
    all_goals exact ih h

theorem buildIvars_tells {ds : List DeclId} {es : List FieldEntry}
    (h : buildIvars ctx ds s = .ok es s') :
    ToldAs (R s') (ctx.unit.fieldTypes ds) (es.map (·.type)) := by
  unfold TranslationUnit.fieldTypes
  rw [List.map_eq_flatMap, List.map_eq_flatMap]
  refine mapM_tells hR _ _ (fun p => buildField_builds _ _ _) ?_ h
  exact fun p s a s' h => .single (buildField_tells hR h)

theorem buildTemplated_tells {t : TemplatedNode} {p : TypeRef × TemplateArgs}
    (h : buildTemplated ctx t s = .ok p s') :
    ToldAs (R s') (t.type :: t.params.filterMap (·.type?)) (p.1 :: p.2.types) := by
  obtain ⟨type, s₁, htype, h⟩ := bind_eq_ok.1 h
  obtain ⟨args, s₂, hargs, h⟩ := bind_eq_ok.1 h
  obtain ⟨rfl, rfl⟩ := pure_eq_ok.1 h
  have hbuilds : Builds ctx.unit ⟨0⟩ s₁ s₂ := (describeArgs_builds _).of_ok hargs
  exact .cons (hR.mono hbuilds (hR.describe htype)) (describeArgs_tells hR hargs)

/-! ## Entries -/

/-- A record tells its fields, its methods and its template arguments. The entry lists them in this
order although the arguments are described first, so each part is carried on to the end of the builder
by itself. -/
theorem Makes.tells {d : DeclId} {r : RecordNode} {e : Entry}
    (hkind : (ctx.unit.node d).kind = .record r) (h : Makes ctx d r s s' e) :
    ToldAs (R s') (ctx.unit.typesTold d) e.types := by
  cases h with
  | record hcxx fits enters body =>
    simp only [TranslationUnit.typesTold, hkind, hcxx]
    exact buildBody_tells hR fits body
  | classRecord hcxx fits args enters methods body parents =>
    have hparents : Builds ctx.unit d _ s' := (buildParents_builds _ _ _).of_ok parents
    have hbody : Builds ctx.unit d _ s' := ((buildBody_builds _ _ _ _).of_ok body).trans hparents
    have hmethods : Builds ctx.unit d _ s' := ((buildMethods_builds _ _).of_ok methods).trans hbody
    simp only [TranslationUnit.typesTold, hkind, hcxx, if_true]
    exact (hR.all_mono (buildBody_tells hR fits body) hparents).append
      ((hR.all_mono (buildMethods_tells hR methods) hbody).append
        (hR.all_mono (buildArgs?_tells hR args) (enters.builds.trans hmethods)))

theorem buildAnyRecord?_tells {occasion : Occasion} {d : DeclId} {r : RecordNode} {e : Entry}
    (hkind : (ctx.unit.node d).kind = .record r)
    (h : buildAnyRecord? ctx occasion d r s = .ok (some e) s') :
    ToldAs (R s') (ctx.unit.typesTold d) e.types := by
  rcases buildAnyRecord?_eq_ok h with ⟨he, _⟩ | ⟨_, he, _, hmakes⟩
  · cases he
  · cases he
    exact hmakes.tells hR hkind

/-- **What is told of the types of a queued record is what `describe` tells.** -/
theorem buildPending?_tells {d : DeclId} {e : Entry}
    (h : buildPending? ctx d s = .ok (some e) s') :
    ToldAs (R s') (ctx.unit.typesTold d) e.types := by
  rcases buildPending?_eq_ok h with ⟨he, _⟩ | ⟨_, he, _⟩ | ⟨r, _, he, hr, _, hmakes⟩
  · cases he
  · cases he
  · cases he
    exact hmakes.tells hR (Node.record?_eq_some.1 hr)

theorem buildTypedef?_tells {d : DeclId} {t : TypeId} {e : Entry}
    (h : buildTypedef? ctx d t s = .ok (some e) s') : ToldAs (R s') [t] e.types := by
  unfold buildTypedef? at h
  split at h
  · obtain ⟨a, s₁, ha, h⟩ := bind_eq_ok.1 h
    obtain ⟨he, rfl⟩ := pure_eq_ok.1 h
    cases he
    exact .single (hR.describe ha)
  · obtain ⟨_, s₁, _, h⟩ := bind_eq_ok.1 h
    cases (pure_eq_ok.1 h).1

theorem buildInterface_tells {d : DeclId} {n : InterfaceNode} {e : Entry}
    (h : buildInterface ctx d n s = .ok e s') :
    ToldAs (R s') (ctx.unit.fieldTypes n.ivars ++
      (ctx.unit.objcMethodsAmong n.methods).flatMap (·.types)) e.types := by
  obtain ⟨_, s₁, _, h⟩ := bind_eq_ok.1 h
  obtain ⟨ivars, s₂, hivars, h⟩ := bind_eq_ok.1 h
  obtain ⟨methods, s₃, hmethods, h⟩ := bind_eq_ok.1 h
  obtain ⟨rfl, rfl⟩ := pure_eq_ok.1 h
  have hbuilds : Builds ctx.unit d s₂ s₃ := (buildObjcMethods_builds _).of_ok hmethods
  exact (hR.all_mono (buildIvars_tells hR hivars) hbuilds).append (buildObjcMethods_tells hR hmethods)

omit hR in
/-- An entry that is built without describing a type tells of none. -/
theorem types_of_pure {e' e : Entry}
    (h : (pure (some e') : Extract σ (Option Entry)) s = .ok (some e) s') : e.types = e'.types := by
  cases (pure_eq_ok.1 h).1
  rfl

omit hR in
theorem buildNamespace_types {d : DeclId} {e : Entry} (h : buildNamespace ctx d s = .ok e s') :
    e.types = [] := by
  obtain ⟨_, s₁, _, h⟩ := bind_eq_ok.1 h
  obtain ⟨_, s₂, _, h⟩ := bind_eq_ok.1 h
  obtain ⟨_, s₃, _, h⟩ := bind_eq_ok.1 h
  obtain ⟨rfl, rfl⟩ := pure_eq_ok.1 h
  rfl

omit hR in
theorem buildEnum_types {d : DeclId} {es : List Enumerator} {e : Entry}
    (h : buildEnum ctx d es s = .ok e s') : e.types = [] := by
  obtain ⟨_, s₁, _, h⟩ := bind_eq_ok.1 h
  obtain ⟨_, s₂, h⟩ : ∃ id s₂, (pure (.enum _ id es) : Extract σ Entry) s₂ = .ok e s' := by
    dsimp only at h
    split at h
    · obtain ⟨id, s₂, _, h⟩ := bind_eq_ok.1 h
      exact ⟨id, s₂, h⟩
    · obtain ⟨id, s₂, _, h⟩ := bind_eq_ok.1 h
      exact ⟨id, s₂, h⟩
  obtain ⟨rfl, rfl⟩ := pure_eq_ok.1 h
  rfl

/-- **What is told of the types of an entry is what `describe` tells.** -/
theorem build?_tells {d : DeclId} {e : Entry} (h : build? ctx d s = .ok (some e) s') :
    ToldAs (R s') (ctx.unit.typesTold d) e.types := by
  -- Some builders cannot fail to make an entry.
  have hentry : ∀ (x : Extract σ Entry), (some <$> x) s = .ok (some e) s' → x s = .ok e s' := by
    intro x h
    obtain ⟨a, ha, hae⟩ := map_eq_ok.1 h
    cases hae
    exact ha
  unfold build? at h
  unfold TranslationUnit.typesTold
  cases hkind : (ctx.unit.node d).kind
  all_goals simp only [hkind] at h
  case record r =>
    have htold := buildAnyRecord?_tells hR hkind h
    simpa only [TranslationUnit.typesTold, hkind] using htold
  case typedef t => exact buildTypedef?_tells hR h
  case var v =>
    obtain ⟨a, s₁, ha, h⟩ := bind_eq_ok.1 (hentry _ h)
    obtain ⟨rfl, rfl⟩ := pure_eq_ok.1 h
    exact .single (hR.describe ha)
  case typeAlias t =>
    obtain ⟨a, s₁, ha, h⟩ := bind_eq_ok.1 (hentry _ h)
    obtain ⟨rfl, rfl⟩ := pure_eq_ok.1 h
    exact .single (hR.describe ha)
  case function f =>
    obtain ⟨b, hb, he⟩ := map_eq_ok.1 h
    cases he
    exact buildFunction_tells hR hb
  case aliasTemplate t =>
    obtain ⟨p, s₁, hp, h⟩ := bind_eq_ok.1 (hentry _ h)
    obtain ⟨rfl, rfl⟩ := pure_eq_ok.1 h
    exact buildTemplated_tells hR hp
  case varTemplate t =>
    obtain ⟨p, s₁, hp, h⟩ := bind_eq_ok.1 (hentry _ h)
    obtain ⟨rfl, rfl⟩ := pure_eq_ok.1 h
    exact buildTemplated_tells hR hp
  case objcInterface n => exact buildInterface_tells hR (hentry _ h)
  case objcCategory n =>
    obtain ⟨_, s₁, _, h⟩ := bind_eq_ok.1 (hentry _ h)
    obtain ⟨methods, s₂, hmethods, h⟩ := bind_eq_ok.1 h
    obtain ⟨rfl, rfl⟩ := pure_eq_ok.1 h
    exact buildObjcMethods_tells hR hmethods
  case objcProtocol ds =>
    obtain ⟨_, s₁, _, h⟩ := bind_eq_ok.1 (hentry _ h)
    obtain ⟨methods, s₂, hmethods, h⟩ := bind_eq_ok.1 h
    obtain ⟨rfl, rfl⟩ := pure_eq_ok.1 h
    exact buildObjcMethods_tells hR hmethods
  case namespaceBlock ds => exact buildNamespace_types (hentry _ h) ▸ .nil
  case enum es => exact buildEnum_types (hentry _ h) ▸ .nil
  case other label named =>
    cases named with
    | true =>
      obtain ⟨_, s₁, _, h⟩ := bind_eq_ok.1 h
      exact types_of_pure h ▸ .nil
    | false => cases (pure_eq_ok.1 h).1
  case usingDecl => exact types_of_pure h ▸ .nil
  case usingShadow => exact types_of_pure h ▸ .nil
  case usingDirective => exact types_of_pure h ▸ .nil
  all_goals cases (pure_eq_ok.1 h).1

end Builders

end Extract

end ForeignDecl
