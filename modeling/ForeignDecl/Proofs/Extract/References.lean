import ForeignDecl.Proofs.Extract.Records

/-!
# References to unnamed records

A type of an entry may refer to unnamed records, at any depth. Each of these references is the number
of an unnamed record that was seen, or is queued to be written: this is what describing a type leaves
behind (`describe_covers`).

It is the invariant from which the order of a document comes. When the queue has been written, everything
that was queued was seen, and so everything that the entry refers to was told before it
(`Proofs/Extract/Unnamed.lean`).
-/

set_option autoImplicit false

namespace ForeignDecl

/-! ## References in types and entries -/

mutual

/-- The numbers of the unnamed records that a type refers to, at any depth. -/
def TypeRef.unnamedRecords : TypeRef → List Nat
  | .simple _ | .basic _ _ _ | .enum _ _ => []
  | .bitfield base _ => base.unnamedRecords
  | .pointer target | .reference target => target.unnamedRecords
  | .array element _ => element.unnamedRecords
  | .record name id _ _ => if name.isEmpty then [id] else []
  | .template _ _ args => unnamedRecordsOfArgs args

/-- The same for template arguments. -/
def unnamedRecordsOfArgs : TemplateArgs → List Nat
  | [] => []
  | (type, _) :: args => type.unnamedRecords ++ unnamedRecordsOfArgs args

end

/-- Of several arguments, one refers to the record. -/
theorem mem_unnamedRecordsOfArgs {args : TemplateArgs} {id : Nat} :
    id ∈ unnamedRecordsOfArgs args ↔ ∃ a ∈ args, id ∈ a.1.unnamedRecords := by
  induction args with
  | nil => simp [unnamedRecordsOfArgs]
  | cons a args ih =>
    obtain ⟨type, value?⟩ := a
    simp [unnamedRecordsOfArgs, ih]

/-- The types in template arguments. -/
def TemplateArgs.types (args : TemplateArgs) : List TypeRef := args.map Prod.fst

/-- The types of the result, the parameters and the template arguments of a function. -/
def FunctionEntry.types (f : FunctionEntry) : List TypeRef :=
  f.result :: (f.params.map (·.type) ++ (f.templateArgs?.getD []).types)

/-- The types of the fields of a record. -/
def RecordEntry.types (r : RecordEntry) : List TypeRef := r.fields.map (·.type)

/-- The types of the fields, the methods and the template arguments of a record. -/
def ClassEntry.types (c : ClassEntry) : List TypeRef :=
  c.record.types ++ (c.methods.flatMap (·.function.types) ++ (c.templateArgs?.getD []).types)

/-- All types that an entry tells, in the order of the parts of its declaration. Several modules speak
of what is inside these types, each with a function of its own on `TypeRef`. -/
def Entry.types : Entry → List TypeRef
  | .var _ type _ _ _ | .typedef _ type | .typeAlias _ type => [type]
  | .function f => f.types
  | .method m => m.function.types
  | .record r => r.types
  | .classRecord c => c.types
  | .aliasTemplate _ type args | .varTemplate _ type args => type :: args.types
  | .objcInterface o => o.ivars.map (·.type) ++ o.methods.flatMap (·.types)
  | .objcCategory _ _ methods | .objcProtocol _ methods => methods.flatMap (·.types)
  | .unhandled _ _ | .enum _ _ _ | .namespaceBlock _ _ | .usingDecl _ | .usingShadow _
  | .usingDirective _ => []

/-- The numbers of the unnamed records that an entry refers to. -/
def Entry.unnamedRecords (e : Entry) : List Nat := e.types.flatMap (·.unnamedRecords)

/-! ## What describing leaves behind -/

variable {σ : Type} {u : TranslationUnit} {d : DeclId} {s s' : Session σ}

/-- The number `id` was given to an unnamed record that was seen or is queued. A reference to one that
was seen is settled already; one that is queued will be. -/
def IsKnown (u : TranslationUnit) (s : Session σ) (id : Nat) : Prop :=
  0 < id ∧ ∃ x, u.IsUnnamedRecord x ∧ s.registry.number u x = id ∧
    (u.canonical x ∈ s.seen ∨ u.canonical x ∈ s.pending)

/-- Every reference to an unnamed record in these types is known. It is what a builder has to leave
behind for the types it describes, and why a record can be written before what refers to it: the queue
is emptied before the entry is. -/
def Covers (u : TranslationUnit) (s : Session σ) (ts : List TypeRef) : Prop :=
  ∀ t ∈ ts, ∀ id ∈ t.unnamedRecords, IsKnown u s id

/-- Builders give no number twice, and neither marks nor the queue lose anything, so what is known stays
known. -/
theorem IsKnown.mono {id : Nat} (h : IsKnown u s id) (hb : Builds u d s s') : IsKnown u s' id := by
  obtain ⟨hpos, x, hx, rfl, hknown⟩ := h
  refine ⟨hpos, x, hx, hb.registry.number_eq hpos, ?_⟩
  exact hknown.imp (hb.seen _) (hb.pending _)

theorem Covers.mono {ts : List TypeRef} (h : Covers u s ts) (hb : Builds u d s s') :
    Covers u s' ts := fun t ht id hid => (h t ht id hid).mono hb

theorem covers_of_unnamedRecords {t : TypeRef} (h : ∀ id ∈ t.unnamedRecords, IsKnown u s id) :
    Covers u s [t] := by
  intro t' ht'
  obtain rfl := List.mem_singleton.1 ht'
  exact h

theorem covers_map {α : Type} {f : α → TypeRef} {as : List α} (h : ∀ a ∈ as, Covers u s [f a]) :
    Covers u s (as.map f) := by
  intro t ht
  obtain ⟨a, ha, rfl⟩ := List.mem_map.1 ht
  exact h a ha _ (by simp)

namespace Extract

variable {ctx : Context σ}

theorem covers_of_nil {t : TypeRef} (h : t.unnamedRecords = []) : Covers ctx.unit s [t] :=
  covers_of_unnamedRecords fun id hid => by simp [h] at hid

/-- Types with the same references, such as a pointer and its target. -/
theorem covers_congr {t t' : TypeRef} (h : t'.unnamedRecords = t.unnamedRecords)
    (ht : Covers ctx.unit s [t]) : Covers ctx.unit s [t'] :=
  covers_of_unnamedRecords fun id hid => ht t (by simp) id (h ▸ hid)

/-- After a record was queued it was seen or is in the queue, whichever was the case before. -/
theorem enqueue_eq_ok {x : DeclId} {a : Unit} (h : enqueue ctx x s = .ok a s') :
    s'.registry = s.registry ∧
      (ctx.unit.canonical x ∈ s'.seen ∨ ctx.unit.canonical x ∈ s'.pending) := by
  obtain rfl := modify_eq_ok.1 h
  dsimp only
  split
  · next hseen => exact ⟨rfl, .inl hseen⟩
  · exact ⟨rfl, .inr (OrderedSet.mem_insert_self _ _)⟩

/-- Referring to a record makes it known, if it has no name. It is queued before the reference is given
out, so no reference is ever ahead of the queue. -/
theorem describeRecord_covers {x : DeclId} {t : TypeRef}
    (hx : ∃ t', ctx.unit.type t' = .record x) (h : describeRecord ctx x s = .ok t s') :
    Covers ctx.unit s' [t] := by
  -- Records of C and of C++ are registered differently; all else is done alike.
  have hnumbered : ∀ (s₁ : Session σ) (isUnion isClass : Bool),
      let number := s₁.registry.number ctx.unit x
      let r : TypeRef := .record (ctx.unit.node x).name number isUnion isClass
      0 < number →
      (if (ctx.unit.node x).name.isEmpty then (do
        enqueue ctx x
        pure r) else pure r : Extract σ TypeRef) s₁ = .ok t s' → Covers ctx.unit s' [t] := by
    intro s₁ isUnion isClass number r hpos h
    split at h
    · next hname =>
      obtain ⟨_, s₂, hqueue, h⟩ := bind_eq_ok.1 h
      obtain ⟨rfl, rfl⟩ := pure_eq_ok.1 h
      obtain ⟨hregistry, hknown⟩ := enqueue_eq_ok hqueue
      have hunnamed : ctx.unit.IsUnnamedRecord x := ⟨String.isEmpty_iff.1 hname, .inr hx⟩
      refine covers_of_unnamedRecords fun id hid => ?_
      have hid : id = number := by simpa [r, TypeRef.unnamedRecords, hname] using hid
      subst hid
      exact ⟨hpos, x, hunnamed, by rw [hregistry], hknown⟩
    · next hname =>
      obtain ⟨rfl, rfl⟩ := pure_eq_ok.1 h
      exact covers_of_nil (by simp [r, TypeRef.unnamedRecords, hname])
  unfold describeRecord at h
  dsimp only at h
  split at h
  · obtain ⟨id, s₁, hnumber, h⟩ := bind_eq_ok.1 h
    cases modifyGet_eq_ok.1 hnumber
    exact hnumbered { s with registry := _ } _ _ (Registry.registerClass_pos _ _ _) h
  · obtain ⟨id, s₁, hnumber, h⟩ := bind_eq_ok.1 h
    cases modifyGet_eq_ok.1 hnumber
    exact hnumbered { s with registry := _ } _ _ (Registry.register_pos _ _ _) h

/-- A template argument is known if describing types makes them so. -/
theorem describeArgWith_covers {describe : TypeId → Extract σ TypeRef}
    (hdescribe : ∀ t s a s', describe t s = .ok a s' → Covers ctx.unit s' [a])
    {a : TemplateArgument} {r : TypeRef × Option String}
    (h : describeArgWith describe a s = .ok r s') : Covers ctx.unit s' [r.1] := by
  cases a with
  | type t =>
    obtain ⟨a, s₁, ht, h⟩ := bind_eq_ok.1 h
    obtain ⟨rfl, rfl⟩ := pure_eq_ok.1 h
    exact hdescribe t s a s₁ ht
  | integral t value =>
    obtain ⟨a, s₁, ht, h⟩ := bind_eq_ok.1 h
    obtain ⟨rfl, rfl⟩ := pure_eq_ok.1 h
    exact hdescribe t s a s₁ ht
  | other spelling =>
    obtain ⟨rfl, rfl⟩ := pure_eq_ok.1 h
    exact covers_of_nil rfl

/-- What is known of one argument stays known while the others are described. -/
theorem describeArgs_covers_of {describe : TypeId → Extract σ TypeRef}
    (hbuilds : ∀ d t, Within (Builds ctx.unit d) (describe t))
    (hdescribe : ∀ t s a s', describe t s = .ok a s' → Covers ctx.unit s' [a])
    {args : List TemplateArgument} {rs : TemplateArgs}
    (h : args.mapM (describeArgWith describe) s = .ok rs s') : Covers ctx.unit s' rs.types := by
  -- Builders for any declaration may describe types.
  have hall : ∀ r ∈ rs, Covers ctx.unit s' [r.1] :=
    mapM_forall (describeArgWith_builds (hbuilds ⟨0⟩)) (fun _ _ _ hb hr => hr.mono hb)
      (fun _ _ _ _ h => describeArgWith_covers hdescribe h) h
  exact covers_map hall

theorem describeEnum_covers {x : DeclId} {t : TypeRef} (h : describeEnum ctx x s = .ok t s') :
    Covers ctx.unit s' [t] := by
  unfold describeEnum at h
  dsimp only at h
  split at h
  · obtain ⟨id, s₁, _, h⟩ := bind_eq_ok.1 h
    obtain ⟨rfl, rfl⟩ := pure_eq_ok.1 h
    exact covers_of_nil rfl
  · obtain ⟨id, s₁, _, h⟩ := bind_eq_ok.1 h
    obtain ⟨rfl, rfl⟩ := pure_eq_ok.1 h
    exact covers_of_nil rfl

/-- **Describing a type makes its references known.** By induction on the fuel. Only records and
specializations need more than the part inside of them. -/
theorem describeWithin_covers :
    ∀ (fuel : Nat) (t : TypeId) (s : Session σ) (a : TypeRef) (s' : Session σ),
      describeWithin ctx fuel t s = .ok a s' → Covers ctx.unit s' [a] := by
  intro fuel
  induction fuel with
  | zero =>
    intro t s a s' h
    obtain ⟨rfl, rfl⟩ := pure_eq_ok.1 h
    exact covers_of_nil rfl
  | succ fuel ih =>
    intro t s a s' h
    -- Most types are another one with something around it.
    have hwrap : ∀ (inner : TypeId) (f : TypeRef → TypeRef),
        (∀ b, (f b).unnamedRecords = b.unnamedRecords) →
        (do return f (← describeWithin ctx fuel inner) : Extract σ TypeRef) s = .ok a s' →
        Covers ctx.unit s' [a] := by
      intro inner f hf h
      obtain ⟨b, s₁, hinner, h⟩ := bind_eq_ok.1 h
      obtain ⟨rfl, rfl⟩ := pure_eq_ok.1 h
      exact covers_congr (hf b) (ih inner s b s₁ hinner)
    have hplain : ∀ {s₁ : Session σ} (b : TypeRef), b.unnamedRecords = [] →
        (pure b : Extract σ TypeRef) s₁ = .ok a s' → Covers ctx.unit s' [a] := by
      intro s₁ b hb h
      obtain ⟨rfl, rfl⟩ := pure_eq_ok.1 h
      exact covers_of_nil hb
    unfold describeWithin at h
    cases ht : ctx.unit.type t
    all_goals rw [ht] at h
    case builtin kind =>
      cases kind
      case void => exact hplain _ rfl h
      all_goals
        obtain ⟨l, s₁, hask, h⟩ := bind_eq_ok.1 h
        exact hplain _ rfl h
    case pointer target =>
      dsimp only at h
      split at h
      · exact hplain _ rfl h
      · exact hwrap target .pointer (fun _ => rfl) h
    case lvalueReference target => exact hwrap target .reference (fun _ => rfl) h
    case rvalueReference target => exact hwrap target .reference (fun _ => rfl) h
    case array element count => exact hwrap element (.array · count) (fun _ => rfl) h
    case incompleteArray element => exact hwrap element (.array · 0) (fun _ => rfl) h
    case variableArray element => exact hwrap element (.array · 0) (fun _ => rfl) h
    case record x => exact describeRecord_covers ⟨t, ht⟩ h
    case enum x => exact describeEnum_covers h
    case elaborated inner => exact ih inner s a s' h
    case paren inner => exact ih inner s a s' h
    case specialization template args record? =>
      obtain ⟨id, s₁, hregister, h⟩ := bind_eq_ok.1 h
      obtain ⟨rs, s₂, hargs, h⟩ := bind_eq_ok.1 h
      obtain ⟨rfl, rfl⟩ := pure_eq_ok.1 h
      have hcovers := describeArgs_covers_of (fun _ => describeWithin_builds fuel) ih hargs
      refine covers_of_unnamedRecords fun id hid => ?_
      obtain ⟨r, hr, hid⟩ := mem_unnamedRecordsOfArgs.1 hid
      exact hcovers r.1 (List.mem_map_of_mem hr) id hid
    case objcPointer x? =>
      cases x? with
      | some x => exact hplain _ rfl h
      | none => exact hplain _ rfl h
    -- What is left is told by its name or its kind.
    all_goals exact hplain _ rfl h

theorem describe_covers {t : TypeId} {a : TypeRef} (h : describe ctx t s = .ok a s') :
    Covers ctx.unit s' [a] := describeWithin_covers _ t s a s' h

/-! ## Entries -/

/-- Stamping an entry changes neither its types nor what they refer to. -/
@[simp]
theorem types_stamp (scope : Nat) (location : String) (e : Entry) :
    (stamp scope location e).types = e.types := by
  cases e <;> rfl

@[simp]
theorem unnamedRecords_stamp (scope : Nat) (location : String) (e : Entry) :
    (stamp scope location e).unnamedRecords = e.unnamedRecords := by
  rw [Entry.unnamedRecords, types_stamp, Entry.unnamedRecords]

end Extract

end ForeignDecl
