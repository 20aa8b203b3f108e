import ForeignDecl.Proofs.Document.Streams
import ForeignDecl.Proofs.Extract.Numbers
import ForeignDecl.Proofs.Layout.Sections
import ForeignDecl.Template.Instantiation

/-!
# The templates that are instantiated

The specializations to be instantiated are read off the declarations of C++ that a run registered. That
list is known from the origins of the entries, and it is complete: whatever specialization a document
refers to, at any depth of its types, was registered when the type was described. So a specialization
that no one has instantiated yet cannot be missed, and none has two lines (`document_instantiations`).

There are two halves to this. What is registered is said by `classesTold`, a list that is known from the unit
(`Proofs/Extract/Classes.lean`); what is referred to is read off the entries (`Entry.templates`), and that it
is on the list goes through `TellsOf`, like everything else about the types of entries.
-/

set_option autoImplicit false

namespace ForeignDecl

/-! ## References to templates -/

mutual

/-- The names and the numbers of the templates that a type refers to, at any depth. A reader of the
document finds the specialization by the number. -/
def TypeRef.templates : TypeRef → List (String × Nat)
  | .simple _ | .basic _ _ _ | .record _ _ _ _ | .enum _ _ => []
  | .bitfield base _ => base.templates
  | .pointer target | .reference target => target.templates
  | .array element _ => element.templates
  | .template name id args => (name, id) :: templatesOfArgs args

/-- The same for template arguments. -/
def templatesOfArgs : TemplateArgs → List (String × Nat)
  | [] => []
  | (type, _) :: args => type.templates ++ templatesOfArgs args

end

/-- What template arguments refer to is referred to in one of their types. -/
theorem mem_templatesOfArgs {args : TemplateArgs} {p : String × Nat} :
    p ∈ templatesOfArgs args ↔ ∃ ref ∈ args.types, p ∈ ref.templates := by
  induction args with
  | nil => simp [templatesOfArgs, TemplateArgs.types]
  | cons a args ih =>
    obtain ⟨type, value?⟩ := a
    simp [templatesOfArgs, TemplateArgs.types, ih]

/-- The templates that an entry refers to. -/
def Entry.templates (e : Entry) : List (String × Nat) := e.types.flatMap (·.templates)

/-- There is a specialization of this template with this record, or without one. It ties what is told of
a template in a type to the unit; two specializations of one template differ in their records. -/
def TranslationUnit.IsSpecialization (u : TranslationUnit) (template : String)
    (record? : Option DeclId) : Prop :=
  ∃ t args, u.type t = .specialization template args record?

/-- What is referred to as a template are specializations, under the numbers of their records, and the
records are among `cs`. A specialization without a record has the number zero and nothing to be
registered. -/
def RefersWithin (u : TranslationUnit) (r : Registry) (cs : List DeclId) (refs : List TypeRef) : Prop :=
  ∀ ref ∈ refs, ∀ p ∈ ref.templates,
    ∃ record?, u.IsSpecialization p.1 record? ∧ IsNumberOf u r record? p.2 ∧ ∀ x ∈ record?, x ∈ cs

section RefersWithin

variable {u : TranslationUnit} {r r' : Registry} {cs cs' : List DeclId} {refs : List TypeRef}

/-- Numbers stay, and the list may have more on it. -/
theorem RefersWithin.mono (h : RefersWithin u r cs refs) (hr : r.Grows r') (hcs : ∀ x ∈ cs, x ∈ cs') :
    RefersWithin u r' cs' refs := by
  intro ref href p hp
  obtain ⟨record?, hspecialization, hid, hrecord⟩ := h ref href p hp
  exact ⟨record?, hspecialization, hid.mono hr, fun x hx => hcs x (hrecord x hx)⟩

theorem refersWithin_of_templates {ref : TypeRef} (h : ref.templates = []) :
    RefersWithin u r cs [ref] := by
  intro ref' href p hp
  obtain rfl := List.mem_singleton.1 href
  rw [h] at hp
  cases hp

/-- A type that refers to the same templates as another one. -/
theorem RefersWithin.congr {ref ref' : TypeRef} (h : RefersWithin u r cs [ref])
    (htemplates : ref'.templates = ref.templates) : RefersWithin u r cs [ref'] := by
  intro ref'' href p hp
  obtain rfl := List.mem_singleton.1 href
  exact h ref (by simp) p (htemplates ▸ hp)

end RefersWithin

namespace Extract

variable {σ : Type} {ctx : Context σ} {s s' : Session σ}

/-! ## Describing types -/

/-- References to records are none to templates, also where the record is a specialization: such a one
is referred to through its type. -/
theorem describeRecord_templates (d : DeclId) :
    Returns (fun ref => ref.templates = []) (describeRecord ctx d) := by
  have hrest : ∀ ref : TypeRef, ref.templates = [] → Returns (fun ref => ref.templates = [])
      (if (ctx.unit.node d).name.isEmpty then (do
        enqueue ctx d
        pure ref) else pure ref : Extract σ TypeRef) := by
    intro ref href
    split
    · exact .bind fun _ => returns_pure href
    · exact returns_pure href
  unfold describeRecord
  dsimp only
  split
  · exact .bind fun _ => hrest _ rfl
  · exact .bind fun _ => hrest _ rfl

theorem describeEnum_templates (d : DeclId) :
    Returns (fun ref => ref.templates = []) (describeEnum ctx d) := by
  unfold describeEnum
  dsimp only
  split
  · exact .bind fun _ => returns_pure rfl
  · exact .bind fun _ => returns_pure rfl

/-- What one argument refers to goes on to be known while the others are described. -/
theorem describeArgs_refers_of {describe : TypeId → Extract σ TypeRef} {classes : TypeId → List DeclId}
    (hbuilds : ∀ d t, Within (Builds ctx.unit d) (describe t))
    (hdescribe : ∀ t s ref s', describe t s = .ok ref s' →
      RefersWithin ctx.unit s'.registry (classes t) [ref])
    {args : List TemplateArgument} {rs : TemplateArgs}
    (h : args.mapM (describeArgWith describe) s = .ok rs s') :
    RefersWithin ctx.unit s'.registry ((args.filterMap (·.type?)).flatMap classes) rs.types := by
  induction args generalizing s rs with
  | nil =>
    rw [List.mapM_nil] at h
    obtain ⟨rfl, rfl⟩ := pure_eq_ok.1 h
    intro ref href
    cases href
  | cons a args ih =>
    rw [List.mapM_cons] at h
    obtain ⟨r, s₁, ha, h⟩ := bind_eq_ok.1 h
    obtain ⟨rs, s₂, has, h⟩ := bind_eq_ok.1 h
    obtain ⟨rfl, rfl⟩ := pure_eq_ok.1 h
    have hrest : Builds ctx.unit ⟨0⟩ s₁ s₂ :=
      (Within.mapM fun a _ => describeArgWith_builds (hbuilds ⟨0⟩) a).of_ok has
    -- Describing the other arguments registers more classes, but takes none away.
    have hfirst : RefersWithin ctx.unit s₁.registry (a.type?.toList.flatMap classes) [r.1] := by
      cases a with
      | type t =>
        obtain ⟨ref, s₃, ht, ha⟩ := bind_eq_ok.1 ha
        obtain ⟨rfl, rfl⟩ := pure_eq_ok.1 ha
        simpa [TemplateArgument.type?] using hdescribe t s ref s₃ ht
      | integral t value =>
        obtain ⟨ref, s₃, ht, ha⟩ := bind_eq_ok.1 ha
        obtain ⟨rfl, rfl⟩ := pure_eq_ok.1 ha
        simpa [TemplateArgument.type?] using hdescribe t s ref s₃ ht
      | other spelling =>
        obtain ⟨rfl, rfl⟩ := pure_eq_ok.1 ha
        exact refersWithin_of_templates rfl
    rw [List.filterMap_eq_flatMap_toList, List.flatMap_cons, List.flatMap_append,
      ← List.filterMap_eq_flatMap_toList]
    intro ref href
    rcases List.mem_cons.1 href with rfl | href
    · exact hfirst.mono hrest.registry (fun x hx => List.mem_append_left _ hx) _ (by simp)
    · exact (ih has).mono .rfl (fun x hx => List.mem_append_right _ hx) ref href

/-- A specialization refers to its own record first, and then to what its arguments refer to. -/
theorem specialization_refers {describe : TypeId → Extract σ TypeRef} {classes : TypeId → List DeclId}
    (hbuilds : ∀ d t, Within (Builds ctx.unit d) (describe t))
    (hdescribe : ∀ t s ref s', describe t s = .ok ref s' →
      RefersWithin ctx.unit s'.registry (classes t) [ref])
    {t : TypeId} {template : String} {args : List TemplateArgument} {record? : Option DeclId}
    (ht : ctx.unit.type t = .specialization template args record?) {ref : TypeRef}
    (h : (do
      let id ← registerClass ctx record?
      return .template template id (← args.mapM (describeArgWith describe)) : Extract σ TypeRef) s =
        .ok ref s') :
    RefersWithin ctx.unit s'.registry
      (record?.toList ++ (args.filterMap (·.type?)).flatMap classes) [ref] := by
  obtain ⟨id, s₁, hregister, h⟩ := bind_eq_ok.1 h
  obtain ⟨rs, s₂, hargs, h⟩ := bind_eq_ok.1 h
  obtain ⟨rfl, rfl⟩ := pure_eq_ok.1 h
  have hrest : Builds ctx.unit ⟨0⟩ s₁ s₂ :=
    (Within.mapM fun a _ => describeArgWith_builds (hbuilds ⟨0⟩) a).of_ok hargs
  have hinside := describeArgs_refers_of hbuilds hdescribe hargs
  intro ref href p hp
  obtain rfl := List.mem_singleton.1 href
  rcases List.mem_cons.1 hp with rfl | hp
  · refine ⟨record?, ⟨t, args, ht⟩, (isNumberOf_registerClass hregister).mono hrest.registry, ?_⟩
    exact fun x hx => List.mem_append_left _ (Option.mem_toList.2 hx)
  · obtain ⟨ref, href, hp⟩ := mem_templatesOfArgs.1 hp
    exact (hinside.mono .rfl fun x hx => List.mem_append_right _ hx) ref href p hp

/-- **The specializations that a type refers to were registered when it was described.** By induction on
the fuel, with `classesWithin` unfolded beside the description. -/
theorem describeWithin_refers :
    ∀ (fuel : Nat) (t : TypeId) (s : Session σ) (ref : TypeRef) (s' : Session σ),
      describeWithin ctx fuel t s = .ok ref s' →
      RefersWithin ctx.unit s'.registry (ctx.unit.classesWithin fuel t) [ref] := by
  intro fuel
  induction fuel with
  | zero =>
    intro t s ref s' h
    obtain ⟨rfl, rfl⟩ := pure_eq_ok.1 h
    exact refersWithin_of_templates rfl
  | succ fuel ih =>
    intro t s ref s' h
    -- Most types are another one with something around it.
    have hwrap : ∀ (inner : TypeId) (f : TypeRef → TypeRef), (∀ b, (f b).templates = b.templates) →
        (do return f (← describeWithin ctx fuel inner) : Extract σ TypeRef) s = .ok ref s' →
        RefersWithin ctx.unit s'.registry (ctx.unit.classesWithin fuel inner) [ref] := by
      intro inner f hf h
      obtain ⟨b, s₁, hinner, h⟩ := bind_eq_ok.1 h
      obtain ⟨rfl, rfl⟩ := pure_eq_ok.1 h
      exact (ih inner s b s₁ hinner).congr (hf b)
    have hplain : ∀ {s₁ : Session σ} {cs : List DeclId} (b : TypeRef), b.templates = [] →
        (pure b : Extract σ TypeRef) s₁ = .ok ref s' →
        RefersWithin ctx.unit s'.registry cs [ref] := by
      intro s₁ cs b hb h
      obtain ⟨rfl, rfl⟩ := pure_eq_ok.1 h
      exact refersWithin_of_templates hb
    unfold describeWithin at h
    unfold TranslationUnit.classesWithin
    cases ht : ctx.unit.type t
    all_goals
      rw [ht] at h
      dsimp only at h ⊢
    case builtin kind =>
      cases kind
      case void => exact hplain _ rfl h
      all_goals
        obtain ⟨l, s₁, hask, h⟩ := bind_eq_ok.1 h
        exact hplain _ rfl h
    case pointer target =>
      split at h
      · exact hplain _ rfl h
      · next hfunction =>
        rw [if_neg hfunction]
        exact hwrap target .pointer (fun _ => rfl) h
    case lvalueReference target => exact hwrap target .reference (fun _ => rfl) h
    case rvalueReference target => exact hwrap target .reference (fun _ => rfl) h
    case array element count => exact hwrap element (.array · count) (fun _ => rfl) h
    case incompleteArray element => exact hwrap element (.array · 0) (fun _ => rfl) h
    case variableArray element => exact hwrap element (.array · 0) (fun _ => rfl) h
    case record x => exact refersWithin_of_templates (describeRecord_templates x _ _ _ h)
    case enum x => exact refersWithin_of_templates (describeEnum_templates x _ _ _ h)
    case elaborated inner => exact ih inner s ref s' h
    case paren inner => exact ih inner s ref s' h
    case specialization template args record? =>
      exact specialization_refers (fun _ => describeWithin_builds fuel) ih ht h
    case objcPointer x? =>
      cases x? with
      | some x => exact hplain _ rfl h
      | none => exact hplain _ rfl h
    -- What is left is told by its name or its kind.
    all_goals exact hplain _ rfl h

/-- What is known of the templates in a type is kept while entries are built. -/
theorem tells_templates : TellsOf ctx fun s t ref =>
    RefersWithin ctx.unit s.registry (ctx.unit.classes t) [ref] where
  describe h := describeWithin_refers _ _ _ _ _ h
  bitfield _ h := h.congr rfl
  mono hb h := h.mono hb.registry fun _ hx => hx

end Extract

/-! ## Entries -/

/-- What a declaration tells of a type is told of it. The two lists are made of the same parts in
different orders, and only membership is asked for here. -/
theorem TranslationUnit.mem_classesTold {u : TranslationUnit} {scope? : Option DeclId} {d x : DeclId}
    {t : TypeId} (ht : t ∈ u.typesTold d) (hx : x ∈ u.classes t) : x ∈ u.classesTold scope? d := by
  have hall : x ∈ (u.typesTold d).flatMap u.classes := List.mem_flatMap.2 ⟨t, ht, hx⟩
  unfold classesTold
  unfold typesTold at hall
  cases hkind : (u.node d).kind
  all_goals simp only [hkind] at hall ⊢
  case namespaceBlock => cases hall
  case record r =>
    split at hall
    · next hcxx =>
      rw [if_pos hcxx]
      simp only [List.flatMap_append, List.mem_append, List.mem_cons] at hall ⊢
      tauto
    · next hcxx =>
      rw [if_neg hcxx]
      exact hall
  all_goals simpa only [typesTold, hkind] using hall

namespace Extract

variable {σ : Type} {ctx : Context σ} {r : Registry}

/-- **The specializations that an entry refers to were registered for its origin.** The entry was built
before the end of the run, and the registry has only grown since. -/
theorem Origin.Gives.refersWithin {o : Origin} {e : Entry} (h : o.Gives ctx r e) :
    RefersWithin ctx.unit r (o.classesTold ctx.unit) e.types := by
  obtain ⟨s, e₀, s', build, hgrows, rfl⟩ := h.built
  rw [types_stamp]
  have htold : ToldAs (fun t ref => RefersWithin ctx.unit s'.registry (ctx.unit.classes t) [ref])
      (ctx.unit.typesTold o.source) e₀.types := by
    obtain ⟨occasion, scope?, d⟩ := o
    cases occasion with
    | declared => exact build?_tells tells_templates build
    | referred => exact buildPending?_tells tells_templates build
  intro ref href
  rcases htold.exists_type ref href with ⟨name, rfl⟩ | ⟨t, ht, hrefers⟩
  · have hspelled : RefersWithin ctx.unit r (o.classesTold ctx.unit) [.simple name] :=
      refersWithin_of_templates rfl
    exact hspelled _ (by simp)
  · exact hrefers.mono hgrows (fun x hx => TranslationUnit.mem_classesTold ht hx) ref (by simp)

end Extract

/-! ## The lines -/

/-- The record `c` carries the specialization `s`, which was never instantiated so far and is not a
partial one. -/
def TranslationUnit.IsOpen (u : TranslationUnit) (c : DeclId) (s : Specialization) : Prop :=
  ∃ n cls, (u.node c).record? = some n ∧ n.class? = some cls ∧ cls.specialization? = some s ∧
    s.kind = .undeclared ∧ s.isPartial = false

/-- What the program looks for in a declaration is an open specialization. -/
theorem TranslationUnit.openSpecialization?_eq_some_iff {u : TranslationUnit} {c : DeclId}
    {s : Specialization} : u.openSpecialization? c = some s ↔ u.IsOpen c s := by
  unfold openSpecialization? IsOpen
  cases hn : (u.node c).record? with
  | none => simp
  | some n =>
    simp only [Option.filter_eq_some_iff, Option.bind_eq_some_iff, Option.some.injEq]
    constructor
    · rintro ⟨⟨cls, hcls, hs⟩, hopen⟩
      obtain ⟨hkind, hpartial⟩ : s.kind = .undeclared ∧ s.isPartial = false := by simpa using hopen
      exact ⟨n, cls, rfl, hcls, hs, hkind, hpartial⟩
    · rintro ⟨_, cls, rfl, hcls, hs, hkind, hpartial⟩
      exact ⟨⟨cls, hcls, hs⟩, by simp [hkind, hpartial]⟩

namespace Registry

variable (r : Registry) (u : TranslationUnit)

/-- The declarations `listed` are instantiated in `lines`. -/
structure Instantiates (listed : List DeclId) (lines : List String) : Prop where
  /-- They are registered declarations of C++, in the order of registration, none twice. -/
  sublist : listed.Sublist r.classes.toList
  /-- All are listed that have a specialization to be instantiated. -/
  mem_iff : ∀ c, c ∈ listed ↔ c ∈ r.classes ∧ ∃ s, u.IsOpen c s
  /-- Each has one line. -/
  each : List.Forall₂ (fun c line => ∃ s, u.IsOpen c s ∧ line =
    "template class " ++ s.template ++ "<" ++ u.argsSpelling s.args ++ ">;\n") listed lines
  /-- Where there is room, a line that includes the input is written, then these, and they are
  counted. -/
  written : ∀ k : Sink,
    let text := "#include \"" ++ u.file ++ "\"\n" ++ String.join lines
    k.HasRoom text.toUTF8 → r.writeInstantiations u k = .ok lines.length (k.write text.toUTF8)

/-- The lines are those of the open specializations among some declarations. By induction on the
declarations, with those left out that have none. -/
theorem lines_of_openSpecializations (cs : List DeclId) :
    List.Forall₂ (fun c line => ∃ s, u.IsOpen c s ∧ line = instantiationText u s)
      (cs.filter fun c => (u.openSpecialization? c).isSome)
      ((cs.filterMap u.openSpecialization?).map (instantiationText u)) := by
  induction cs with
  | nil => exact .nil
  | cons c cs ih =>
    cases hopen : u.openSpecialization? c with
    | none => simpa [List.filterMap_cons, hopen] using ih
    | some s =>
      have hfirst : ∃ s', u.IsOpen c s' ∧ instantiationText u s = instantiationText u s' :=
        ⟨s, TranslationUnit.openSpecialization?_eq_some_iff.1 hopen, rfl⟩
      simpa [List.filterMap_cons, hopen] using List.Forall₂.cons hfirst ih

/-- **What is written instantiates all there is to be instantiated.** -/
theorem exists_instantiates : ∃ listed lines, r.Instantiates u listed lines := by
  refine ⟨_, (r.openSpecializations u).map (instantiationText u), List.filter_sublist, fun c => ?_,
    lines_of_openSpecializations u r.classes.toList, ?_⟩
  · rw [List.mem_filter, Option.isSome_iff_exists, OrderedSet.mem_def]
    simp only [TranslationUnit.openSpecialization?_eq_some_iff]
  · intro k text hroom
    have hwritten := Sink.put_bind_of_hasRoom (f := fun _ => pure (r.openSpecializations u).length) hroom
    rw [List.length_map]
    exact hwritten

/-- All that `e` refers to as templates are specializations, under the numbers of their records; the
records were registered as declarations of C++, and those that have a specialization to be instantiated
are listed once. A document covers its templates if every entry does. -/
def CoversTemplates (listed : List DeclId) (e : Entry) : Prop :=
  ∀ p ∈ e.templates, ∃ record?, u.IsSpecialization p.1 record? ∧ IsNumberOf u r record? p.2 ∧
    ∀ x ∈ record?, u.canonical x ∈ r.classes ∧
      ((∃ s, u.IsOpen (u.canonical x) s) → listed.count (u.canonical x) = 1)

end Registry

theorem Registry.Instantiates.nodup {r : Registry} {u : TranslationUnit} {listed : List DeclId}
    {lines : List String} (h : r.Instantiates u listed lines) : listed.Nodup :=
  h.sublist.nodup r.classes.nodup

/-! ## Documents -/

namespace Extract

variable {σ : Type}

/-- **The specializations that a document needs are instantiated, each once.** What was registered in C++
is what the entries tell of, in the order in which they were built. Of these, all that have a
specialization to be instantiated are listed, with a line each; and so is every specialization that the
document refers to, wherever it does, if it is one that is to be instantiated. -/
theorem document_instantiations {w : DocumentWriter σ} {page : σ} (u : TranslationUnit)
    (oracle : LayoutOracle) (namespaceName? : Option String) {s' : Session (σ × List Call)}
    (h : document { unit := u, oracle, writer := w.recorded } namespaceName? { page := (page, []) } =
      .ok () s') :
    let entries := Call.entries s'.page.2
    let r := s'.registry
    ∃ (built written : List Origin) (listed : List DeclId) (lines : List String),
      BuildOrder built written ∧
      List.Forall₂ (Origin.Gives { unit := u, oracle, writer := w.recorded } r) written entries ∧
      r.classes = .ofList ((built.flatMap (·.classesTold u)).map u.canonical) ∧
      r.Instantiates u listed lines ∧
      ∀ e ∈ entries, r.CoversTemplates u listed e := by
  intro entries r
  obtain ⟨built, written, horder, hgives, hclasses⟩ := document_traces h
  obtain ⟨listed, lines, hlisted⟩ := r.exists_instantiates u
  refine ⟨built, written, listed, lines, horder, hgives, hclasses, hlisted, ?_⟩
  intro e he p hp
  obtain ⟨o, ho, hgive⟩ := Layout.exists_right_of_forall₂ hgives.flip e he
  obtain ⟨ref, href, hp⟩ := List.mem_flatMap.1 hp
  obtain ⟨record?, hspecialization, hid, hrecord⟩ := hgive.refersWithin ref href p hp
  refine ⟨record?, hspecialization, hid, fun x hx => ?_⟩
  have hmem : u.canonical x ∈ r.classes := by
    rw [hclasses, OrderedSet.mem_ofList]
    exact List.mem_map_of_mem (List.mem_flatMap.2 ⟨o, horder.perm.mem_iff.2 ho, hrecord x hx⟩)
  exact ⟨hmem, fun hopen => List.count_eq_one_of_mem hlisted.nodup ((hlisted.mem_iff _).2 ⟨hmem, hopen⟩)⟩

/-- The record of a specialization that is not defined. -/
def namedOnly (s : Specialization) : Node where
  name := s.template
  kind := .record { isComplete := false, class? := some { specialization? := some s } }

/-- A function with a specialization inside the arguments of another one, whose record is declared twice,
and with two that are not to be instantiated. Another one is needed by an unnamed record that is told
before the function. -/
def specialized : TranslationUnit where
  file := "a.h"
  types := #[.builtin .int, .specialization "Box" [.type ⟨0⟩] (some ⟨3⟩), .pointer ⟨1⟩,
    .specialization "Pair" [.type ⟨2⟩, .type ⟨1⟩, .integral ⟨0⟩ 3] (some ⟨1⟩), .lvalueReference ⟨3⟩,
    .specialization "Made" [] (some ⟨4⟩), .specialization "Part" [] (some ⟨5⟩), .record ⟨6⟩,
    .pointer ⟨7⟩, .specialization "Late" [] (some ⟨8⟩), .pointer ⟨9⟩]
  nodes := #[
    { name := "f"
      kind := .function { result := ⟨4⟩, params := [⟨"x", ⟨5⟩⟩, ⟨"y", ⟨6⟩⟩, ⟨"z", ⟨8⟩⟩] } },
    { name := "Pair", canonical? := some ⟨2⟩
      kind := .record { isComplete := false, class? := some {} } },
    namedOnly { template := "Pair", args := [.type ⟨2⟩, .type ⟨1⟩, .integral ⟨0⟩ 3] },
    namedOnly { template := "Box", args := [.type ⟨0⟩] },
    namedOnly { template := "Made", kind := .implicitInstantiation },
    namedOnly { template := "Part", isPartial := true },
    { kind := .record { members := [⟨7⟩], class? := some {} } },
    { name := "late", kind := .field { type := ⟨10⟩ } },
    namedOnly { template := "Late" }]
  topLevel := #[⟨0⟩]

theorem document_instantiations_specialized :
    let ctx : Context (Unit × List Call) :=
      { unit := specialized, oracle := Layout.natural specialized (Target.lp64 "")
        writer := DocumentWriter.silent.recorded }
    let s' := after (document ctx none) { page := ((), []) }
    let entries := Call.entries s'.page.2
    let r := s'.registry
    document ctx none { page := ((), []) } = .ok () s' ∧
      entries.map Entry.templates =
        [[("Late", 6)], [("Pair", 1), ("Box", 2), ("Box", 2), ("Made", 3), ("Part", 4)]] ∧
      r.instantiations specialized =
        "#include \"a.h\"\ntemplate class Pair<Box<int> *, Box<int>, 3>;\n" ++
          "template class Box<int>;\ntemplate class Late<>;\n" ∧
      ∃ (built written : List Origin) (listed : List DeclId) (lines : List String),
        BuildOrder built written ∧ List.Forall₂ (Origin.Gives ctx r) written entries ∧
        r.classes = .ofList ((built.flatMap (·.classesTold specialized)).map specialized.canonical) ∧
        r.Instantiates specialized listed lines ∧
        ∀ e ∈ entries, r.CoversTemplates specialized listed e := by
  intro ctx s' entries r
  have hs' : document ctx none { page := ((), []) } = .ok () s' :=
    ok_after_of_succeeds (by decide +kernel)
  exact ⟨hs', by decide +kernel, by decide +kernel,
    document_instantiations specialized ctx.oracle none hs'⟩

end Extract

end ForeignDecl
