import ForeignDecl.Proofs.Extract.Numbers
import ForeignDecl.Proofs.Extract.Unnamed

/-!
# Scopes in documents

An entry tells its scope by a number. It is the number of the declaration around the one that the entry is
made of (`Origin.scope?`); the methods inside the entry of a class are in that class.

The members of a namespace or a record are visited after it, whatever became of its own entry. So the
declaration around is one that an entry of the same document is made of, or a record that was left out
(`document_scopes`): an unnamed one that nothing refers to, one that cannot be sized, or a C++ record
without a definition. It is not enough that some entry has the number. Of a class that is declared and then
defined, both declarations have one number, and what is inside the definition needs the definition to be
told.

That there are records of all three kinds whose members are told without them is shown on one unit
(`document_leaves_out_scopes`).
-/

set_option autoImplicit false

namespace ForeignDecl

/-- The number under which other entries name this one as their scope. Namespaces and records have one.
An unnamed enumeration has a number as well, but no entry is met inside of it. -/
def Entry.scopeId? : Entry → Option Nat
  | .namespaceBlock _ id => some id
  | e => e.recordId?

/-- The scopes that an entry tells for what it has inside: member functions and the methods of Objective-C
have no entries of their own. -/
def Entry.memberScopes : Entry → List Nat
  | .classRecord c => c.methods.map (·.function.info.scope)
  | .objcInterface o => o.methods.map (·.info.scope)
  | .objcCategory _ _ methods | .objcProtocol _ methods => methods.map (·.info.scope)
  | _ => []

/-- A record is found as a scope under the number it is referred to by. -/
theorem Entry.scopeId?_of_recordId? {e : Entry} {id : Nat} (h : e.recordId? = some id) :
    e.scopeId? = some id := by
  cases e <;> simp_all [recordId?, scopeId?]

/-- The scopes that an entry tells for what it has inside are among its own numbers. -/
theorem Entry.memberScopes_subset (e : Entry) : ∀ id ∈ e.memberScopes, id ∈ e.ownNumbers := by
  cases e with
  | classRecord c => exact fun _ => List.mem_cons_of_mem _
  | _ => simp [memberScopes, ownNumbers]

namespace TranslationUnit

variable {u : TranslationUnit}

/-- What other declarations can be in: a namespace or a record. -/
inductive IsScope (u : TranslationUnit) (d : DeclId) : Prop where
  | namespaceBlock {ms : List DeclId} (hkind : (u.node d).kind = .namespaceBlock ms)
  | record {r : RecordNode} (hkind : (u.node d).kind = .record r)

/-- Members are in the declaration around them if that is a scope, or they are where it is itself. Other
kinds have no members, so no third case can put something into what is no scope. -/
theorem innerScope_cases (u : TranslationUnit) (scope? : Option DeclId) (d : DeclId) :
    (u.node d).members = [] ∨ (u.IsScope d ∧ u.innerScope scope? d = some d) ∨
      u.innerScope scope? d = scope? := by
  unfold Node.members innerScope
  cases hd : (u.node d).kind with
  | namespaceBlock ms => exact .inr (.inl ⟨.namespaceBlock hd, rfl⟩)
  | record r => exact .inr (.inl ⟨.record hd, rfl⟩)
  | linkageBlock ms => exact .inr (.inr rfl)
  | _ => exact .inl rfl

/-- **A scope in which something is met is a namespace or a record that is met itself.** By induction on
the way in. It is met as this very declaration, which later makes the entry be looked for under the
declaration and not under a number. -/
theorem Meets.exists_outer {x d : DeclId} (h : u.Meets (some x) d) :
    u.IsScope x ∧ ∃ scope?, u.Meets scope? x := by
  generalize hscope : some x = scope? at h
  induction h with
  | top _ _ => cases hscope
  | @member scope? d m outer hm _ ih =>
    rcases u.innerScope_cases scope? d with hnone | ⟨hd, hinner⟩ | hinner
    · rw [hnone] at hm
      cases hm
    · cases hscope.trans hinner
      exact ⟨hd, scope?, outer⟩
    · -- Inside a linkage block, the scope is the one around the block.
      exact ih (hscope.trans hinner)

/-- What is declared in Objective-C numbers nothing. -/
theorem eq_none_of_mem_ownEntities {d : DeclId} (h : u.entryLabel d = "objc-interface" ∨
    u.entryLabel d = "objc-category" ∨ u.entryLabel d = "objc-protocol") :
    ∀ y ∈ u.ownEntities d, y = none := by
  unfold entryLabel at h
  unfold ownEntities
  cases hkind : (u.node d).kind with
  | record r => cases hcxx : r.isCxx <;> simp [hkind, hcxx] at h
  | objcInterface n => simp
  | objcCategory n => simp
  | objcProtocol ms => simp
  | _ => simp [hkind] at h ⊢

/-- The own numbers of an entry stand for one entity: a record and the scopes of its methods are the
same one. -/
theorem exists_ownEntities (u : TranslationUnit) (d : DeclId) :
    ∃ x?, ∀ y ∈ u.ownEntities d, y = x? := by
  unfold ownEntities
  cases (u.node d).kind with
  | record r =>
    refine ⟨some d, fun y hy => ?_⟩
    rcases List.mem_cons.1 hy with rfl | hy
    · rfl
    · split at hy
      · exact (List.mem_map.1 hy).choose_spec.2.symm
      · cases hy
  | enum es => exact ⟨u.numberedEnum? d, by simp⟩
  | namespaceBlock ms => exact ⟨some d, by simp⟩
  | _ => exact ⟨none, by simp⟩

end TranslationUnit

namespace Extract

variable {σ : Type} {ctx : Context σ} {r : Registry}

/-! ## The scopes in an entry -/

@[simp]
theorem scopeId?_stamp (scope : Nat) (location : String) (e : Entry) :
    (stamp scope location e).scopeId? = e.scopeId? := by
  cases e <;> rfl

theorem scopeId?_of_build? {d : DeclId} {s s' : Session σ} {e : Entry} (hd : ctx.unit.IsScope d)
    (h : build? ctx d s = .ok (some e) s') (hr : s'.registry.Grows r) :
    e.scopeId? = some (r.number ctx.unit d) := by
  unfold build? at h
  cases hd with
  | namespaceBlock hkind =>
    simp only [hkind] at h
    obtain ⟨_, h, he⟩ := map_eq_ok.1 h
    cases he
    obtain ⟨_, s₁, _, h⟩ := bind_eq_ok.1 h
    obtain ⟨_, s₂, _, h⟩ := bind_eq_ok.1 h
    obtain ⟨id, s₃, hid, h⟩ := bind_eq_ok.1 h
    obtain ⟨rfl, rfl⟩ := pure_eq_ok.1 h
    exact congrArg some ((isNumberOf_registerClass hid).mono hr).eq.symm
  | record hkind =>
    simp only [hkind] at h
    rcases buildAnyRecord?_eq_ok h with ⟨he, _⟩ | ⟨_, he, _, hmakes⟩
    · cases he
    · cases he
      have hwith := hmakes.withEntry
      rw [hr.number_eq hwith.pos]
      exact Entry.scopeId?_of_recordId? hwith.id

namespace Origin

variable {o : Origin} {e : Entry}

/-- Something is met in the scope of an entry: the declaration that the entry is made of, or the one that
refers to it. -/
theorem IsMet.exists_meets {u : TranslationUnit} (h : o.IsMet u) : ∃ d, u.Meets o.scope? d := by
  obtain ⟨occasion, scope?, d⟩ := o
  cases occasion with
  | declared => exact ⟨d, h⟩
  | referred =>
    obtain ⟨host, _, hhost, _⟩ := h
    exact ⟨host, hhost⟩

namespace Gives

/-- The scope in an entry is the number of the scope it was met in. -/
theorem scope_eq (h : o.Gives ctx r e) : e.info.scope = r.scopeNumber ctx.unit o.scope? := by
  obtain ⟨_, _, _, _, _, rfl⟩ := h.built
  exact scope_stamp _ _ _

/-- An entry that is made of a scope has the number of that scope. -/
theorem scopeId? (h : o.Gives ctx r e) (ho : ctx.unit.IsScope o.source) :
    e.scopeId? = some (r.number ctx.unit o.source) := by
  obtain ⟨occasion, scope?, d⟩ := o
  obtain ⟨s, e₀, s', build, hgrows, rfl⟩ := h.built
  rw [scopeId?_stamp]
  cases occasion with
  | declared => exact scopeId?_of_build? ho build hgrows
  | referred =>
    rcases buildPending?_eq_ok build with ⟨he, _⟩ | ⟨_, he, _⟩ | ⟨_, _, he, _, _, hmakes⟩
    · cases he
    · cases he
    · cases he
      have hwith := hmakes.withEntry
      rw [hgrows.number_eq hwith.pos]
      exact Entry.scopeId?_of_recordId? hwith.id

/-- An entry with the number of a record is made of a declaration of that record. -/
theorem canonical_eq_of_recordId? {x : DeclId} (h : o.Gives ctx r e) (hpos : 0 < r.number ctx.unit x)
    (hid : e.recordId? = some (r.number ctx.unit x)) :
    ctx.unit.canonical o.source = ctx.unit.canonical x := by
  have hlabel : ctx.unit.entryLabel o.source = "record" ∨ ctx.unit.entryLabel o.source = "cxx-record" := by
    rw [← h.label]
    cases e <;> simp_all [Entry.recordId?, Entry.kindLabel]
  obtain ⟨n, hkind⟩ := TranslationUnit.exists_record_of_entryLabel hlabel
  have hsame := (h.scopeId? (.record hkind)).symm.trans (Entry.scopeId?_of_recordId? hid)
  exact (Registry.canonical_eq_of_number_eq hpos (Option.some.inj hsame).symm).symm

/-- **What an entry has inside is in the scope that the entry tells of**, or in none. -/
theorem memberScopes (h : o.Gives ctx r e) :
    ∀ id ∈ e.memberScopes, id ≠ 0 → e.scopeId? = some id := by
  intro id hid hne
  -- All own numbers are those of one entity, and the number of the entry is one of them.
  have hall : ∀ x?, (∀ y ∈ ctx.unit.ownEntities o.source, y = x?) →
      ∀ n ∈ e.ownNumbers, n = r.scopeNumber ctx.unit x? := by
    intro x? hx n hn
    obtain ⟨y, hy⟩ := exists_mem_zip_of_mem_right h.ownNumbered hn
    rw [← hx y (List.of_mem_zip hy).1]
    exact (List.forall₂_zip h.ownNumbered hy).eq.symm
  have hobjc : (e.kindLabel = "objc-interface" ∨ e.kindLabel = "objc-category" ∨
      e.kindLabel = "objc-protocol") → e.scopeId? = some id := by
    intro hlabel
    rw [h.label] at hlabel
    exact absurd (hall none (TranslationUnit.eq_none_of_mem_ownEntities hlabel) id
      (e.memberScopes_subset id hid)) hne
  cases e with
  | classRecord c =>
    obtain ⟨x?, hx⟩ := ctx.unit.exists_ownEntities o.source
    have hown := hall x? hx c.record.id (by simp [Entry.ownNumbers])
    rw [hall x? hx id (Entry.memberScopes_subset _ id hid), ← hown]
    rfl
  | objcInterface i => exact hobjc (.inl rfl)
  | objcCategory i c ms => exact hobjc (.inr (.inl rfl))
  | objcProtocol i ms => exact hobjc (.inr (.inr rfl))
  | _ => cases hid

end Gives

end Origin

/-! ## Scopes that are not told -/

/-- Why a record has no entry among `es`, though its members have. Each case is a condition on the
declaration `x` itself; that another declaration of the record is incomplete or unnamed excuses nothing.
-/
inductive LeftOut (ctx : Context σ) (r : Registry) (es : List Entry) (x : DeclId) : Prop where
  /-- A C++ record needs a definition. -/
  | incomplete {n : RecordNode} (hn : (ctx.unit.node x).record? = some n) (hcxx : n.isCxx)
    (hincomplete : n.isComplete = false)
  | unsized {n : RecordNode} (hn : (ctx.unit.node x).record? = some n) (hneeds : n.NeedsSize)
    (hsize : ∀ layout, ctx.oracle.record x ≠ .ok layout)
  /-- An unnamed record is told only where it is referred to. -/
  | unnamed {n : RecordNode} (hn : (ctx.unit.node x).record? = some n)
    (hname : (ctx.unit.node x).name = "")
    (hunused : ctx.unit.UnnamedDeclaredOnce →
      ∀ e ∈ es, r.number ctx.unit x ∉ e.unnamedRecords)

/-- A scope that does not contribute, and is not told as something referred to, was left out. The cases
of `Contributes` are gone through one by one; a namespace always contributes. -/
theorem leftOut_of_not_contributes {x : DeclId} {es : List Entry} (hx : ctx.unit.IsScope x)
    (hvalid : (ctx.unit.node x).isInvalid = false) (hno : ¬ ctx.unit.Contributes ctx.oracle x)
    (hunused : ctx.unit.CanBeTold ctx.oracle x → ctx.unit.UnnamedDeclaredOnce →
      ∀ e ∈ es, r.number ctx.unit x ∉ e.unnamedRecords) : LeftOut ctx r es x := by
  unfold TranslationUnit.Contributes at hno
  cases hx with
  | namespaceBlock hkind =>
    rw [hkind] at hno
    exact absurd rfl hno
  | @record n hkind =>
    have hn := Node.record?_eq_some.2 hkind
    by_cases hincomplete : n.isCxx ∧ n.isComplete = false
    · exact .incomplete hn hincomplete.1 hincomplete.2
    by_cases hsize : n.NeedsSize ∧ ∀ layout, ctx.oracle.record x ≠ .ok layout
    · exact .unsized hn hsize.1 hsize.2
    have hdefined : n.isCxx → n.isComplete := by simpa using hincomplete
    have hsized : n.NeedsSize → ∃ layout, ctx.oracle.record x = .ok layout := by
      simpa using hsize
    have hname : (ctx.unit.node x).name = "" := by
      by_contra hname
      rw [hkind] at hno
      refine hno ⟨hname, hdefined, fun hneeds hrefuses => ?_⟩
      obtain ⟨layout, hlayout⟩ := hsized hneeds
      exact LayoutOracle.not_refuses_of_ok hlayout hrefuses
    exact .unnamed hn hname (hunused ⟨⟨hname, .inl (by simp [hn])⟩, hvalid, n, hn, hdefined, hsized⟩)

/-! ## Documents -/

/-- `x` is a valid namespace or record, and of the entries `es` with the origins `os` there is one that is
made of this very declaration and has its number; or `x` was left out. -/
structure IsTold (ctx : Context σ) (r : Registry) (os : List Origin) (es : List Entry) (x : DeclId) :
    Prop where
  scope : ctx.unit.IsScope x
  valid : (ctx.unit.node x).isInvalid = false
  pos : 0 < r.number ctx.unit x
  told : (∃ o e, (o, e) ∈ os.zip es ∧ o.source = x ∧ e.scopeId? = some (r.number ctx.unit x)) ∨
    LeftOut ctx r es x

/-- An unnamed record that is referred to is told, if it can be. -/
theorem exists_unnamed_origin {os : List Origin} {es : List Entry} {told : List DeclId} {x : DeclId}
    (honce : ctx.unit.UnnamedDeclaredOnce) (hgives : List.Forall₂ (Origin.Gives ctx r) os es)
    (htold : TellsOnce ctx r es told) (hx : x ∈ told) :
    ∃ o e, (o, e) ∈ os.zip es ∧ o.source = x ∧ e.scopeId? = some (r.number ctx.unit x) := by
  obtain ⟨e, he, htells⟩ := exists_entry_of_told htold.entries hx
  obtain ⟨o, hzip⟩ := exists_mem_zip_of_mem_right hgives he
  have hcanonical := (List.forall₂_zip hgives hzip).canonical_eq_of_recordId? htells.pos htells.id
  rw [honce.canonical_eq x htells.unnamed] at hcanonical
  exact ⟨o, e, hzip, honce.eq_of_canonical x o.source htells.unnamed hcanonical,
    Entry.scopeId?_of_recordId? htells.id⟩

/-- **Every scope in a document can be looked up there**, unless it is a record that was left out: the
members of such a record are told all the same. The scope of an entry is the declaration around what the
entry is made of, and the scope of what it has inside is the entry itself. -/
theorem document_scopes {w : DocumentWriter σ} {page : σ} (u : TranslationUnit)
    (oracle : LayoutOracle) (namespaceName? : Option String) {s' : Session (σ × List Call)}
    (h : document { unit := u, oracle, writer := w.recorded } namespaceName? { page := (page, []) } =
      .ok () s') :
    let ctx : Context (σ × List Call) := { unit := u, oracle, writer := w.recorded }
    let entries := Call.entries s'.page.2
    ∃ origins, List.Forall₂ (Origin.Gives ctx s'.registry) origins entries ∧
      ∀ o e, (o, e) ∈ origins.zip entries →
        e.info.scope = s'.registry.scopeNumber u o.scope? ∧
          (∀ x ∈ o.scope?, IsTold ctx s'.registry origins entries x) ∧
          ∀ id ∈ e.memberScopes, id ≠ 0 → e.scopeId? = some id := by
  intro ctx entries
  obtain ⟨origins, hgives, hcomplete⟩ := document_contributes h
  refine ⟨origins, hgives, fun o e hzip => ?_⟩
  have ho : o.Gives ctx s'.registry e := List.forall₂_zip hgives hzip
  refine ⟨ho.scope_eq, fun x hx => ?_, ho.memberScopes⟩
  obtain ⟨d, hd⟩ := ho.met.exists_meets
  rw [Option.mem_def.1 hx] at hd
  obtain ⟨hscope, scope?, hmet⟩ := hd.exists_outer
  refine ⟨hscope, hmet.valid, ho.registered x hx, ?_⟩
  by_cases hcontributes : u.Contributes oracle x
  · obtain ⟨scope', hmem⟩ := hcomplete scope? x hmet hcontributes
    obtain ⟨e', hzip'⟩ := exists_mem_zip_of_mem_left hgives hmem
    exact .inl ⟨_, e', hzip', rfl, (List.forall₂_zip hgives hzip').scopeId? hscope⟩
  by_cases htold : ∃ o' e', (o', e') ∈ origins.zip entries ∧ o'.source = x ∧
      e'.scopeId? = some (s'.registry.number u x)
  · exact .inl htold
  refine .inr (leftOut_of_not_contributes hscope hmet.valid hcontributes fun hcan honce e' he' hid => ?_)
  -- An unnamed record that is referred to was told, and under this number.
  obtain ⟨p₁, s₂, hvisits, hregistry⟩ := document_visits h
  rw [hregistry] at hgives hid htold
  obtain ⟨told, hledger⟩ := hvisits.ledger honce rfl .rfl .empty
  have hmem : x ∈ told := (hledger.tellsOnce.refers e' he').all x hcan hid
  exact htold (exists_unnamed_origin honce hgives hledger.tellsOnce hmem)

/-- An unnamed record, a record with a field of no size and an incomplete class, each with a member
that is told; a variable in a namespace; and a class that is declared and then defined, with an enumeration
and a method in it. -/
def skipping : TranslationUnit where
  file := "a.h"
  types := #[.builtin .int, .function ⟨0⟩ [] false]
  nodes := #[{ kind := .record { members := [⟨1⟩] } },
    { name := "S", kind := .record { members := [⟨2⟩] } },
    { name := "f", kind := .field { type := ⟨0⟩ } },
    { name := "F", kind := .record { members := [⟨4⟩, ⟨5⟩] } },
    { name := "g", kind := .field { type := ⟨1⟩ } },
    { name := "T", kind := .record {} },
    { name := "C"
      kind := .record { isComplete := false, members := [⟨7⟩], class? := some {} } },
    { name := "E", kind := .enum [] },
    { name := "N", kind := .namespaceBlock [⟨9⟩] },
    { name := "v", kind := .var { type := ⟨0⟩ } },
    { name := "D", kind := .record { isComplete := false, class? := some {} } },
    { name := "D", canonical? := some ⟨10⟩
      kind := .record { members := [⟨12⟩, ⟨13⟩], class? := some {} } },
    { name := "G", kind := .enum [] },
    { name := "m", kind := .method { function := { result := ⟨0⟩ } } }]
  topLevel := #[⟨0⟩, ⟨3⟩, ⟨6⟩, ⟨8⟩, ⟨10⟩, ⟨11⟩]

theorem document_scopes_skipping :
    let ctx : Context (Unit × List Call) :=
      { unit := skipping, oracle := Layout.natural skipping (Target.lp64 "")
        writer := DocumentWriter.silent.recorded }
    let s' := after (document ctx none) { page := ((), []) }
    let entries := Call.entries s'.page.2
    document ctx none { page := ((), []) } = .ok () s' ∧
      entries.flatMap Entry.memberScopes = [7] ∧
      ∃ origins, List.Forall₂ (Origin.Gives ctx s'.registry) origins entries ∧
        ∀ o e, (o, e) ∈ origins.zip entries →
          e.info.scope = s'.registry.scopeNumber skipping o.scope? ∧
            (∀ x ∈ o.scope?, IsTold ctx s'.registry origins entries x) ∧
            ∀ id ∈ e.memberScopes, id ≠ 0 → e.scopeId? = some id := by
  intro ctx s' entries
  have hs' : document ctx none { page := ((), []) } = .ok () s' :=
    ok_after_of_succeeds (by decide +kernel)
  exact ⟨hs', by decide +kernel, document_scopes skipping ctx.oracle none hs'⟩

/-- The scopes of the three members are no entries; those of the variable and of the enumeration in the
class that is defined are. -/
theorem document_leaves_out_scopes :
    let ctx : Context (Unit × List Call) :=
      { unit := skipping, oracle := Layout.natural skipping (Target.lp64 "")
        writer := DocumentWriter.silent.recorded }
    let s' := after (document ctx none) { page := ((), []) }
    let entries := Call.entries s'.page.2
    succeeds (document ctx none) { page := ((), []) } ∧
      entries.map (fun e => (e.name, e.info.scope, e.scopeId?)) =
        [("S", 2, some 1), ("T", 4, some 3), ("E", 5, none), ("N", 0, some 6), ("v", 6, none),
          ("D", 0, some 7), ("G", 7, none)] ∧
      ¬ ∀ e ∈ entries, e.info.scope ≠ 0 → ∃ e' ∈ entries, e'.scopeId? = some e.info.scope := by
  intro ctx s' entries
  exact ⟨by decide +kernel, by decide +kernel, by decide +kernel⟩

end Extract

end ForeignDecl
