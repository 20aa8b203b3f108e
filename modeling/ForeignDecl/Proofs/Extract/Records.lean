import ForeignDecl.Proofs.Extract.Visiting

/-!
# When a record has an entry

A record that is met has an entry or not, and which of the two can be told from the declaration, the
layout oracle and the occasion: an unnamed record waits until something refers to it, a C++ record
needs a valid definition, and what is complete needs a size. `HasEntry` is that condition and
`buildAnyRecord?_eq_ok` what becomes of the session in both cases.

The builders of records are the only ones that branch on more than the kind of a declaration, so they
are taken apart once, here. Everything that is proved about entries of records later starts from `Makes`,
which has the steps of a builder that made one as its fields.
-/

set_option autoImplicit false

namespace ForeignDecl

/-- The oracle says that a record cannot be sized. These are the two refusals an extraction can do with;
any other answer that is no layout ends it. -/
def LayoutOracle.Refuses (oracle : LayoutOracle) (d : DeclId) : Prop :=
  ∃ what, oracle.record d = .error (.noLayout what) ∨ oracle.record d = .error (.tooLarge what)

theorem LayoutOracle.not_refuses_of_ok {oracle : LayoutOracle} {d : DeclId} {layout : RecordLayout}
    (h : oracle.record d = .ok layout) : ¬ oracle.Refuses d := by
  rintro ⟨what, hwhat | hwhat⟩
  · cases h.symm.trans hwhat
  · cases h.symm.trans hwhat

/-- The size of a record is asked for: a forward declaration has none, and that of a dependent record
is not known. -/
def RecordNode.NeedsSize (r : RecordNode) : Prop := r.isComplete ∧ r.isDependent = false

instance (r : RecordNode) : Decidable r.NeedsSize :=
  inferInstanceAs (Decidable (r.isComplete ∧ r.isDependent = false))

/-- The number of a record, for the entry of one. It tells entries of records from others, and it is
what references name. -/
def Entry.recordId? : Entry → Option Nat
  | .record r => some r.id
  | .classRecord c => some c.record.id
  | _ => none

namespace Extract

variable {σ : Type} {ctx : Context σ} {d : DeclId}

/-- The record `r` that `d` declares has an entry. The three fields are the three ways a record can be
left out: without a name where it is declared, without a valid definition in C++, and without a size
that it needs. -/
structure HasEntry (ctx : Context σ) (occasion : Occasion) (d : DeclId) (r : RecordNode) : Prop where
  named : occasion = .declared → (ctx.unit.node d).name ≠ ""
  defined : r.isCxx → r.isComplete ∧ (ctx.unit.node d).isInvalid = false
  sized : r.NeedsSize → ¬ ctx.oracle.Refuses d

/-- What becomes of the session when a record has no entry: nothing is queued, and the record is
marked as seen only because it cannot be sized. -/
structure NoEntry (ctx : Context σ) (d : DeclId) (r : RecordNode) (s s' : Session σ) : Prop where
  pending : s'.pending = s.pending
  seen : s'.seen = s.seen ∨ r.NeedsSize ∧ ctx.oracle.Refuses d

/-- What is known of the size of the record `r` that `d` declares: the answer of the oracle if the size
is needed, and otherwise nothing. A builder that goes on after asking for the size may rely on this. -/
def Sizing.Fits (ctx : Context σ) (d : DeclId) (r : RecordNode) : Sizing → Prop
  | .sized layout => r.NeedsSize ∧ ctx.oracle.record d = .ok layout
  | .unsized => ¬ r.NeedsSize
  | .unsizable => False

/-- A record that is built was not refused a size. -/
theorem Sizing.Fits.not_refuses {r : RecordNode} {sizing : Sizing} (h : sizing.Fits ctx d r)
    (hneeds : r.NeedsSize) : ¬ ctx.oracle.Refuses d := by
  cases sizing with
  | sized layout => exact LayoutOracle.not_refuses_of_ok h.2
  | unsized => exact absurd hneeds h
  | unsizable => exact h.elim

/-- `d` is marked as seen and has the number `id`. Between the two sessions a builder of records passes
the point from which on references to it are settled. -/
structure Enters (ctx : Context σ) (d : DeclId) (id : Nat) (s s' : Session σ) : Prop where
  builds : Builds ctx.unit d s s'
  seen : ctx.unit.canonical d ∈ s'.seen
  number : s'.registry.number ctx.unit d = id
  pos : 0 < id

/-- How the entry of the record `r` that `d` declares is made. Template arguments are described
before the record has its number, the rest after that. -/
inductive Makes (ctx : Context σ) (d : DeclId) (r : RecordNode) (s s' : Session σ) : Entry → Prop where
  | record {sizing : Sizing} {id : Nat} {b : RecordEntry} {s₁ : Session σ}
    (hcxx : r.isCxx = false) (fits : sizing.Fits ctx d r) (enters : Enters ctx d id s s₁)
    (body : buildBody ctx d r id sizing s₁ = .ok b s') : Makes ctx d r s s' (.record b)
  | classRecord {sizing : Sizing} {id : Nat} {args? : Option TemplateArgs} {ms : List MethodEntry}
    {b : RecordEntry} {ps : List ParentEntry} {s₁ s₂ s₃ s₄ : Session σ} (hcxx : r.isCxx)
    (fits : sizing.Fits ctx d r)
    (args : buildArgs? ctx ((r.class?.bind (·.specialization?)).map (·.args)) s = .ok args? s₁)
    (enters : Enters ctx d id s₁ s₂) (methods : buildMethods ctx id r.members s₂ = .ok ms s₃)
    (body : buildBody ctx d r id sizing s₃ = .ok b s₄)
    (parents : buildParents ctx d r sizing s₄ = .ok ps s') :
    Makes ctx d r s s' (.classRecord
      { record := b, isClass := r.isClass, templateArgs? := args?, parents := ps, methods := ms })

/-- What asking for a size can come to, if it does not end the run: the record cannot be sized and is
marked, or the answer fits and nothing changed. -/
theorem sizingOf_eq_ok {r : RecordNode} {s s' : Session σ} {sizing : Sizing}
    (h : sizingOf ctx d r s = .ok sizing s') :
    (sizing = .unsizable ∧ (r.NeedsSize ∧ ctx.oracle.Refuses d) ∧ s'.pending = s.pending) ∨
      (sizing.Fits ctx d r ∧ s = s') := by
  unfold sizingOf at h
  split at h
  · next hsize =>
    obtain ⟨rfl, rfl⟩ := pure_eq_ok.1 h
    refine .inr ⟨fun hneeds => ?_, rfl⟩
    simp [hneeds.1, hneeds.2] at hsize
  · next hsize =>
    simp only [Bool.or_eq_true, Bool.not_eq_true', not_or, Bool.not_eq_false,
      Bool.not_eq_true] at hsize
    -- Both reasons to leave a record out take the same steps.
    have hskip : ∀ s', (do
        markSeen ctx d
        count fun c => { c with skippedInvalid := c.skippedInvalid + 1 }
        return .unsizable : Extract σ Sizing) s = .ok sizing s' →
        sizing = .unsizable ∧ s'.pending = s.pending := by
      intro s' h
      obtain ⟨_, s₁, hmark, h⟩ := bind_eq_ok.1 h
      obtain ⟨_, s₂, hcount, h⟩ := bind_eq_ok.1 h
      obtain ⟨rfl, rfl⟩ := pure_eq_ok.1 h
      obtain rfl := modify_eq_ok.1 hmark
      obtain rfl := modify_eq_ok.1 hcount
      exact ⟨rfl, rfl⟩
    cases hlayout : ctx.oracle.record d with
    | ok layout =>
      rw [hlayout] at h
      obtain ⟨rfl, rfl⟩ := pure_eq_ok.1 h
      exact .inr ⟨⟨hsize, hlayout⟩, rfl⟩
    | error e =>
      rw [hlayout] at h
      cases e with
      | noLayout what =>
        obtain ⟨rfl, hpending⟩ := hskip s' h
        exact .inl ⟨rfl, ⟨hsize, what, .inl hlayout⟩, hpending⟩
      | tooLarge what =>
        obtain ⟨rfl, hpending⟩ := hskip s' h
        exact .inl ⟨rfl, ⟨hsize, what, .inr hlayout⟩, hpending⟩
      | _ => exact absurd h throw_ne_ok

theorem dropUnnamed_eq_ok {s s' : Session σ} {a : Unit} (h : dropUnnamed ctx d s = .ok a s') :
    s'.pending = s.pending ∧ s'.seen = s.seen := by
  obtain ⟨s₀, s₁, hget, h⟩ := bind_eq_ok.1 h
  obtain ⟨rfl, rfl⟩ := get_eq_ok.1 hget
  split at h
  · obtain rfl := modify_eq_ok.1 h
    exact ⟨rfl, rfl⟩
  · obtain ⟨_, rfl⟩ := pure_eq_ok.1 h
    exact ⟨rfl, rfl⟩

/-- What both kinds of record have in common: one that is met where it is declared and has no name is
dropped, and one that cannot be sized is left out. Any other is built with what is known of its
size, and asking for that changes nothing. -/
theorem sizedOrLeft_eq_ok {occasion : Occasion} {r : RecordNode} {s s' : Session σ}
    {e? : Option Entry} {build : Sizing → Extract σ (Option Entry)}
    (hdefined : r.isCxx → r.isComplete ∧ (ctx.unit.node d).isInvalid = false)
    (h : (if occasion = .declared ∧ (ctx.unit.node d).name.isEmpty then do
        dropUnnamed ctx d
        return none
      else do
        match ← sizingOf ctx d r with
        | .unsizable => return none
        | sizing => build sizing : Extract σ (Option Entry)) s = .ok e? s') :
    (e? = none ∧ ¬ HasEntry ctx occasion d r ∧ NoEntry ctx d r s s') ∨
      ∃ sizing, HasEntry ctx occasion d r ∧ sizing.Fits ctx d r ∧ build sizing s = .ok e? s' := by
  -- The drop, and what is behind it; with a size that fits, both `match` arms are `build`.
  split at h
  · next hdrop =>
    obtain ⟨_, s₁, hdropped, h⟩ := bind_eq_ok.1 h
    obtain ⟨rfl, rfl⟩ := pure_eq_ok.1 h
    obtain ⟨hpending, hseen⟩ := dropUnnamed_eq_ok hdropped
    refine .inl ⟨rfl, fun hentry => ?_, hpending, .inl hseen⟩
    exact hentry.named hdrop.1 (String.isEmpty_iff.1 hdrop.2)
  · next hdrop =>
    have hnamed : occasion = .declared → (ctx.unit.node d).name ≠ "" :=
      fun hoccasion hname => hdrop ⟨hoccasion, String.isEmpty_iff.2 hname⟩
    obtain ⟨sizing, s₁, hsizing, h⟩ := bind_eq_ok.1 h
    rcases sizingOf_eq_ok hsizing with ⟨rfl, hrefuses, hpending⟩ | ⟨hfits, rfl⟩
    · obtain ⟨rfl, rfl⟩ := pure_eq_ok.1 h
      exact .inl ⟨rfl, fun hentry => hentry.sized hrefuses.1 hrefuses.2, hpending, .inr hrefuses⟩
    · refine .inr ⟨sizing, ⟨hnamed, hdefined, hfits.not_refuses⟩, hfits, ?_⟩
      cases sizing with
      | unsizable => exact hfits.elim
      | sized layout => exact h
      | unsized => exact h

/-- Marking a record and then registering it enters it. Both builders of records do so in this order,
with different registrations. -/
theorem Enters.of_markSeen {id : Nat} {s s₁ s' : Session σ} {a : Unit}
    (hmark : markSeen ctx d s = .ok a s₁) (hregister : Builds ctx.unit d s₁ s')
    (hnumber : s'.registry.number ctx.unit d = id) (hpos : 0 < id) : Enters ctx d id s s' := by
  have hmarked : Builds ctx.unit d s s₁ := (markSeen_builds (.inl rfl)).of_ok hmark
  refine ⟨hmarked.trans hregister, ?_, hnumber, hpos⟩
  obtain rfl := modify_eq_ok.1 hmark
  exact hregister.seen _ (OrderedSet.mem_insert_self _ _)

/-- A record of C, without an entry or with one. -/
theorem buildRecord?_eq_ok {occasion : Occasion} {r : RecordNode} {s s' : Session σ}
    {e? : Option Entry} (hcxx : r.isCxx = false)
    (h : buildRecord? ctx occasion d r s = .ok e? s') :
    (e? = none ∧ ¬ HasEntry ctx occasion d r ∧ NoEntry ctx d r s s') ∨
      ∃ e, e? = some e ∧ HasEntry ctx occasion d r ∧ Makes ctx d r s s' e := by
  rcases sizedOrLeft_eq_ok (by simp [hcxx]) h with hleft | ⟨sizing, hentry, hfits, h⟩
  · exact .inl hleft
  · obtain ⟨_, s₁, hmark, h⟩ := bind_eq_ok.1 h
    obtain ⟨id, s₂, hregister, h⟩ := bind_eq_ok.1 h
    obtain ⟨b, s₃, hbody, h⟩ := bind_eq_ok.1 h
    obtain ⟨rfl, rfl⟩ := pure_eq_ok.1 h
    have hregistered : Builds ctx.unit d s₁ s₂ := (register_builds (some d)).of_ok hregister
    have henters : Enters ctx d id s s₂ := by
      cases modifyGet_eq_ok.1 hregister
      exact .of_markSeen hmark hregistered rfl (Registry.register_pos _ _ _)
    exact .inr ⟨_, rfl, hentry, .record hcxx hfits henters hbody⟩

/-- A record of C++. The first branch leaves out what has no valid definition, which is the second field
of `HasEntry`. -/
theorem buildClass?_eq_ok {occasion : Occasion} {r : RecordNode} {s s' : Session σ}
    {e? : Option Entry} (hcxx : r.isCxx) (h : buildClass? ctx occasion d r s = .ok e? s') :
    (e? = none ∧ ¬ HasEntry ctx occasion d r ∧ NoEntry ctx d r s s') ∨
      ∃ e, e? = some e ∧ HasEntry ctx occasion d r ∧ Makes ctx d r s s' e := by
  unfold buildClass? at h
  dsimp only at h
  split at h
  · next hundefined =>
    obtain ⟨rfl, rfl⟩ := pure_eq_ok.1 h
    refine .inl ⟨rfl, fun hentry => ?_, rfl, .inl rfl⟩
    obtain ⟨hcomplete, hvalid⟩ := hentry.defined hcxx
    simp [hcomplete, hvalid] at hundefined
  · next hdefined =>
    rcases sizedOrLeft_eq_ok (fun _ => by simpa using hdefined) h with hleft | ⟨sizing, hentry, hfits, h⟩
    · exact .inl hleft
    · obtain ⟨args?, s₁, hargs, h⟩ := bind_eq_ok.1 h
      obtain ⟨_, s₂, hmark, h⟩ := bind_eq_ok.1 h
      obtain ⟨id, s₃, hregister, h⟩ := bind_eq_ok.1 h
      obtain ⟨methods, s₄, hmethods, h⟩ := bind_eq_ok.1 h
      obtain ⟨b, s₅, hbody, h⟩ := bind_eq_ok.1 h
      obtain ⟨parents, s₆, hparents, h⟩ := bind_eq_ok.1 h
      obtain ⟨rfl, rfl⟩ := pure_eq_ok.1 h
      have hregistered : Builds ctx.unit d s₂ s₃ := (registerClass_builds (some d)).of_ok hregister
      have henters : Enters ctx d id s₁ s₃ := by
        cases modifyGet_eq_ok.1 hregister
        exact .of_markSeen hmark hregistered rfl (Registry.registerClass_pos _ _ _)
      exact .inr
        ⟨_, rfl, hentry, .classRecord hcxx hfits hargs henters hmethods hbody hparents⟩

/-- **A record that is met has an entry exactly when it should**; without one nothing is queued. -/
theorem buildAnyRecord?_eq_ok {occasion : Occasion} {r : RecordNode} {s s' : Session σ}
    {e? : Option Entry} (h : buildAnyRecord? ctx occasion d r s = .ok e? s') :
    (e? = none ∧ ¬ HasEntry ctx occasion d r ∧ NoEntry ctx d r s s') ∨
      ∃ e, e? = some e ∧ HasEntry ctx occasion d r ∧ Makes ctx d r s s' e := by
  unfold buildAnyRecord? at h
  split at h
  · next hcxx => exact buildClass?_eq_ok hcxx h
  · next hcxx => exact buildRecord?_eq_ok (by simpa using hcxx) h

/-- The same for a record that was queued, and for what is no record. -/
theorem buildPending?_eq_ok {s s' : Session σ} {e? : Option Entry}
    (h : buildPending? ctx d s = .ok e? s') :
    (e? = none ∧ (ctx.unit.node d).record? = none ∧ s' = s) ∨
      (∃ r, e? = none ∧ (ctx.unit.node d).record? = some r ∧ ¬ HasEntry ctx .referred d r ∧
        NoEntry ctx d r s s') ∨
      ∃ r e, e? = some e ∧ (ctx.unit.node d).record? = some r ∧ HasEntry ctx .referred d r ∧
        Makes ctx d r s s' e := by
  cases hr : (ctx.unit.node d).record? with
  | some r =>
    simp only [buildPending?, hr] at h
    rcases buildAnyRecord?_eq_ok h with ⟨he, hentry, hno⟩ | ⟨e, he, hentry, hmakes⟩
    · exact .inr (.inl ⟨r, he, rfl, hentry, hno⟩)
    · exact .inr (.inr ⟨r, e, he, rfl, hentry, hmakes⟩)
  | none =>
    simp only [buildPending?, hr] at h
    obtain ⟨he, hs⟩ := pure_eq_ok.1 h
    exact .inl ⟨he.symm, rfl, hs.symm⟩

/-! ## What comes with the entry of a record -/

/-- Whatever is known of its size, a record has its number and its name, and nothing put in yet. -/
theorem buildBody_header (x : DeclId) (r : RecordNode) (id : Nat) (sizing : Sizing) :
    Returns (fun b : RecordEntry => b.id = id ∧ b.info = { name := (ctx.unit.node x).name })
      (buildBody ctx x r id sizing) := by
  unfold buildBody
  cases sizing with
  | sized layout => exact .bind fun _ => returns_pure ⟨rfl, rfl⟩
  | unsized => exact returns_pure ⟨rfl, rfl⟩
  | unsizable => exact returns_pure ⟨rfl, rfl⟩

/-- A record with an entry was marked as seen, and the entry has its number. This is what other modules
need of `Makes` where they do not look into the entry. -/
structure WithEntry (ctx : Context σ) (d : DeclId) (e : Entry) (s' : Session σ) : Prop where
  seen : ctx.unit.canonical d ∈ s'.seen
  id : e.recordId? = some (s'.registry.number ctx.unit d)
  pos : 0 < s'.registry.number ctx.unit d

/-- A number that was given to `d` is its number from then on. -/
theorem Enters.withEntry {e : Entry} {id : Nat} {s s₁ s' : Session σ} (h : Enters ctx d id s s₁)
    (hbuilds : Builds ctx.unit d s₁ s') (he : e.recordId? = some id) : WithEntry ctx d e s' := by
  obtain ⟨_, hseen, rfl, hpos⟩ := h
  have hnumber := hbuilds.registry.number_eq hpos
  exact ⟨hbuilds.seen _ hseen, by rw [hnumber, he], by rw [hnumber]; exact hpos⟩

/-- A record that was entered keeps its number and its mark while the rest of its entry is made. -/
theorem Makes.withEntry {r : RecordNode} {e : Entry} {s s' : Session σ}
    (h : Makes ctx d r s s' e) : WithEntry ctx d e s' := by
  cases h with
  | record _ _ enters body =>
    obtain ⟨hid, _⟩ := buildBody_header _ _ _ _ _ _ _ body
    exact enters.withEntry ((buildBody_builds _ _ _ _).of_ok body) (congrArg some hid)
  | classRecord _ _ _ enters methods body parents =>
    obtain ⟨hid, _⟩ := buildBody_header _ _ _ _ _ _ _ body
    have hbuilds : Builds ctx.unit d _ s' := ((buildMethods_builds _ _).of_ok methods).trans
      (((buildBody_builds _ _ _ _).of_ok body).trans ((buildParents_builds _ _ _).of_ok parents))
    exact enters.withEntry hbuilds (congrArg some hid)

end Extract

end ForeignDecl
