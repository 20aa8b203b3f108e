import ForeignDecl.Proofs.Extract.Listing
import ForeignDecl.Proofs.Extract.Telling

/-!
# Unnamed records are written once

An unnamed record is written when something refers to it, and before what refers to it unless that is
an unnamed record too: those may refer to each other, so one of them has to come first. However often
it is referred to, it is written once.

Between being marked as seen and being written, an unnamed record waits for the ones it refers to.
`Ledger` is what holds meanwhile, with the records that wait as a list. When nothing is queued and
nothing waits, everything seen was written; that is so between declarations, and it is where
`document_tells_unnamed` is read off.
-/

set_option autoImplicit false

namespace ForeignDecl

/-- An unnamed record that is written when something refers to it: it is valid, a C++ record has a
definition, and there is a layout if one is needed. The condition speaks of the unit and the oracle
only, so it can be checked before a run. -/
structure TranslationUnit.CanBeTold (u : TranslationUnit) (oracle : LayoutOracle) (d : DeclId) :
    Prop where
  unnamed : u.IsUnnamedRecord d
  valid : (u.node d).isInvalid = false
  told : ∃ r, (u.node d).record? = some r ∧ (r.isCxx → r.isComplete) ∧
    (r.NeedsSize → ∃ layout, oracle.record d = .ok layout)

namespace Extract

variable {σ : Type} {ctx : Context σ}

/-- `e` tells the unnamed record `d`, under its number. `built` says more than the number: the entry was
made by the builder of queued records, for this declaration. -/
structure TellsUnnamed (ctx : Context σ) (r : Registry) (d : DeclId) (e : Entry) : Prop where
  unnamed : ctx.unit.IsUnnamedRecord d
  pos : 0 < r.number ctx.unit d
  id : e.recordId? = some (r.number ctx.unit d)
  built : ∃ s e₀ s' scope, buildPending? ctx d s = .ok (some e₀) s' ∧
    e = stamp scope (ctx.unit.node d).locationText e₀

/-- Every reference of `e` is the number of an unnamed record and of nothing else, and the record has
`P` if it can be told. With `P` saying that it was told, or told before, this is what is promised about
an entry. -/
structure RefersTo (ctx : Context σ) (r : Registry) (P : DeclId → Prop) (e : Entry) : Prop where
  numbered : ∀ id ∈ e.unnamedRecords,
    0 < id ∧ ∃ d, ctx.unit.IsUnnamedRecord d ∧ ∀ x, r.number ctx.unit x = id ↔ x = d
  all : ∀ d, ctx.unit.CanBeTold ctx.oracle d → r.number ctx.unit d ∈ e.unnamedRecords → P d

/-- The entries of unnamed records among `es` tell `told`, each once. Whatever is referred to is
among them, and before the entry that refers to it unless this one tells an unnamed record too. -/
structure TellsOnce (ctx : Context σ) (r : Registry) (es : List Entry) (told : List DeclId) :
    Prop where
  entries : List.Forall₂ (TellsUnnamed ctx r) told (es.filter Entry.isUnnamedRecord)
  nodup : told.Nodup
  refers : ∀ e ∈ es, RefersTo ctx r (· ∈ told) e
  before : ∀ pre e post, es = pre ++ e :: post → e.isUnnamedRecord = false →
    RefersTo ctx r (fun d => ∃ e' ∈ pre, TellsUnnamed ctx r d e') e

theorem exists_entry_of_told {ctx : Context σ} {r : Registry} {es : List Entry} {told : List DeclId}
    {d : DeclId} (h : List.Forall₂ (TellsUnnamed ctx r) told (es.filter Entry.isUnnamedRecord))
    (hd : d ∈ told) : ∃ e ∈ es, TellsUnnamed ctx r d e := by
  obtain ⟨hlength, hget⟩ := List.forall₂_iff_get.1 h
  obtain ⟨i, hi, rfl⟩ := List.getElem_of_mem hd
  exact ⟨_, List.mem_of_mem_filter (List.getElem_mem (hlength ▸ hi)), hget i hi (hlength ▸ hi)⟩

/-- The books of a run: `seen` are the declarations that were marked, `es` the entries so far, and
`waiting` the unnamed records that were built and are not written yet. A record that refers to itself,
or to one that refers back, is seen and not told while its queue is written; `waiting` is there for
these. The first four fields become `TellsOnce` when nothing waits, and the last three tie the marks to
the entries. -/
structure Ledger (ctx : Context σ) (r : Registry) (waiting : List DeclId)
    (seen : OrderedSet DeclId) (es : List Entry) (told : List DeclId) : Prop where
  entries : List.Forall₂ (TellsUnnamed ctx r) told (es.filter Entry.isUnnamedRecord)
  nodup : told.Nodup
  refers : ∀ e ∈ es, RefersTo ctx r (· ∈ seen) e
  before : ∀ pre e post, es = pre ++ e :: post → e.isUnnamedRecord = false →
    RefersTo ctx r (fun d => ∃ e' ∈ pre, TellsUnnamed ctx r d e') e
  seen_of_told : ∀ d ∈ told, d ∈ seen ∧ d ∉ waiting
  seen_of_waiting : ∀ d ∈ waiting, d ∈ seen
  of_seen : ∀ d ∈ seen, ctx.unit.CanBeTold ctx.oracle d → d ∈ waiting ∨ d ∈ told

end Extract

/-! ## Records that can be told -/

namespace TranslationUnit.CanBeTold

variable {σ : Type} {ctx : Context σ} {d : DeclId} {r : RecordNode}

theorem not_refuses (h : ctx.unit.CanBeTold ctx.oracle d) (hr : (ctx.unit.node d).record? = some r)
    (hneeds : r.NeedsSize) : ¬ ctx.oracle.Refuses d := by
  obtain ⟨r', hr', _, hsized⟩ := h.told
  obtain rfl := Option.some.inj (hr.symm.trans hr')
  obtain ⟨layout, hlayout⟩ := hsized hneeds
  exact LayoutOracle.not_refuses_of_ok hlayout

/-- Such a record has an entry where it is referred to. -/
theorem hasEntry (h : ctx.unit.CanBeTold ctx.oracle d) (hr : (ctx.unit.node d).record? = some r) :
    Extract.HasEntry ctx .referred d r := by
  obtain ⟨r', hr', hdefined, _⟩ := h.told
  obtain rfl := Option.some.inj (hr.symm.trans hr')
  exact ⟨by simp, fun hcxx => ⟨hdefined hcxx, h.valid⟩, h.not_refuses hr⟩

end TranslationUnit.CanBeTold

namespace Extract

variable {σ : Type} {ctx : Context σ} {r : Registry} {d : DeclId}

/-- What a builder marks as seen and can be told is the declaration it is for. -/
theorem eq_of_seen (honce : ctx.unit.UnnamedDeclaredOnce) {s s' : Session σ}
    (h : Builds ctx.unit d s s') {c : DeclId} (hc : c ∈ s'.seen)
    (htold : ctx.unit.CanBeTold ctx.oracle c) : c ∈ s.seen ∨ c = d := by
  rcases h.of_seen c hc with hc | ⟨x, hx, hxd⟩
  · exact .inl hc
  obtain rfl := honce.eq_of_canonical c x htold.unnamed hx.symm
  rcases hxd with rfl | hnone
  · exact .inr rfl
  · obtain ⟨r, hr, _⟩ := htold.told
    rw [hnone] at hr
    cases hr

/-- Where it is declared, an unnamed record is not marked as seen. -/
theorem seen_of_build? (honce : ctx.unit.UnnamedDeclaredOnce) {s s' : Session σ} {e? : Option Entry}
    (h : build? ctx d s = .ok e? s') {c : DeclId} (hc : c ∈ s'.seen)
    (htold : ctx.unit.CanBeTold ctx.oracle c) : c ∈ s.seen := by
  rcases eq_of_seen honce ((build?_builds d).of_ok h) hc htold with hseen | rfl
  · exact hseen
  obtain ⟨r, hr, _⟩ := htold.told
  rw [build?_of_record (Node.record?_eq_some.1 hr)] at h
  rcases buildAnyRecord?_eq_ok h with ⟨_, _, hno⟩ | ⟨_, _, hentry, _⟩
  · rcases hno.seen with hseen | ⟨hneeds, hrefuses⟩
    · rwa [hseen] at hc
    · exact absurd hrefuses (htold.not_refuses hr hneeds)
  · exact absurd htold.unnamed.1 (hentry.named rfl)

/-- A queued record without an entry cannot be told, and nothing that can be told was marked. -/
theorem buildPending?_eq_none (honce : ctx.unit.UnnamedDeclaredOnce) {s s' : Session σ}
    (h : buildPending? ctx d s = .ok none s') :
    ¬ ctx.unit.CanBeTold ctx.oracle d ∧
      ∀ c ∈ s'.seen, ctx.unit.CanBeTold ctx.oracle c → c ∈ s.seen := by
  have hd : ¬ ctx.unit.CanBeTold ctx.oracle d := by
    intro htold
    obtain ⟨r, hr, _⟩ := htold.told
    rcases buildPending?_eq_ok h with ⟨_, hnone, _⟩ | ⟨r', _, hr', hentry, _⟩ | ⟨_, _, he, _⟩
    · rw [hnone] at hr
      cases hr
    · exact hentry (htold.hasEntry hr')
    · cases he
  refine ⟨hd, fun c hc htold => ?_⟩
  rcases eq_of_seen honce ((buildPending?_builds d).of_ok h) hc htold with hseen | rfl
  · exact hseen
  · exact absurd htold hd

/-- The entry of a queued record tells it, with whatever stamp. The registry may have grown since, up to
the one at the end of the run. -/
theorem tellsUnnamed_of_buildPending? {s s' : Session σ} {e : Entry}
    (hd : ctx.unit.IsUnnamedRecord d) (h : buildPending? ctx d s = .ok (some e) s')
    (hr : s'.registry.Grows r) (scope : Nat) :
    ctx.unit.canonical d ∈ s'.seen ∧
      TellsUnnamed ctx r d (stamp scope (ctx.unit.node d).locationText e) := by
  rcases buildPending?_eq_ok h with ⟨he, _⟩ | ⟨_, he, _⟩ | ⟨_, _, he, _, _, hmakes⟩
  · cases he
  · cases he
  cases he
  have hwith := hmakes.withEntry
  have hnumber := hr.number_eq hwith.pos
  refine ⟨hwith.seen, hd, ?_, ?_, s, e, s', scope, h, rfl⟩
  · rw [hnumber]
    exact hwith.pos
  · rw [recordId?_stamp, hwith.id, hnumber]

/-! ## References -/

/-- What is known of the records that can be told may be replaced by what follows from it. -/
theorem RefersTo.mono {P Q : DeclId → Prop} {e : Entry} (h : RefersTo ctx r P e)
    (hPQ : ∀ d, ctx.unit.CanBeTold ctx.oracle d → P d → Q d) : RefersTo ctx r Q e :=
  ⟨h.numbered, fun d hd hid => hPQ d hd (h.all d hd hid)⟩

theorem refersTo_stamp {P : DeclId → Prop} {scope : Nat} {location : String} {e : Entry}
    (h : RefersTo ctx r P e) : RefersTo ctx r P (stamp scope location e) :=
  ⟨by simpa using h.numbered, by simpa using h.all⟩

/-- An unnamed record shares its number with no other declaration. -/
theorem number_eq_iff (honce : ctx.unit.UnnamedDeclaredOnce) (hd : ctx.unit.IsUnnamedRecord d)
    (hpos : 0 < r.number ctx.unit d) {x : DeclId} :
    r.number ctx.unit x = r.number ctx.unit d ↔ x = d := by
  constructor
  · intro h
    have hcanonical := Registry.canonical_eq_of_number_eq hpos h.symm
    rw [honce.canonical_eq d hd] at hcanonical
    exact honce.eq_of_canonical d x hd hcanonical.symm
  · rintro rfl
    rfl

/-- References that are known when a type was described are known as long as entries are built. -/
theorem tells_known : TellsOf ctx fun s _ ref => Covers ctx.unit s [ref] where
  describe h := describe_covers h
  bitfield {_ _ ref} _ h := covers_congr (t := ref) rfl h
  mono hb h := h.mono hb

/-- All that a declaration tells of types is known, if each description was. -/
theorem covers_of_toldAs {s : Session σ} {ts : List TypeId} {refs : List TypeRef}
    (h : ToldAs (fun _ ref => Covers ctx.unit s [ref]) ts refs) : Covers ctx.unit s refs := by
  intro ref href
  rcases h.exists_type ref href with ⟨name, rfl⟩ | ⟨_, _, hcovers⟩
  · simp [TypeRef.unnamedRecords]
  · exact hcovers ref (by simp)

/-- What was known when an entry was built is what it refers to: records that were seen then, and
others that were queued and are seen now. -/
theorem refersTo_of_covers (honce : ctx.unit.UnnamedDeclaredOnce) {s : Session σ} {e : Entry}
    {seen : OrderedSet DeclId} (h : Covers ctx.unit s e.types) (hr : s.registry.Grows r)
    (hseen : ∀ c ∈ s.seen, c ∈ seen)
    (hpending : ∀ c ∈ s.pending, ctx.unit.CanBeTold ctx.oracle c → c ∈ seen) :
    RefersTo ctx r (· ∈ seen) e := by
  have hknown : ∀ id ∈ e.unnamedRecords, IsKnown ctx.unit s id := by
    intro id hid
    obtain ⟨t, ht, hid⟩ := List.mem_flatMap.1 hid
    exact h t ht id hid
  constructor
  · intro id hid
    obtain ⟨hpos, x, hx, rfl, _⟩ := hknown id hid
    refine ⟨hpos, x, hx, fun y => ?_⟩
    rw [← hr.number_eq hpos]
    exact number_eq_iff honce hx (hr.number_eq hpos ▸ hpos)
  · intro d hd hid
    obtain ⟨hpos, x, hx, hnumber, hmark⟩ := hknown _ hid
    rw [← hnumber] at hpos
    obtain rfl := (number_eq_iff honce hx (hr.number_eq hpos ▸ hpos)).1
      (hnumber.symm.trans (hr.number_eq hpos).symm)
    rw [honce.canonical_eq d hx] at hmark
    exact hmark.elim (hseen d) fun hmem => hpending d hmem hd

/-! ## Keeping the books -/

namespace Ledger

variable {waiting : List DeclId} {seen seen' : OrderedSet DeclId} {es : List Entry} {e : Entry}
  {told : List DeclId}

/-- The books of a run that has not begun. -/
theorem empty : Ledger ctx r [] ∅ [] [] where
  entries := .nil
  nodup := List.nodup_nil
  refers := by simp
  before := by simp
  seen_of_told := by simp
  seen_of_waiting := by simp
  of_seen d hd := absurd hd (OrderedSet.not_mem_empty d)

/-- Nothing that can be told was marked. Building a declaration marks it and its methods, and what is
marked in this way has no place in the books. -/
theorem mark (h : Ledger ctx r waiting seen es told) (hgrows : ∀ c ∈ seen, c ∈ seen')
    (hnew : ∀ c ∈ seen', ctx.unit.CanBeTold ctx.oracle c → c ∈ seen) :
    Ledger ctx r waiting seen' es told where
  entries := h.entries
  nodup := h.nodup
  refers e he := (h.refers e he).mono fun d _ => hgrows d
  before := h.before
  seen_of_told d hd := ⟨hgrows d (h.seen_of_told d hd).1, (h.seen_of_told d hd).2⟩
  seen_of_waiting d hd := hgrows d (h.seen_of_waiting d hd)
  of_seen d hd htold := h.of_seen d (hnew d hd htold) htold

/-- An unnamed record was built, so it waits. From here on it counts as seen, and references to it are
settled although its entry is not there yet. -/
theorem wait (h : Ledger ctx r waiting seen es told) (hgrows : ∀ c ∈ seen, c ∈ seen')
    (hunseen : d ∉ seen) (hseen : d ∈ seen')
    (hnew : ∀ c ∈ seen', ctx.unit.CanBeTold ctx.oracle c → c ∈ seen ∨ c = d) :
    Ledger ctx r (d :: waiting) seen' es told where
  entries := h.entries
  nodup := h.nodup
  refers e he := (h.refers e he).mono fun d _ => hgrows d
  before := h.before
  seen_of_told d' hd' := by
    obtain ⟨hseen', hwaiting⟩ := h.seen_of_told d' hd'
    refine ⟨hgrows d' hseen', ?_⟩
    rw [List.mem_cons, not_or]
    exact ⟨fun heq => hunseen (heq ▸ hseen'), hwaiting⟩
  seen_of_waiting d' hd' := by
    rcases List.mem_cons.1 hd' with rfl | hd'
    · exact hseen
    · exact hgrows d' (h.seen_of_waiting d' hd')
  of_seen d' hd' htold := by
    rcases hnew d' hd' htold with hd' | rfl
    · exact (h.of_seen d' hd' htold).imp (List.mem_cons_of_mem _) id
    · exact .inl (by simp)

/-- One more entry, if everything it refers to was told before it or it is one of an unnamed record. -/
theorem before_append (h : Ledger ctx r waiting seen es told)
    (he : e.isUnnamedRecord = false →
      RefersTo ctx r (fun d => ∃ e' ∈ es, TellsUnnamed ctx r d e') e) :
    ∀ pre e' post, es ++ [e] = pre ++ e' :: post → e'.isUnnamedRecord = false →
      RefersTo ctx r (fun d => ∃ e'' ∈ pre, TellsUnnamed ctx r d e'') e' := by
  -- The entry asked about is the new one, or it was there with the same entries before it.
  intro pre e' post heq
  rcases List.eq_nil_or_concat' post with rfl | ⟨post', last, rfl⟩
  · obtain ⟨rfl, hlast⟩ := List.append_inj' heq rfl
    cases hlast
    exact he
  · rw [← List.cons_append, ← List.append_assoc] at heq
    obtain ⟨rfl, _⟩ := List.append_inj' heq rfl
    exact h.before pre e' post' rfl

/-- One more entry, if it refers to what was seen. -/
theorem refers_append (h : Ledger ctx r waiting seen es told) (he : RefersTo ctx r (· ∈ seen) e) :
    ∀ e' ∈ es ++ [e], RefersTo ctx r (· ∈ seen) e' := by
  intro e' he'
  rcases List.mem_append.1 he' with he' | he'
  · exact h.refers e' he'
  · rw [List.mem_singleton] at he'
    exact he' ▸ he

/-- An unnamed record that waited is written. -/
theorem tell (h : Ledger ctx r (d :: waiting) seen es told) (hd : d ∉ waiting)
    (htells : TellsUnnamed ctx r d e) (hunnamed : e.isUnnamedRecord)
    (hrefers : RefersTo ctx r (· ∈ seen) e) :
    Ledger ctx r waiting seen (es ++ [e]) (told ++ [d]) where
  entries := by
    rw [List.filter_append, List.filter_cons_of_pos hunnamed]
    exact List.rel_append h.entries (.cons htells .nil)
  nodup := by
    -- It waited until now, and nothing that waits was told.
    have hnew : d ∉ told := fun hmem => (h.seen_of_told d hmem).2 (by simp)
    rw [List.nodup_append]
    refine ⟨h.nodup, by simp, fun d' hd' x hx => ?_⟩
    rw [List.mem_singleton.1 hx]
    exact fun heq => hnew (heq ▸ hd')
  refers := h.refers_append hrefers
  before := h.before_append fun hnamed => by simp [hunnamed] at hnamed
  seen_of_told d' hd' := by
    rcases List.mem_append.1 hd' with hd' | hd'
    · obtain ⟨hseen, hwaiting⟩ := h.seen_of_told d' hd'
      exact ⟨hseen, fun hmem => hwaiting (by simp [hmem])⟩
    · rw [List.mem_singleton.1 hd']
      exact ⟨h.seen_of_waiting d (by simp), hd⟩
  seen_of_waiting d' hd' := h.seen_of_waiting d' (by simp [hd'])
  of_seen d' hd' htold := by
    rcases h.of_seen d' hd' htold with hwaiting | hmem
    · rcases List.mem_cons.1 hwaiting with rfl | hwaiting
      · exact .inr (by simp)
      · exact .inl hwaiting
    · exact .inr (by simp [hmem])

/-- Anything else is written when no unnamed record waits, so all that it refers to were written. This
is the only place where the emptiness of `waiting` is needed, and it gives the order. -/
theorem write (h : Ledger ctx r [] seen es told) (hnamed : e.isUnnamedRecord = false)
    (hrefers : RefersTo ctx r (· ∈ seen) e) : Ledger ctx r [] seen (es ++ [e]) told where
  entries := by
    rw [List.filter_append, List.filter_cons_of_neg (by simp [hnamed]), List.filter_nil,
      List.append_nil]
    exact h.entries
  nodup := h.nodup
  refers := h.refers_append hrefers
  before := by
    refine h.before_append fun _ => hrefers.mono fun d htold hseen => ?_
    have hd : d ∈ told := by simpa using h.of_seen d hseen htold
    obtain ⟨e', he', htells⟩ := exists_entry_of_told h.entries hd
    exact ⟨e', he', htells⟩
  seen_of_told := h.seen_of_told
  seen_of_waiting := h.seen_of_waiting
  of_seen := h.of_seen

/-- **Between declarations, all books are closed.** -/
theorem tellsOnce (h : Ledger ctx r [] seen es told) : TellsOnce ctx r es told where
  entries := h.entries
  nodup := h.nodup
  refers e he := (h.refers e he).mono fun d htold hseen => by simpa using h.of_seen d hseen htold
  before := h.before

end Ledger

/-! ## Runs -/

/-- A queued record keeps the books, if writing what it refers to does: that is written while the record
waits, and then the record itself. The hypothesis `queue` is the induction of `Flushes.ledger` at the
inner queue; without an entry the books stay as they are but for the marks. -/
theorem Ledger.own (honce : ctx.unit.UnnamedDeclaredOnce) (hd : ctx.unit.IsUnnamedRecord d)
    {waiting told : List DeclId} {s s₁ s₂ s₃ : Session σ} {e? : Option Entry}
    {written new own : List Entry} (h : Ledger ctx r waiting s.seen written told)
    (build : buildPending? ctx d s = .ok e? s₁) (hunseen : d ∉ s.seen)
    (hgrows : ∀ c ∈ s₁.seen, c ∈ s₂.seen) (hr : s₁.registry.Grows r)
    (queue : ∀ waiting told, Ledger ctx r waiting s₁.seen written told →
      (∃ told', Ledger ctx r waiting s₂.seen (written ++ new) told') ∧
        ∀ c ∈ s₁.pending, ctx.unit.CanBeTold ctx.oracle c → c ∈ s₂.seen)
    (write : WritesOwn ctx d s₂ s₃ e? own) :
    (∃ told', Ledger ctx r waiting s₃.seen (written ++ (new ++ own)) told') ∧
      (ctx.unit.CanBeTold ctx.oracle d → d ∈ s₃.seen) := by
  have hbuilds : Builds ctx.unit d s s₁ := (buildPending?_builds d).of_ok build
  rw [write.seen, ← List.append_assoc]
  cases e? with
  | none =>
    obtain ⟨hnot, hmarked⟩ := buildPending?_eq_none honce build
    obtain ⟨⟨told', hkept⟩, _⟩ := queue _ _ (h.mark hbuilds.seen hmarked)
    rw [write.2, List.append_nil]
    exact ⟨⟨told', hkept⟩, fun htold => absurd htold hnot⟩
  | some e =>
    obtain ⟨hseen, htells⟩ := tellsUnnamed_of_buildPending? hd build hr
      (s₂.registry.register ctx.unit s₂.scope?).1
    rw [honce.canonical_eq d hd] at hseen
    -- While its queue is written the record waits: it is marked as seen, but not told yet.
    have hwaits : Ledger ctx r (d :: waiting) s₁.seen written told :=
      h.wait hbuilds.seen hunseen hseen fun c hc htold => eq_of_seen honce hbuilds hc htold
    obtain ⟨⟨told', hkept⟩, hall⟩ := queue _ _ hwaits
    have hnew : d ∉ waiting := fun hmem => hunseen (h.seen_of_waiting d hmem)
    have hrefers : RefersTo ctx r (· ∈ s₂.seen) e :=
      refersTo_of_covers honce (covers_of_toldAs (buildPending?_tells tells_known build)) hr hgrows
        hall
    have hunnamed := isUnnamedRecord_of_buildPending? hd build
    rw [write.2]
    exact ⟨⟨_, hkept.tell hnew htells (by simpa using hunnamed) (refersTo_stamp hrefers)⟩,
      fun _ => hgrows d hseen⟩

/-- **Writing the queue keeps the books**, and afterwards everything in it that can be told was
marked. -/
theorem Flushes.ledger (honce : ctx.unit.UnnamedDeclaredOnce) {queue waiting told : List DeclId}
    {s s' : Session σ} {written new : List Entry} (h : Flushes ctx queue s new s')
    (hs : s.pending = ∅) (hqueue : ∀ d ∈ queue, ctx.unit.IsUnnamedRecord d)
    (hr : s'.registry.Grows r) (hledger : Ledger ctx r waiting s.seen written told) :
    (∃ told', Ledger ctx r waiting s'.seen (written ++ new) told') ∧
      ∀ d ∈ queue, ctx.unit.CanBeTold ctx.oracle d → d ∈ s'.seen := by
  -- The queue of a queued record is written while that record waits, so `waiting` varies.
  induction h generalizing waiting written told with
  | nil => exact ⟨⟨told, by simpa using hledger⟩, by simp⟩
  | @seen d ds s s' new hseen rest ih =>
    obtain ⟨hkept, hall⟩ := ih hs (fun d hd => hqueue d (by simp [hd])) hr hledger
    rw [honce.canonical_eq d (hqueue d (by simp))] at hseen
    refine ⟨hkept, fun d' hd' htold => ?_⟩
    rcases List.mem_cons.1 hd' with rfl | hd'
    · exact rest.wrote.seen _ hseen
    · exact hall d' hd' htold
  | @unseen d ds s s₁ s₂ s₃ s' e? new own new' hunseen build queue write rest ihqueue ihrest =>
    have hd := hqueue d (by simp)
    rw [honce.canonical_eq d hd] at hunseen
    have hbuilds : Builds ctx.unit d s s₁ := (buildPending?_builds d).of_ok build
    have hqueued := unnamed_of_pending honce hbuilds hs
    have hr₃ : s₃.registry.Grows r := rest.wrote.registry.trans hr
    have hr₂ : s₂.registry.Grows r := write.wrote.registry.trans hr₃
    have hr₁ : s₁.registry.Grows r := queue.wrote.registry.trans hr₂
    obtain ⟨⟨told', hkept⟩, htold⟩ := hledger.own honce hd build hunseen queue.wrote.seen hr₁
      (fun _ _ hwaits => ihqueue rfl hqueued hr₂ hwaits) write
    obtain ⟨hdone, hall⟩ := ihrest (write.pending.trans (queue.pending rfl))
      (fun d hd => hqueue d (by simp [hd])) hr hkept
    refine ⟨by simpa using hdone, fun d' hd' htold' => ?_⟩
    rcases List.mem_cons.1 hd' with rfl | hd'
    · exact rest.wrote.seen _ (htold htold')
    · exact hall d' hd' htold'

/-- Before an entry that is met where it is declared, everything queued for it is written. -/
theorem Emits.ledger (honce : ctx.unit.UnnamedDeclaredOnce) {told : List DeclId}
    {s s₁ s' : Session σ} {e? : Option Entry} {written new : List Entry}
    (build : build? ctx d s = .ok e? s₁) (h : Emits ctx d e? s₁ new s') (hs : s.pending = ∅)
    (hr : s'.registry.Grows r) (hledger : Ledger ctx r [] s.seen written told) :
    ∃ told', Ledger ctx r [] s'.seen (written ++ new) told' := by
  obtain ⟨queued, own, s₂, queue, write, rfl⟩ := h
  have hbuilds : Builds ctx.unit d s s₁ := (build?_builds d).of_ok build
  have hr₂ : s₂.registry.Grows r := write.wrote.registry.trans hr
  have hr₁ : s₁.registry.Grows r := queue.wrote.registry.trans hr₂
  have hmarked : Ledger ctx r [] s₁.seen written told :=
    hledger.mark hbuilds.seen fun c hc htold => seen_of_build? honce build hc htold
  obtain ⟨⟨told', hkept⟩, hall⟩ :=
    queue.ledger honce rfl (unnamed_of_pending honce hbuilds hs) hr₂ hmarked
  rw [write.seen, ← List.append_assoc]
  refine ⟨told', ?_⟩
  cases e? with
  | none =>
    rw [write.2, List.append_nil]
    exact hkept
  | some e =>
    have hrefers : RefersTo ctx r (· ∈ s₂.seen) e :=
      refersTo_of_covers honce (covers_of_toldAs (build?_tells tells_known build)) hr₁
        queue.wrote.seen hall
    have hnamed := not_isUnnamedRecord_of_build? build
    rw [write.2]
    exact hkept.write (by simpa using hnamed) (refersTo_stamp hrefers)

/-- **A visit keeps the books**, and nothing waits before and after it. -/
theorem Visits.ledger (honce : ctx.unit.UnnamedDeclaredOnce) {n : Nat} {scope? : Option DeclId}
    {ds told : List DeclId} {s s' : Session σ} {written new : List Entry}
    (h : Visits ctx n scope? ds s new s') (hs : s.pending = ∅) (hr : s'.registry.Grows r)
    (hledger : Ledger ctx r [] s.seen written told) :
    ∃ told', Ledger ctx r [] s'.seen (written ++ new) told' := by
  induction h generalizing written told with
  | nil => exact ⟨told, by simpa using hledger⟩
  | tooDeep => exact ⟨told, by simpa using hledger⟩
  | invalid _ _ ih => exact ih hs hr hledger
  | passed _ _ members rest ihmembers ihrest =>
    obtain ⟨told', hkept⟩ := ihmembers hs (rest.wrote.registry.trans hr) hledger
    rw [← List.append_assoc]
    exact ihrest (members.pending hs) hr hkept
  | written _ _ build emit members rest ihmembers ihrest =>
    have hr₃ := rest.wrote.registry.trans hr
    have hr₂ := members.wrote.registry.trans hr₃
    obtain ⟨_, hown⟩ := emit.ledger honce build hs hr₂ hledger
    obtain ⟨_, hkept⟩ := ihmembers emit.pending hr₃ hown
    rw [← List.append_assoc, ← List.append_assoc]
    exact ihrest (members.pending emit.pending) hr hkept

/-- **A document tells unnamed records once, where they are needed.** No record is told twice; one
that is referred to from any entry, at any depth of its types, is told if it can be, under the number
that is referred to; and it is told before what refers to it, unless this is an unnamed record. -/
theorem document_tells_unnamed {w : DocumentWriter σ} {page : σ} (u : TranslationUnit)
    (oracle : LayoutOracle) (namespaceName? : Option String) (honce : u.UnnamedDeclaredOnce)
    {s' : Session (σ × List Call)}
    (h : document { unit := u, oracle, writer := w.recorded } namespaceName? { page := (page, []) } =
      .ok () s') :
    ∃ told, TellsOnce { unit := u, oracle, writer := w.recorded } s'.registry
      (Call.entries s'.page.2) told := by
  obtain ⟨p₁, s₂, hvisits, hregistry⟩ := document_visits h
  rw [hregistry]
  obtain ⟨told, hledger⟩ := hvisits.ledger honce rfl .rfl .empty
  exact ⟨told, hledger.tellsOnce⟩

/-- An oracle of records with one field at the start. -/
def sizesAll : LayoutOracle where
  type _ := .ok ⟨64, 64⟩
  record _ := .ok ⟨64, 64, [0]⟩
  baseOffset _ _ := .ok 0
  virtualBaseOffset _ _ := .ok 0

/-- Two unnamed records that point to each other, and two typedefs of the first one. -/
def tangled : TranslationUnit where
  file := "a.h"
  types := #[.record ⟨0⟩, .record ⟨1⟩, .pointer ⟨0⟩, .pointer ⟨1⟩]
  nodes := #[{ kind := .record { members := [⟨2⟩] } }, { kind := .record { members := [⟨3⟩] } },
    { name := "f", kind := .field { type := ⟨3⟩ } }, { name := "g", kind := .field { type := ⟨2⟩ } },
    { name := "s", kind := .typedef ⟨0⟩ }, { name := "t", kind := .typedef ⟨2⟩ }]
  topLevel := #[⟨0⟩, ⟨1⟩, ⟨4⟩, ⟨5⟩]

theorem document_tells_unnamed_tangled :
    tangled.UnnamedDeclaredOnce ∧ tangled.CanBeTold sizesAll ⟨0⟩ ∧
      let ctx : Context (Unit × List Call) :=
        { unit := tangled, oracle := sizesAll, writer := DocumentWriter.silent.recorded }
      let s' := after (document ctx none) { page := ((), []) }
      document ctx none { page := ((), []) } = .ok () s' ∧
        (Call.entries s'.page.2).map Entry.name = ["", "", "s", "t"] ∧
        ∃ told, TellsOnce ctx s'.registry (Call.entries s'.page.2) told := by
  have honce : tangled.UnnamedDeclaredOnce :=
    TranslationUnit.unnamedDeclaredOnce_of_canonical? (by simp [tangled])
  have htold : tangled.CanBeTold sizesAll ⟨0⟩ :=
    ⟨⟨rfl, .inl rfl⟩, rfl, _, rfl, fun _ => rfl, fun _ => ⟨_, rfl⟩⟩
  refine ⟨honce, htold, ?_⟩
  intro ctx s'
  have hok : succeeds (document ctx none) { page := ((), []) } := by decide +kernel
  obtain ⟨_, s₁, hs₁⟩ := exists_of_succeeds hok
  have hs' : document ctx none { page := ((), []) } = .ok () s' := by
    rw [show s' = s₁ from after_of_ok hs₁]
    exact hs₁
  exact ⟨hs', by decide +kernel, document_tells_unnamed tangled sizesAll none honce hs'⟩

end Extract

end ForeignDecl
