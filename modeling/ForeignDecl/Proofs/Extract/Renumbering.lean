import ForeignDecl.Document.JsonForm
import ForeignDecl.Proofs.Extract.Instantiations
import ForeignDecl.Proofs.Extract.MirroredEntries

/-!
# Documents of renumbered units

Handles have no meaning beyond telling declarations and types apart. A document keeps none of them: what
refers to a declaration refers to its number in the registry, and numbers are given out in the order of
the walk, which follows the order of the declarations. So if two units are equal up to the handles,
their extractions go the same way, from the first entry to the footer (`document_mirrors`), and what is
left of them is the same up to the handles in the registry (`document_renumbered`).
-/

set_option autoImplicit false

namespace ForeignDecl

/-- Whether a declaration makes an entry of its own is a matter of its kind. -/
@[simp]
theorem NodeKind.isWritten_renumber (ρ : Renumbering) (k : NodeKind) :
    (k.renumber ρ).isWritten = k.isWritten := by
  cases k <;> rfl

/-- The scope inside a declaration is itself, renumbered, or the scope around it. -/
theorem IsRenumbering.innerScope {ρ : Renumbering} {u u' : TranslationUnit} (h : IsRenumbering ρ u u')
    (scope? : Option DeclId) (d : DeclId) :
    u'.innerScope (scope?.map ρ.decl) (ρ.decl d) = (u.innerScope scope? d).map ρ.decl := by
  unfold TranslationUnit.innerScope
  rw [h.node, Node.kind_renumber]
  cases (u.node d).kind <;> rfl

/-! ## Registries -/

/-- The registries are the same up to the handles, and the same templates are instantiated. This is what
can be observed of a registry after the run: the number of each declaration, the two lists in their
order, and the text that is written from it, which is the same to the byte. -/
structure Registry.Corresponds (ρ : Renumbering) (u u' : TranslationUnit) (r r' : Registry) : Prop where
  number : ∀ d, r'.number u' (ρ.decl d) = r.number u d
  entities : r'.entities.toList = r.entities.toList.map ρ.decl
  classes : r'.classes.toList = r.classes.toList.map ρ.decl
  instantiations : r'.instantiations u' = r.instantiations u
  written : r'.writeInstantiations u' = r.writeInstantiations u

namespace Registry

variable {ρ : Renumbering} {u u' : TranslationUnit} (h : IsRenumbering ρ u u') (r : Registry)

include h

/-- The line of an instantiation spells the arguments, and spellings hold no handles. -/
theorem instantiationText_renumber (s : Specialization) :
    instantiationText u' (s.renumber ρ) = instantiationText u s := by
  have hargs : u'.argsSpelling (s.renumber ρ).args = u.argsSpelling s.args := h.argsSpelling s.args
  unfold instantiationText
  rw [hargs]
  rfl

/-- The same classes are looked through in the same order. -/
theorem openSpecializations_renumber :
    (r.renumber ρ).openSpecializations u' = (r.openSpecializations u).map (·.renumber ρ) := by
  simp only [openSpecializations, renumber, OrderedSet.toList_map, List.filterMap_map,
    List.map_filterMap, Function.comp_def, h.openSpecialization?]

theorem corresponds_renumber : r.Corresponds ρ u u' (r.renumber ρ) := by
  have htext : (r.renumber ρ).instantiations u' = r.instantiations u := by
    rw [instantiations, h.file, openSpecializations_renumber h, List.map_map, instantiations]
    simp only [Function.comp_def, instantiationText_renumber h]
  have hwritten : (r.renumber ρ).writeInstantiations u' = r.writeInstantiations u := by
    rw [writeInstantiations, htext, openSpecializations_renumber h, List.length_map,
      writeInstantiations]
  exact ⟨number_renumber h r, rfl, rfl, htext, hwritten⟩

end Registry

namespace Extract

variable {σ : Type} {ρ : Renumbering}

section Walk

variable {ctx ctx' : Context σ} (h : ctx.Mirrors ρ ctx')

include h

/-! ## Writing entries -/

/-- Writing an entry: both steps register the scope, get one number for it, and send one entry to one
writer. -/
theorem writeEntry_mirrors (d : DeclId) (e : Entry) :
    Mirrors ρ (writeEntry ctx d e) (writeEntry ctx' (ρ.decl d) e) := by
  -- The two branches differ in the separator before this.
  have hrest : ∀ e, Mirrors ρ
      (do
        send (ctx.writer.entry e)
        count fun c => { c with emitted := c.emitted + 1 })
      (do
        send (ctx.writer.entry e)
        count fun c => { c with emitted := c.emitted + 1 }) :=
    fun e => (send_mirrors _).bind fun _ => count_mirrors _
  unfold writeEntry
  rw [h.unit.node, Node.locationText_renumber, h.writer]
  refine mirrors_get_bind fun s => (register_mirrors h s.scope?).bind fun scope => ?_
  refine mirrors_get_bind fun s => .ite Iff.rfl ?_ ?_
  · exact (send_mirrors _).bind fun _ => hrest _
  · refine .bind ?_ fun _ => hrest _
    exact mirrors_modify fun _ => rfl

/-- A queued record is built where it is referred to, and a handle that is no record makes nothing. -/
theorem buildPending?_mirrors (d : DeclId) :
    Mirrors ρ (buildPending? ctx d) (buildPending? ctx' (ρ.decl d)) := by
  unfold buildPending?
  rw [h.unit.node, Node.record?_renumber]
  cases (ctx.unit.node d).record? with
  | none => exact mirrors_pure _
  | some r => exact buildAnyRecord?_mirrors h d r .referred

/-- By induction on the queue, if writing a single entry is mirrored. -/
theorem flushWith_mirrors {write write' : DeclId → Option Entry → Extract σ Unit}
    (hwrite : ∀ d e?, Mirrors ρ (write d e?) (write' (ρ.decl d) e?)) (ds : List DeclId) :
    Mirrors ρ (flushWith ctx write ds) (flushWith ctx' write' (ds.map ρ.decl)) := by
  induction ds with
  | nil => exact mirrors_pure _
  | cons d ds ih =>
    refine mirrors_get_bind fun s => .ite (not_congr (seen_renumber_iff h s d)) ?_ ih
    exact (buildPending?_mirrors h d).bind fun e? => (hwrite d e?).bind fun _ => ih

omit h in
/-- What is taken from the queue are handles, so what follows is mirrored where it is for all queues. -/
theorem takePending_bind_mirrors {α : Type} {k k' : List DeclId → Extract σ α}
    (hk : ∀ ds, Mirrors ρ (k ds) (k' (ds.map ρ.decl))) :
    Mirrors ρ (takePending >>= k) (takePending >>= k') :=
  fun s => hk s.pending.toList { s with pending := ∅ }

/-- By induction on the fuel, which is the same on both sides: the units have as many declarations. -/
theorem emitWithin_mirrors (fuel : Nat) (d : DeclId) (e? : Option Entry) :
    Mirrors ρ (emitWithin ctx fuel d e?) (emitWithin ctx' fuel (ρ.decl d) e?) := by
  induction fuel generalizing d e? with
  | zero => exact mirrors_pure _
  | succ fuel ih =>
    refine takePending_bind_mirrors fun ds => (flushWith_mirrors h ih ds).bind fun _ => ?_
    cases e? with
    | none => exact mirrors_pure _
    | some e => exact writeEntry_mirrors h d e

/-! ## The walk -/

/-- A declaration and its own entry. -/
theorem writeOwn_mirrors (d : DeclId) : Mirrors ρ (writeOwn ctx d) (writeOwn ctx' (ρ.decl d)) := by
  unfold writeOwn emit
  rw [h.unit.node, Node.kind_renumber, NodeKind.isWritten_renumber, h.unit.nodeCount]
  exact .ite Iff.rfl ((build?_mirrors h d).bind fun e? => emitWithin_mirrors h _ d e?) (mirrors_pure _)

/-- By induction on the nesting. Members, scope and validity are read off the renumbered node. -/
theorem visitWithin_mirrors (fuel : Nat) (scope? : Option DeclId) (d : DeclId) :
    Mirrors ρ (visitWithin ctx fuel scope? d)
      (visitWithin ctx' fuel (scope?.map ρ.decl) (ρ.decl d)) := by
  induction fuel generalizing scope? d with
  | zero => exact mirrors_pure _
  | succ fuel ih =>
    rw [visitWithin_succ, visitWithin_succ, h.unit.innerScope, h.unit.node, Node.isInvalid_renumber,
      Node.members_renumber]
    refine .ite Iff.rfl (count_mirrors _) (.inScope scope? ?_)
    exact (writeOwn_mirrors h d).bind fun _ => .forM (ih _) _

/-- **Extractions from units that are equal up to the handles go the same way**, from the header through
every declaration to the footer, also when they stop on the way. -/
theorem document_mirrors (namespaceName? : Option String) :
    Mirrors ρ (document ctx namespaceName?) (document ctx' namespaceName?) := by
  have hstart : Mirrors ρ (start ctx namespaceName?) (start ctx' namespaceName?) := by
    unfold start
    rw [h.writer]
    refine (send_mirrors _).bind fun _ => ?_
    cases namespaceName? with
    | none => exact mirrors_pure _
    | some name => exact send_mirrors _
  have hvisit : Mirrors ρ (visitTopLevel ctx ctx.unit.topLevel.toList)
      (visitTopLevel ctx' ctx'.unit.topLevel.toList) := by
    unfold visitTopLevel visit
    rw [h.unit.topLevel, h.unit.nodeCount]
    exact .forM (visitWithin_mirrors h _ none) _
  unfold document finish
  rw [h.writer]
  exact hstart.bind fun _ => hvisit.bind fun _ => send_mirrors _

end Walk

/-- **It makes no difference how the handles are numbered.** If a document can be made of a unit, it can
be made of every unit that is equal up to the handles. The pages are the same to the byte, whatever the
form of the document, the same is counted, and the registries are the same up to the handles. -/
theorem document_renumbered {u u' : TranslationUnit} (h : IsRenumbering ρ u u') (t : Target)
    (w : DocumentWriter σ) (page : σ) (namespaceName? : Option String) {s : Session σ}
    (hs : document { unit := u, oracle := Layout.natural u t, writer := w } namespaceName? { page } =
      .ok () s) :
    ∃ s', document { unit := u', oracle := Layout.natural u' t, writer := w } namespaceName? { page } =
        .ok () s' ∧
      s'.page = s.page ∧ s'.summary = s.summary ∧ s.registry.Corresponds ρ u u' s'.registry := by
  let ctx : Context σ := { unit := u, oracle := Layout.natural u t, writer := w }
  let ctx' : Context σ := { unit := u', oracle := Layout.natural u' t, writer := w }
  have hctx : ctx.Mirrors ρ ctx' := ⟨h, Layout.natural_alike h t, rfl⟩
  have hend : MirroredEnd ρ (document ctx namespaceName? { page })
      (document ctx' namespaceName? { page }) := document_mirrors hctx namespaceName? { page }
  rw [hs] at hend
  exact ⟨s.renumber ρ, hend.eq_ok, rfl, rfl, s.registry.corresponds_renumber h⟩

/-- Exchanging two handles of a unit leaves the others where they are. -/
theorem index_swap_lt_iff {α : Type} [DecidableEq α] (index : α → Nat) {n : Nat} {a b : α}
    (ha : index a < n) (hb : index b < n) (x : α) : index (Equiv.swap a b x) < n ↔ index x < n := by
  rw [Equiv.swap_apply_def]
  split
  · next hx => simp [hx, ha, hb]
  · split
    · next hx => simp [hx, ha, hb]
    · exact Iff.rfl

theorem document_renumbered_specialized :
    let ρ : Renumbering := ⟨Equiv.swap ⟨0⟩ ⟨8⟩, Equiv.swap ⟨1⟩ ⟨9⟩⟩
    let u := specialized
    let u' := u.renumber ρ
    let t := Target.lp64 ""
    let w := JsonForm.writer
    let page : Page := {}
    let s := after (document { unit := u, oracle := Layout.natural u t, writer := w } none) { page }
    IsRenumbering ρ u u' ∧ u'.topLevel = #[⟨8⟩] ∧
      document { unit := u, oracle := Layout.natural u t, writer := w } none { page } = .ok () s ∧
      s.summary = { emitted := 2 } ∧
      ∃ s', document { unit := u', oracle := Layout.natural u' t, writer := w } none { page } =
          .ok () s' ∧
        s'.page = s.page ∧ s'.summary = s.summary ∧ s.registry.Corresponds ρ u u' s'.registry := by
  intro ρ u u' t w page s
  have hρ : IsRenumbering ρ u u' := isRenumbering_renumber
    (index_swap_lt_iff DeclId.index (by decide) (by decide))
    (index_swap_lt_iff TypeId.index (by decide) (by decide))
  have hs : document { unit := u, oracle := Layout.natural u t, writer := w } none { page } =
      .ok () s := ok_after_of_succeeds (by decide +kernel)
  exact ⟨hρ, by decide +kernel, hs, by decide +kernel, document_renumbered hρ t w page none hs⟩

end Extract

end ForeignDecl
