import ForeignDecl.Proofs.Unit.Shape

/-!
# What is stored in what

By value, a record is made of its bases and of what the types of its fields store. A type stores a record
if it comes down to it through arrays, sugar, typedefs and aliases (`Stores`); a pointer stores none.
Records may enclose themselves in this way, but the chain of a type is meant to end (`TypesEnd`), and it
does if no typedef comes down to itself (`typesEnd_of_typedefs`).
-/

set_option autoImplicit false

namespace ForeignDecl

namespace TranslationUnit

variable {u : TranslationUnit} {t t' : TypeId} {d d' : DeclId}

/-! ## Bases -/

/-- `b` is a base specifier of the record `d`. -/
def HasBase (u : TranslationUnit) (d : DeclId) (b : BaseSpecifier) : Prop :=
  ∃ r, (u.node d).record? = some r ∧ b ∈ r.bases

/-- A base specifier of `d` points to `d'`. The declaration it points to is followed, and not the
canonical one: the bases of a class are those of its definition. -/
def Inherits (u : TranslationUnit) (d d' : DeclId) : Prop := ∃ b, u.HasBase d b ∧ b.record = d'

/-- `v` is the canonical declaration of a virtual base of `d`, or of a class that `d` inherits. Virtual
bases are told apart by their canonical declarations, since the base specifiers that lead to one may
point to different declarations of it. -/
def HasVirtualBase (u : TranslationUnit) (d v : DeclId) : Prop :=
  ∃ d' b, Relation.ReflTransGen u.Inherits d d' ∧ u.HasBase d' b ∧ b.isVirtual ∧
    u.canonical b.record = v

/-- `v` is the canonical declaration of a base of `d` that is not virtual. -/
def HasDirectBase (u : TranslationUnit) (d v : DeclId) : Prop :=
  ∃ b, u.HasBase d b ∧ b.isVirtual = false ∧ u.canonical b.record = v

/-! ## Types -/

/-- What one layer of an array, of sugar, or of a typedef or an alias is put around. These are the
layers that are laid out as what is inside; a pointer has a size of its own, so it is not among them. -/
def inner? (u : TranslationUnit) (t : TypeId) : Option TypeId :=
  match u.type t with
  | .array element _ | .incompleteArray element | .variableArray element => some element
  | .elaborated inner | .paren inner => some inner
  | .typedef x => (u.node x).aliased?
  | _ => none

/-- `t'` is one layer inside of `t`. -/
def Unfolds (u : TranslationUnit) (t t' : TypeId) : Prop := u.inner? t = some t'

/-- No type is inside of itself. A unit that a front end made has this property. Without it a layout is
computed with a bound that cuts the chain, and means nothing. -/
def TypesEnd (u : TranslationUnit) : Prop := ∀ t, ¬ Relation.TransGen u.Unfolds t t

/-- The record that a type is. -/
def recordOf? (u : TranslationUnit) (t : TypeId) : Option DeclId :=
  match u.type t with
  | .record d | .specialization _ _ (some d) => some d
  | _ => none

/-- Through its layers, `t` is the record `d`, or an array of them. A record stored in a field must have
a size before the record around it has, whereas one that is pointed to need not, and pointers are no
layers. -/
def Stores (u : TranslationUnit) (t : TypeId) (d : DeclId) : Prop :=
  ∃ t', Relation.ReflTransGen u.Unfolds t t' ∧ u.recordOf? t' = some d

/-- `d'` is a base of the record `d`, or stored in the type of one of its fields. One of these must be
laid out before the other. -/
def Encloses (u : TranslationUnit) (d d' : DeclId) : Prop :=
  u.Inherits d d' ∨ ∃ r, (u.node d).record? = some r ∧
    ∃ f ∈ u.fieldsAmong r.members, u.Stores f.2.type d'

/-- By way of other records or not, the record encloses one of its own declarations. Such a record has
no size, and it is refused as recursive. -/
def EnclosesItself (u : TranslationUnit) (d : DeclId) : Prop :=
  ∃ d', Relation.TransGen u.Encloses d d' ∧ u.canonical d' = u.canonical d

/-- A handle beyond the declarations of the unit leads to none, so there are finitely many records to be
met. -/
theorem lt_size_of_record? {r : RecordNode} (h : (u.node d).record? = some r) :
    d.index < u.nodes.size := by
  refine lt_size_of_node fun hd => ?_
  rw [hd] at h
  cases h

theorem lt_size_of_aliased? (h : (u.node d).aliased? = some t) : d.index < u.nodes.size := by
  refine lt_size_of_node fun hd => ?_
  rw [hd] at h
  cases h

/-- A type that was never interned has no layers. -/
theorem lt_size_of_unfolds (h : u.Unfolds t t') : t.index < u.types.size := by
  by_contra hge
  have ht : u.type t = .unsupported "" := by simp [type, Array.getD, hge]
  rw [Unfolds, inner?, ht] at h
  cases h

/-- **In a unit without circular types, no type has more layers than there are types.** -/
theorem TypesEnd.endsWithin (h : u.TypesEnd) (t : TypeId) : EndsWithin u.Unfolds u.typeBudget t :=
  endsWithin_of_acyclic TypeId.index_inj (fun _ _ => lt_size_of_unfolds) h t

/-- **Types end if no typedef comes down to itself**, in a unit where each array and each piece of sugar
was put around a type that was there before. This is how `TypesEnd` is shown of a unit at hand: the
first condition can be decided, and the second is about its typedefs alone. -/
theorem typesEnd_of_typedefs
    (hbefore : ∀ t t', u.Unfolds t t' → t'.index < t.index ∨ ∃ x, u.type t = .typedef x)
    (hends : ∀ x t t', (u.node x).aliased? = some t → Relation.ReflTransGen u.Unfolds t t' →
      u.type t' ≠ .typedef x) : u.TypesEnd := by
  -- A chain goes down to earlier types, or through a typedef.
  have hchain : ∀ t t', Relation.TransGen u.Unfolds t t' → t'.index < t.index ∨
      ∃ s s' x, Relation.ReflTransGen u.Unfolds t s ∧ u.type s = .typedef x ∧
        (u.node x).aliased? = some s' ∧ Relation.ReflTransGen u.Unfolds s' t' := by
    have hone : ∀ t t', u.Unfolds t t' → t'.index < t.index ∨
        ∃ x, u.type t = .typedef x ∧ (u.node x).aliased? = some t' := by
      intro t t' h
      refine (hbefore t t' h).imp_right fun ⟨x, hx⟩ => ⟨x, hx, ?_⟩
      rwa [Unfolds, inner?, hx] at h
    intro t t' h
    induction h with
    | single h =>
      exact (hone t _ h).imp_right fun ⟨x, hx, halias⟩ => ⟨t, _, x, .refl, hx, halias, .refl⟩
    | @tail s t' hway h ih =>
      rcases ih with hlt | ⟨s₁, s₂, x, hs₁, hx, halias, hs₂⟩
      · rcases hone s t' h with hlt' | ⟨x, hx, halias⟩
        · exact .inl (Nat.lt_trans hlt' hlt)
        · exact .inr ⟨s, t', x, hway.to_reflTransGen, hx, halias, .refl⟩
      · exact .inr ⟨s₁, s₂, x, hs₁, hx, halias, hs₂.tail h⟩
  intro t h
  rcases hchain t t h with hlt | ⟨s, s', x, hs, hx, halias, hs'⟩
  · exact Nat.lt_irrefl _ hlt
  · exact hends x s' s halias (hs'.trans hs) hx

end TranslationUnit

end ForeignDecl
