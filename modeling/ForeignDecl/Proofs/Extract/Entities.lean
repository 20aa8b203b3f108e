import Mathlib.Data.List.Forall2
import ForeignDecl.Proofs.Extract.References
import ForeignDecl.Proofs.Unit.Nesting

/-!
# Numbers and what they stand for

A document refers to records, unnamed enumerations, namespaces and scopes by number. Here the numbers
that occur in an entry are listed (`Entry.numbers`), and beside them, from the translation unit alone,
the entities they stand for (`TranslationUnit.entitiesTold`). `Numbered` says that two such lists agree
member by member; it is kept while the registry grows.

Both lists follow the order in which a builder goes through its declaration, so that the proof in
`Proofs/Extract/Numbers.lean` can go along with it. What is listed is complete by construction: each
number in an entry is in `Entry.numbers`.
-/

set_option autoImplicit false

namespace ForeignDecl

/-! ## Numbers in entries -/

mutual

/-- The numbers in a type, from left to right. -/
def TypeRef.numbers : TypeRef → List Nat
  | .simple _ | .basic _ _ _ => []
  | .bitfield base _ => base.numbers
  | .pointer target | .reference target => target.numbers
  | .array element _ => element.numbers
  | .record _ id _ _ | .enum _ id => [id]
  | .template _ id args => id :: numbersOfArgs args

/-- The same for template arguments. -/
def numbersOfArgs : TemplateArgs → List Nat
  | [] => []
  | (type, _) :: args => type.numbers ++ numbersOfArgs args

end

/-- The numbers in template arguments are those of the types in them. -/
theorem numbersOfArgs_eq (args : TemplateArgs) :
    numbersOfArgs args = args.types.flatMap (·.numbers) := by
  induction args with
  | nil => rfl
  | cons a args ih =>
    obtain ⟨type, value?⟩ := a
    rw [numbersOfArgs, ih]
    rfl

/-- The numbers that an entry has besides its scope and those in its types: its own, and the scopes of
its methods. -/
def Entry.ownNumbers : Entry → List Nat
  | .record r => [r.id]
  | .classRecord c => c.record.id :: c.methods.map (·.function.info.scope)
  | .enum _ id _ | .namespaceBlock _ id => [id]
  | .objcInterface o => o.methods.map (·.info.scope)
  | .objcCategory _ _ methods | .objcProtocol _ methods => methods.map (·.info.scope)
  | .unhandled _ _ | .var _ _ _ _ _ | .function _ | .method _ | .typedef _ _ | .typeAlias _ _
  | .aliasTemplate _ _ _ | .varTemplate _ _ _ | .usingDecl _ | .usingShadow _
  | .usingDirective _ => []

/-- All numbers in an entry. -/
def Entry.numbers (e : Entry) : List Nat :=
  e.info.scope :: (e.ownNumbers ++ e.types.flatMap (·.numbers))

/-! ## The entities they stand for -/

/-- The types in the signature of a function. -/
def FunctionNode.types (f : FunctionNode) : List TypeId :=
  f.result :: (f.params.map (·.type) ++ (f.templateArgs?.getD []).filterMap (·.type?))

/-- The types in the signature of an Objective-C method. -/
def ObjcMethodNode.types (m : ObjcMethodNode) : List TypeId := m.result :: m.params.map (·.type)

/-- The template arguments of a record that is a specialization. -/
def RecordNode.args (r : RecordNode) : List TemplateArgument :=
  ((r.class?.bind (·.specialization?)).map (·.args)).getD []

namespace TranslationUnit

variable (u : TranslationUnit)

/-- The types of the fields among some declarations. -/
def fieldTypes (ds : List DeclId) : List TypeId := (u.fieldsAmong ds).map (·.2.type)

/-- The C++ member functions among some declarations. -/
def methodsAmong (ds : List DeclId) : List MethodNode :=
  ds.filterMap fun d => match (u.node d).kind with
    | .method m => some m
    | _ => none

/-- The Objective-C methods among some declarations. -/
def objcMethodsAmong (ds : List DeclId) : List ObjcMethodNode :=
  ds.filterMap fun d => match (u.node d).kind with
    | .objcMethod m => some m
    | _ => none

/-- The types of the fields of a record, which are told with its layout. -/
def bodyTypes (r : RecordNode) : List TypeId :=
  if r.NeedsSize then u.fieldTypes r.members else []

/-- The types that the entry of a declaration tells. They are read off the unit in the order in which
entries list them, so that the numbers in an entry can be compared with it place by place (`Numbered`).
The fields of a record count only if its size is asked for: without a layout no field is told. -/
def typesTold (d : DeclId) : List TypeId :=
  match (u.node d).kind with
  | .var v => [v.type]
  | .typedef t | .typeAlias t => [t]
  | .function f => f.types
  | .record r =>
    if r.isCxx then
      u.bodyTypes r ++ ((u.methodsAmong r.members).flatMap (·.function.types) ++
        r.args.filterMap (·.type?))
    else u.bodyTypes r
  | .aliasTemplate t | .varTemplate t => t.type :: t.params.filterMap (·.type?)
  | .objcInterface n => u.fieldTypes n.ivars ++ (u.objcMethodsAmong n.methods).flatMap (·.types)
  | .objcCategory n => (u.objcMethodsAmong n.methods).flatMap (·.types)
  | .objcProtocol ms => (u.objcMethodsAmong ms).flatMap (·.types)
  | _ => []

/-- An enumeration has a number only if it has no name to be found by. -/
def numberedEnum? (d : DeclId) : Option DeclId :=
  if (u.node d).name.isEmpty then some d else none

/-- The records, enumerations and templates in a type of at most `fuel` layers, from left to right.
There is nothing behind a pointer to a function or the name of a typedef. -/
def entitiesWithin : Nat → TypeId → List (Option DeclId)
  | 0, _ => []
  | fuel + 1, t =>
    match u.type t with
    | .pointer target => if u.isFunctionType target then [] else entitiesWithin fuel target
    | .lvalueReference inner | .rvalueReference inner | .array inner _ | .incompleteArray inner
    | .variableArray inner | .elaborated inner | .paren inner => entitiesWithin fuel inner
    | .record d => [some d]
    | .enum d => [u.numberedEnum? d]
    | .specialization _ args record? =>
      record? :: (args.filterMap (·.type?)).flatMap (entitiesWithin fuel)
    | _ => []

/-- The records, enumerations and templates in a type. -/
def entities (t : TypeId) : List (Option DeclId) := u.entitiesWithin u.typeBudget t

/-- What the own numbers of the entry of a declaration stand for. A member function is in the scope
of its record, and a method of Objective-C in none. -/
def ownEntities (d : DeclId) : List (Option DeclId) :=
  match (u.node d).kind with
  | .record r =>
    some d :: (if r.isCxx then (u.methodsAmong r.members).map fun _ => some d else [])
  | .enum _ => [u.numberedEnum? d]
  | .namespaceBlock _ => [some d]
  | .objcInterface n => (u.objcMethodsAmong n.methods).map fun _ => none
  | .objcCategory n => (u.objcMethodsAmong n.methods).map fun _ => none
  | .objcProtocol ms => (u.objcMethodsAmong ms).map fun _ => none
  | _ => []

/-- What the numbers in the entry of a declaration stand for; `none` is the global scope, a named
enumeration or a template without a record. -/
def entitiesTold (scope? : Option DeclId) (d : DeclId) : List (Option DeclId) :=
  scope? :: (u.ownEntities d ++ (u.typesTold d).flatMap u.entities)

end TranslationUnit

/-! ## Numbers of entities -/

/-- `id` is the number of an entity that was given one, or zero where there is none. Without `pos` an
entity that was never registered would pass, as its number is zero too. -/
structure IsNumberOf (u : TranslationUnit) (r : Registry) (x? : Option DeclId) (id : Nat) : Prop where
  eq : r.scopeNumber u x? = id
  pos : x?.isSome → 0 < id

/-- Each of the numbers is that of the entity at its place. An entry tells many numbers and their places
matter: it is not enough that each of them is the number of something. -/
def Numbered (u : TranslationUnit) (r : Registry) : List (Option DeclId) → List Nat → Prop :=
  List.Forall₂ (IsNumberOf u r)

section Numbered

variable {u : TranslationUnit} {r r' : Registry} {xs ys : List (Option DeclId)} {ids ids' : List Nat}

theorem IsNumberOf.none : IsNumberOf u r none 0 := ⟨rfl, by simp⟩

theorem IsNumberOf.some {d : DeclId} (h : 0 < r.number u d) :
    IsNumberOf u r (some d) (r.number u d) := ⟨rfl, fun _ => h⟩

theorem IsNumberOf.mono {x? : Option DeclId} {id : Nat} (h : IsNumberOf u r x? id)
    (hr : r.Grows r') : IsNumberOf u r' x? id := by
  cases x? with
  | none => exact ⟨h.eq, h.pos⟩
  | some d =>
    have hid : r.number u d = id := h.eq
    exact ⟨(hr.number_eq (hid ▸ h.pos rfl)).trans hid, h.pos⟩

/-- Two numbers of entities are equal exactly if the entities are one. -/
theorem IsNumberOf.eq_iff {d d' : DeclId} {id id' : Nat} (h : IsNumberOf u r (.some d) id)
    (h' : IsNumberOf u r (.some d') id') : id = id' ↔ u.canonical d = u.canonical d' := by
  have hd : r.number u d = id := h.eq
  have hd' : r.number u d' = id' := h'.eq
  constructor
  · intro hids
    exact Registry.canonical_eq_of_number_eq (hd.symm ▸ h.pos rfl) (hd.trans (hids.trans hd'.symm))
  · intro hcanonical
    rw [← hd, ← hd', Registry.number, Registry.number, hcanonical]

theorem Numbered.nil : Numbered u r [] [] := List.Forall₂.nil

theorem Numbered.singleton {x? : Option DeclId} {id : Nat} (h : IsNumberOf u r x? id) :
    Numbered u r [x?] [id] := .cons h .nil

theorem Numbered.append (h : Numbered u r xs ids) (h' : Numbered u r ys ids') :
    Numbered u r (xs ++ ys) (ids ++ ids') := List.rel_append h h'

/-- What was numbered in the course of a run is numbered at its end. -/
theorem Numbered.mono (h : Numbered u r xs ids) (hr : r.Grows r') : Numbered u r' xs ids :=
  h.imp fun _ _ hid => hid.mono hr

/-- The entities in the types `ts` have the numbers in the types `refs`. The lists are flattened, since
a type can hold any number of both. -/
def NumbersTypes (u : TranslationUnit) (r : Registry) (ts : List TypeId) (refs : List TypeRef) : Prop :=
  Numbered u r (ts.flatMap u.entities) (refs.flatMap (·.numbers))

variable {ts ts' : List TypeId} {refs refs' : List TypeRef}

theorem NumbersTypes.nil : NumbersTypes u r [] [] := List.Forall₂.nil

theorem NumbersTypes.singleton {t : TypeId} {ref : TypeRef}
    (h : Numbered u r (u.entities t) ref.numbers) : NumbersTypes u r [t] [ref] := by
  simpa [NumbersTypes] using h

theorem NumbersTypes.append (h : NumbersTypes u r ts refs) (h' : NumbersTypes u r ts' refs') :
    NumbersTypes u r (ts ++ ts') (refs ++ refs') := by
  unfold NumbersTypes
  rw [List.flatMap_append, List.flatMap_append]
  exact Numbered.append h h'

theorem NumbersTypes.cons {t : TypeId} {ref : TypeRef} (h : NumbersTypes u r [t] [ref])
    (h' : NumbersTypes u r ts refs) : NumbersTypes u r (t :: ts) (ref :: refs) := h.append h'

theorem NumbersTypes.mono (h : NumbersTypes u r ts refs) (hr : r.Grows r') :
    NumbersTypes u r' ts refs := Numbered.mono h hr

theorem Numbered.map_const {α : Type} {x? : Option DeclId} {id : Nat} (h : IsNumberOf u r x? id)
    {as : List α} : Numbered u r (as.map fun _ => x?) (as.map fun _ => id) := by
  unfold Numbered
  rw [List.forall₂_map_left_iff, List.forall₂_map_right_iff, List.forall₂_same]
  exact fun _ _ => h

end Numbered

end ForeignDecl
