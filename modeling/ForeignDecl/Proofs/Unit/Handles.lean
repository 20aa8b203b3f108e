import Mathlib.Data.List.Induction
import ForeignDecl.Unit.Basic

/-!
# Handles keep their meaning

A unit is built by operations, one after another: declarations are added and changed, types are interned,
macros are defined. What a handle of a type stands for is settled when it is issued, and what a handle of
a declaration stands for changes only by an operation on that very declaration (`handles_permanent`).

For types this rests on the two directions of the table. The way back leads from a type to its place, and
there is one from every place (`TranslationUnit.Indexed`): so a type that is asked for again is found, and
one that is not found is in no place yet. What the parts of a type stand for does not matter; a pointer may
be interned before the type that it points to.
-/

set_option autoImplicit false

namespace ForeignDecl

/-! ## A table and the way back -/

section Inverse

variable {handles : List (CType × TypeId)} {types : Array CType} {c : CType} {t : TypeId}

/-- A type is led back to a handle exactly if it is what the table has there. From left to right it says
that the way back is right, and from right to left that it misses nothing. -/
def IsInverse (handles : List (CType × TypeId)) (types : Array CType) : Prop :=
  ∀ c t, handles.lookup c = some t ↔ types[t.index]? = some c

/-- A type without a way back is nowhere in the table, so it may be put at the end without being there
twice. -/
theorem IsInverse.getElem?_ne (h : IsInverse handles types) (hnew : handles.lookup c = none) :
    types[t.index]? ≠ some c := by
  intro hget
  rw [(h c t).2 hget] at hnew
  cases hnew

/-- What interning a new type does to both directions at once. -/
theorem IsInverse.push (h : IsInverse handles types) (hnew : handles.lookup c = none) :
    IsInverse ((c, ⟨types.size⟩) :: handles) (types.push c) := by
  intro c' t
  have hlast : (⟨types.size⟩ : TypeId) = t ↔ t.index = types.size := by
    cases t
    simp [eq_comm]
  rw [List.lookup_cons, Array.getElem?_push]
  -- The new type is at the end and nowhere else; any other type is where it was.
  by_cases hc : c' = c
  · subst hc
    by_cases ht : t.index = types.size
    · simp [ht, hlast.2 ht]
    · simp [ht, mt hlast.1 ht, h.getElem?_ne hnew]
  · by_cases ht : t.index = types.size
    · simp [ht, Ne.symm hc, beq_false_of_ne hc, h c' t]
    · simp [ht, beq_false_of_ne hc, h c' t]

/-- The way back through a table in which no type stands twice. -/
theorem isInverse_handlesOf (hnodup : types.toList.Nodup) : IsInverse (handlesOf types) types := by
  obtain ⟨cs⟩ := types
  -- From the end, because that is where a table grows.
  induction cs using List.reverseRecOn with
  | nil =>
    intro c t
    simp [handlesOf]
  | append_singleton cs c ih =>
    obtain ⟨hcs, -, hdisjoint⟩ := List.nodup_append.1 hnodup
    have hback : IsInverse (handlesOf cs.toArray) cs.toArray := ih hcs
    have hnew : (handlesOf cs.toArray).lookup c = none := by
      refine Option.eq_none_iff_forall_ne_some.2 fun t ht => ?_
      have hmem : c ∈ cs := List.mem_toArray.1 (Array.mem_of_getElem? ((hback c t).1 ht))
      exact hdisjoint c hmem c (List.mem_singleton_self c) rfl
    change IsInverse (handlesOf (cs ++ [c]).toArray) (cs ++ [c]).toArray
    rw [← List.push_toArray, handlesOf_push]
    exact hback.push hnew

end Inverse

/-! ## Operations -/

/-- What can be done to a unit. An operation that changes a declaration may change it in any way, so the
claims about changes do not depend on how front ends use it. -/
inductive Operation where
  | add (n : Node)
  | addTopLevel (n : Node)
  | pushTopLevel (d : DeclId)
  | pushMember (container member : DeclId)
  | modify (d : DeclId) (change : Node → Node)
  | intern (c : CType)
  | internBuiltin (kind : Builtin)
  | internPointer (target : TypeId)
  | internArray (element : TypeId) (count : Nat)
  | internRecord (d : DeclId)
  | internEnum (d : DeclId)
  | internTypedef (d : DeclId)
  | internElaborated (inner : TypeId)
  | defineMacro (m : MacroDefinition)

namespace Operation

/-- What an operation gives back. -/
inductive Answer where
  | decl (d : DeclId)
  | type (t : TypeId)
  /-- Whether the container took the member. -/
  | taken (ok : Bool)
  | nothing
deriving DecidableEq, Repr

/-- The declaration that is added. -/
def node? : Operation → Option Node
  | add n | addTopLevel n => some n
  | _ => none

/-- The type whose handle is asked for. -/
def type? : Operation → Option CType
  | intern c => some c
  | internBuiltin kind => some (.builtin kind)
  | internPointer target => some (.pointer target)
  | internArray element count => some (.array element count)
  | internRecord d => some (.record d)
  | internEnum d => some (.enum d)
  | internTypedef d => some (.typedef d)
  | internElaborated inner => some (.elaborated inner)
  | _ => none

/-- The declaration that may be changed. One that is added to a container changes the container and not
the member. -/
def target? : Operation → Option DeclId
  | pushMember container _ => some container
  | modify d _ => some d
  | _ => none

end Operation

namespace TranslationUnit

variable {u : TranslationUnit} {op : Operation} {ops : List Operation} {n : Node} {d : DeclId}
  {c c' : CType} {t : TypeId}

/-- What an operation gives back, and the unit afterwards. Each operation is carried out by the function
of `Unit/Basic.lean` that is called for it. -/
def perform (u : TranslationUnit) : Operation → Operation.Answer × TranslationUnit
  | .add n => (u.add n).map .decl id
  | .addTopLevel n => (u.addTopLevel n).map .decl id
  | .pushTopLevel d => (.nothing, u.pushTopLevel d)
  | .pushMember container member =>
    match u.pushMember? container member with
    | some u => (.taken true, u)
    | none => (.taken false, u)
  | .modify d change => (.nothing, u.modify d change)
  | .intern c => (u.intern c).map .type id
  | .internBuiltin kind => (u.internBuiltin kind).map .type id
  | .internPointer target => (u.internPointer target).map .type id
  | .internArray element count => (u.internArray element count).map .type id
  | .internRecord d => (u.internRecord d).map .type id
  | .internEnum d => (u.internEnum d).map .type id
  | .internTypedef d => (u.internTypedef d).map .type id
  | .internElaborated inner => (u.internElaborated inner).map .type id
  | .defineMacro m => (.nothing, u.defineMacro m)

/-- The unit after several operations. -/
def performAll (u : TranslationUnit) (ops : List Operation) : TranslationUnit :=
  ops.foldl (fun u op => (u.perform op).2) u

@[simp]
theorem performAll_nil (u : TranslationUnit) : u.performAll [] = u := rfl

@[simp]
theorem performAll_cons (u : TranslationUnit) (op : Operation) (ops : List Operation) :
    u.performAll (op :: ops) = (u.perform op).2.performAll ops := rfl

/-- What every operation keeps holds after all of them. The two properties of types are run through all
operations by this. -/
theorem performAll_keeps {P : TranslationUnit → Prop} (hstep : ∀ u op, P u → P (u.perform op).2)
    (ops : List Operation) (h : P u) : P (u.performAll ops) := by
  induction ops generalizing u with
  | nil => exact h
  | cons op ops ih => exact ih (hstep u op h)

/-! ## One operation

It asks for a type, adds a declaration, changes one, or leaves both tables alone. -/

/-- All requests for a type are requests to intern one, so that only interning has to be looked at. -/
theorem perform_of_type? (h : op.type? = some c) :
    u.perform op = (.type (u.intern c).1, (u.intern c).2) := by
  cases op <;> cases h <;> rfl

/-- A declaration is put at the end, and its handle is that place. -/
theorem perform_of_node? (h : op.node? = some n) :
    (u.perform op).1 = .decl ⟨u.nodes.size⟩ ∧ (u.perform op).2.nodes = u.nodes.push n := by
  cases op <;> cases h <;> exact ⟨rfl, rfl⟩

/-- So the handle leads to the declaration. -/
theorem node_perform_of_node? (h : op.node? = some n) :
    (u.perform op).2.node ⟨u.nodes.size⟩ = n := by
  cases op <;> cases h <;> exact u.node_add n

theorem modify_id (u : TranslationUnit) (d : DeclId) : u.modify d id = u := by
  have hnodes : u.nodes.modify d.index id = u.nodes := by
    ext i hi hi'
    · simp
    · simp [Array.getElem_modify]
  rw [modify, hnodes]

/-- An operation on a declaration is a change of that one. A declaration that takes no members is left
as it is, which is a change as well. -/
theorem perform_of_target? (u : TranslationUnit) (h : op.target? = some d) :
    ∃ change, (u.perform op).2 = u.modify d change := by
  cases op with
  | modify _ change =>
    cases h
    exact ⟨change, rfl⟩
  | pushMember _ member =>
    cases h
    rw [perform, pushMember?]
    cases (u.node d).kind with
    | namespaceBlock | linkageBlock | record => exact ⟨_, rfl⟩
    | _ => exact ⟨id, (u.modify_id d).symm⟩
  | _ => cases h

/-- Operations that ask for no type leave both directions of the table alone. -/
theorem types_perform (u : TranslationUnit) (h : op.type? = none) :
    (u.perform op).2.types = u.types ∧ (u.perform op).2.handles = u.handles := by
  cases op with
  | add | addTopLevel | pushTopLevel | modify | defineMacro => exact ⟨rfl, rfl⟩
  | pushMember container member =>
    have htarget : (Operation.pushMember container member).target? = some container := rfl
    obtain ⟨change, heq⟩ := perform_of_target? u htarget
    rw [heq]
    exact ⟨rfl, rfl⟩
  | _ => cases h

theorem nodes_intern (u : TranslationUnit) (c : CType) : (u.intern c).2.nodes = u.nodes := by
  unfold intern
  split <;> rfl

/-- Operations that neither add a declaration nor change one leave the declarations alone. -/
theorem nodes_perform (u : TranslationUnit) (hnode : op.node? = none) (htarget : op.target? = none) :
    (u.perform op).2.nodes = u.nodes := by
  cases htype : op.type? with
  | some c => rw [perform_of_type? htype, nodes_intern]
  | none =>
    cases op with
    | pushTopLevel | defineMacro => rfl
    | add | addTopLevel => cases hnode
    | pushMember | modify => cases htarget
    | _ => cases htype

/-! ## Declarations -/

/-- No operation takes a declaration away. -/
theorem size_nodes_perform (u : TranslationUnit) (op : Operation) :
    (u.perform op).2.nodes.size = u.nodes.size + op.node?.toList.length := by
  cases hnode : op.node? with
  | some n =>
    rw [(perform_of_node? hnode).2, Array.size_push]
    rfl
  | none =>
    cases htarget : op.target? with
    | some d =>
      obtain ⟨change, heq⟩ := perform_of_target? u htarget
      rw [heq, modify, Array.size_modify]
      rfl
    | none =>
      rw [nodes_perform u hnode htarget]
      rfl

/-- As many handles were issued as declarations were added. -/
theorem size_nodes_performAll (u : TranslationUnit) (ops : List Operation) :
    (u.performAll ops).nodes.size = u.nodes.size + (ops.filterMap (·.node?)).length := by
  induction ops generalizing u with
  | nil => rfl
  | cons op ops ih =>
    rw [performAll_cons, ih, size_nodes_perform, List.filterMap_cons]
    cases op.node? with
    | none => rfl
    | some n =>
      simp only [Option.toList_some, List.length_cons, List.length_nil]
      omega

/-- A change of one declaration is none of another. -/
theorem node_modify_of_ne {d' : DeclId} (h : d ≠ d') (change : Node → Node) :
    (u.modify d' change).node d = u.node d := by
  have hindex : d'.index ≠ d.index := fun heq => h (congrArg DeclId.mk heq.symm)
  simp [modify, node, Array.getD_eq_getD_getElem?, Array.getElem?_modify, hindex]

/-- **An operation changes no declaration but its own.** -/
theorem node_perform (hd : d.index < u.nodes.size) (h : op.target? ≠ some d) :
    (u.perform op).2.node d = u.node d := by
  cases hnode : op.node? with
  | some n =>
    rw [node, (perform_of_node? hnode).2, node]
    simp [Array.getD_eq_getD_getElem?, Array.getElem?_push_lt, hd]
  | none =>
    cases htarget : op.target? with
    | some d' =>
      obtain ⟨change, heq⟩ := perform_of_target? u htarget
      have hne : d ≠ d' := fun hd' => h (hd' ▸ htarget)
      rw [heq, node_modify_of_ne hne]
    | none => rw [node, nodes_perform u hnode htarget, node]

/-- So a declaration stays what it is as long as nothing is done to it. -/
theorem node_performAll (hd : d.index < u.nodes.size) (h : ∀ op ∈ ops, op.target? ≠ some d) :
    (u.performAll ops).node d = u.node d := by
  induction ops generalizing u with
  | nil => rfl
  | cons op ops ih =>
    obtain ⟨hop, hops⟩ := List.forall_mem_cons.1 h
    have hd' : d.index < (u.perform op).2.nodes.size := by
      rw [size_nodes_perform]
      omega
    rw [performAll_cons, ih hd' hops, node_perform hd hop]

/-! ## Types -/

/-- The way back from a type leads to its handle, and to nothing else. -/
def Indexed (u : TranslationUnit) : Prop := IsInverse u.handles u.types

/-- A unit begins with empty tables. -/
theorem indexed_empty (file : String) : Indexed { file } := isInverse_handlesOf List.nodup_nil

/-- What is in the table is what the handle stands for. -/
theorem type_eq (h : u.types[t.index]? = some c) : u.type t = c := by
  rw [type, Array.getD_eq_getD_getElem?, h, Option.getD_some]

/-- **One type, one handle.** Two handles that were issued are the same exactly if they stand for the
same type. -/
theorem Indexed.eq_iff (h : u.Indexed) {t' : TypeId} (hc : u.types[t.index]? = some c)
    (hc' : u.types[t'.index]? = some c') : t = t' ↔ c = c' := by
  constructor
  · rintro rfl
    exact Option.some.inj (hc.symm.trans hc')
  · rintro rfl
    exact Option.some.inj (((h c t).2 hc).symm.trans ((h c t').2 hc'))

/-- A type is interned by finding it, or by putting it at the end of the table. Everything that is said
about interning goes through these two cases. -/
theorem intern_cases (u : TranslationUnit) (c : CType) :
    (∃ t, u.handles.lookup c = some t ∧ u.intern c = (t, u)) ∨
      (u.handles.lookup c = none ∧ (u.intern c).1 = ⟨u.types.size⟩ ∧
        (u.intern c).2.types = u.types.push c ∧
        (u.intern c).2.handles = (c, ⟨u.types.size⟩) :: u.handles) := by
  unfold intern
  cases u.handles.lookup c with
  | some t => exact .inl ⟨t, rfl, rfl⟩
  | none => exact .inr ⟨rfl, rfl, rfl, rfl⟩

/-- Interning keeps both directions together: a type that is found changes nothing, and one that is not
found is new. -/
theorem Indexed.intern (h : u.Indexed) (c : CType) : (u.intern c).2.Indexed := by
  rcases u.intern_cases c with ⟨t, -, heq⟩ | ⟨hnew, -, htypes, hhandles⟩
  · rwa [heq]
  · rw [Indexed, htypes, hhandles]
    exact IsInverse.push h hnew

/-- **The handle of a type leads to it.** -/
theorem Indexed.getElem?_intern (h : u.Indexed) (c : CType) :
    (u.intern c).2.types[(u.intern c).1.index]? = some c := by
  rcases u.intern_cases c with ⟨t, hfound, heq⟩ | ⟨-, hanswer, htypes, -⟩
  · rw [heq]
    exact (h c t).1 hfound
  · rw [hanswer, htypes, Array.getElem?_push_size]

/-- Interning moves nothing that is in the table. -/
theorem getElem?_intern_of_some {i : Nat} (h : u.types[i]? = some c) (c' : CType) :
    (u.intern c').2.types[i]? = some c := by
  rcases u.intern_cases c' with ⟨t, -, heq⟩ | ⟨-, -, htypes, -⟩
  · rwa [heq]
  · obtain ⟨hi, -⟩ := Array.getElem?_eq_some_iff.1 h
    rw [htypes, Array.getElem?_push_lt hi, ← Array.getElem?_eq_getElem hi, h]

/-- Only interning touches the tables, so every operation keeps them together. -/
theorem Indexed.perform (h : u.Indexed) (op : Operation) : (u.perform op).2.Indexed := by
  cases htype : op.type? with
  | some c =>
    rw [perform_of_type? htype]
    exact h.intern c
  | none =>
    obtain ⟨htypes, hhandles⟩ := types_perform u htype
    rwa [Indexed, htypes, hhandles]

/-- And a type that has a place keeps it. -/
theorem getElem?_perform {i : Nat} (h : u.types[i]? = some c) (op : Operation) :
    (u.perform op).2.types[i]? = some c := by
  cases htype : op.type? with
  | some c' =>
    rw [perform_of_type? htype]
    exact getElem?_intern_of_some h c'
  | none => rwa [(types_perform u htype).1]

/-- At any moment the tables are each other's inverse. -/
theorem Indexed.performAll (h : u.Indexed) (ops : List Operation) : (u.performAll ops).Indexed :=
  performAll_keeps (fun _ op h => h.perform op) ops h

/-- **A type stays where it is.** -/
theorem getElem?_performAll {i : Nat} (h : u.types[i]? = some c) (ops : List Operation) :
    (u.performAll ops).types[i]? = some c :=
  performAll_keeps (P := fun u => u.types[i]? = some c) (fun _ op h => getElem?_perform h op) ops h

/-- The handle that is given is in the table or at its end. -/
theorem Indexed.index_intern_le (h : u.Indexed) (c : CType) : (u.intern c).1.index ≤ u.types.size := by
  rcases u.intern_cases c with ⟨t, hfound, heq⟩ | ⟨-, hanswer, -, -⟩
  · obtain ⟨hlt, -⟩ := Array.getElem?_eq_some_iff.1 ((h c t).1 hfound)
    rw [heq]
    exact Nat.le_of_lt hlt
  · exact Nat.le_of_eq (congrArg TypeId.index hanswer)

/-- A request adds at most one type. -/
theorem size_types_perform (u : TranslationUnit) (op : Operation) :
    (u.perform op).2.types.size ≤ u.types.size + op.type?.toList.length := by
  cases htype : op.type? with
  | none =>
    rw [(types_perform u htype).1]
    exact Nat.le_refl _
  | some c =>
    rw [perform_of_type? htype]
    change (u.intern c).2.types.size ≤ u.types.size + 1
    rcases u.intern_cases c with ⟨t, -, heq⟩ | ⟨-, -, htypes, -⟩
    · rw [heq]
      exact Nat.le_succ _
    · exact Nat.le_of_eq (by rw [htypes, Array.size_push])

/-- There are no more types than requests for one. -/
theorem size_types_performAll (u : TranslationUnit) (ops : List Operation) :
    (u.performAll ops).types.size ≤ u.types.size + (ops.filterMap (·.type?)).length := by
  induction ops generalizing u with
  | nil => exact Nat.le_refl _
  | cons op ops ih =>
    have hop := size_types_perform u op
    have hops := ih (u.perform op).2
    rw [performAll_cons, List.filterMap_cons]
    cases htype : op.type? with
    | none =>
      rw [htype] at hop
      exact Nat.le_trans hops (Nat.add_le_add_right hop _)
    | some c =>
      rw [htype, Option.toList_some, List.length_singleton] at hop
      rw [List.length_cons]
      omega

/-! ## All operations -/

/-- **Handles keep their meaning**, whatever is done to a unit. At any moment the table of types and the way
back are each other's inverse. Asking for a type gives a handle that leads to it, then and after all later
operations, and asking at another moment gives the same handle for the same type only; no handle is greater
than the number of requests before it. Declarations get the handles 0, 1, 2 and so on, each of them once,
and what such a handle leads to stays the same unless a member is put into that very declaration or it is
changed. -/
theorem handles_permanent (file : String) (ops : List Operation) :
    let u := performAll { file } ops
    let asked := (ops.filterMap (·.type?)).length
    let added := (ops.filterMap (·.node?)).length
    (∀ c t, u.handles.lookup c = some t ↔ u.types[t.index]? = some c) ∧
      (∀ op c, op.type? = some c → ∃ t, (u.perform op).1 = .type t ∧ t.index ≤ asked ∧
        ∀ later, let u' := (u.perform op).2.performAll later
          u'.type t = c ∧ ∀ op' c', op'.type? = some c' →
            ∃ t', (u'.perform op').1 = .type t' ∧ (t = t' ↔ c = c')) ∧
      (∀ op n, op.node? = some n →
        (u.perform op).1 = .decl ⟨added⟩ ∧ (u.perform op).2.node ⟨added⟩ = n) ∧
      ∀ d : DeclId, d.index < added → ∀ later : List Operation,
        (∀ op ∈ later, op.target? ≠ some d) → (u.performAll later).node d = u.node d := by
  intro u asked added
  have hindexed : u.Indexed := (indexed_empty file).performAll ops
  have hadded : u.nodes.size = added :=
    (size_nodes_performAll { file } ops).trans (Nat.zero_add _)
  have hasked : u.types.size ≤ asked :=
    Nat.le_trans (size_types_performAll { file } ops) (Nat.le_of_eq (Nat.zero_add _))
  refine ⟨hindexed, fun op c hop => ?_, fun op n hop => ?_, fun d hd later hlater => ?_⟩
  · have ht : (u.intern c).1.index ≤ asked :=
      Nat.le_trans (hindexed.index_intern_le c) hasked
    rw [perform_of_type? hop]
    refine ⟨(u.intern c).1, rfl, ht, fun later => ?_⟩
    intro u'
    have hu' : u'.Indexed := (hindexed.intern c).performAll later
    have hc : u'.types[(u.intern c).1.index]? = some c :=
      getElem?_performAll (hindexed.getElem?_intern c) later
    refine ⟨type_eq hc, fun op' c' hop' => ⟨(u'.intern c').1, by rw [perform_of_type? hop'], ?_⟩⟩
    -- Both types have their places in the table after the second request.
    exact (hu'.intern c').eq_iff (getElem?_intern_of_some hc c') (hu'.getElem?_intern c')
  · rw [← hadded]
    exact ⟨(perform_of_node? hop).1, node_perform_of_node? hop⟩
  · exact node_performAll (hadded ▸ hd) hlater

/-- A list node with a pointer to the next one. The pointer is interned before the type that it points to,
and the field is put into the record that its type leads to. -/
def linked : List Operation :=
  [.internPointer ⟨1⟩, .addTopLevel { name := "node", kind := .record {} }, .internRecord ⟨0⟩,
    .add { name := "next", kind := .field { type := ⟨0⟩ } }, .pushMember ⟨0⟩ ⟨1⟩]

/-- Asked for again, the pointer has the handle that it had; a second member does not touch the first. -/
theorem handles_permanent_linked :
    let u := performAll { file := "list.h" } linked
    let again : Operation := .intern (.pointer ⟨1⟩)
    let later : List Operation := [.pushMember ⟨0⟩ ⟨2⟩, .modify ⟨2⟩ id]
    u.types.toList = [.pointer ⟨1⟩, .record ⟨0⟩] ∧
      (u.node ⟨0⟩).record? = some { members := [⟨1⟩] } ∧
      again.type? = some (.pointer ⟨1⟩) ∧ (u.perform again).1 = .type ⟨0⟩ ∧
      (∀ later, ((u.perform again).2.performAll later).type ⟨0⟩ = .pointer ⟨1⟩) ∧
      (u.perform (.add default)).1 = .decl ⟨2⟩ ∧
      (∀ op ∈ later, op.target? ≠ some ⟨1⟩) ∧ (u.performAll later).node ⟨1⟩ = u.node ⟨1⟩ := by
  intro u again later
  obtain ⟨-, htypes, hadds, hkeeps⟩ := handles_permanent "list.h" linked
  have hsame : (u.perform again).1 = .type ⟨0⟩ := by decide
  obtain ⟨t, hanswer, -, hleads⟩ := htypes again (.pointer ⟨1⟩) rfl
  obtain rfl : t = ⟨0⟩ := Operation.Answer.type.inj (hanswer.symm.trans hsame)
  have htargets : ∀ op ∈ later, op.target? ≠ some ⟨1⟩ := by simp [later, Operation.target?]
  exact ⟨by decide, by decide, rfl, hsame, fun later => (hleads later).1, (hadds _ default rfl).1,
    htargets, hkeeps ⟨1⟩ (by decide) later htargets⟩

end TranslationUnit

end ForeignDecl
