import Mathlib.Logic.Equiv.Defs
import ForeignDecl.Proofs.Unit.Shape
import ForeignDecl.Template.Instantiation

/-!
# Renumbered units

Handles are numbers that a front end gives out as it goes, and another one could give out others. A
`Renumbering` exchanges the handles, and two units that differ in nothing else look alike: whatever is
looked up under the new handle is what is found under the old one, with new handles in it.

Every type of the unit that holds a handle gets a function `renumber`, which goes through its fields and
changes nothing but the handles. The equations about these functions say, for each thing that an
extraction reads of a declaration, whether it is kept or renumbered. With them the proofs about layouts
and extractions (`Proofs/Layout/Renumbering.lean`, `Proofs/Extract/Renumbering.lean`) never look inside
a node.
-/

set_option autoImplicit false

namespace ForeignDecl

/-- New handles for old ones. Both maps are bijections on all handles, also on those that a unit never
issued; that issued handles stay among themselves is a hypothesis where a renumbered unit is
constructed. -/
structure Renumbering where
  decl : DeclId ≃ DeclId
  type : TypeId ≃ TypeId

/-! ## New handles -/

section Handles

variable (ρ : Renumbering)

/-- A template argument under new handles. A value keeps the type it is written with, and a spelling
holds no handle. -/
def TemplateArgument.renumber : TemplateArgument → TemplateArgument
  | .type t => .type (ρ.type t)
  | .integral t value => .integral (ρ.type t) value
  | .other spelling => .other spelling

/-- A type under new handles. All handles a type holds are replaced, those of other types and those of
declarations, and nothing else changes. -/
def CType.renumber : CType → CType
  | .builtin kind => .builtin kind
  | .pointer target => .pointer (ρ.type target)
  | .lvalueReference target => .lvalueReference (ρ.type target)
  | .rvalueReference target => .rvalueReference (ρ.type target)
  | .array element count => .array (ρ.type element) count
  | .incompleteArray element => .incompleteArray (ρ.type element)
  | .variableArray element => .variableArray (ρ.type element)
  | .record d => .record (ρ.decl d)
  | .enum d => .enum (ρ.decl d)
  | .typedef d => .typedef (ρ.decl d)
  | .elaborated inner => .elaborated (ρ.type inner)
  | .paren inner => .paren (ρ.type inner)
  | .function result params variadic => .function (ρ.type result) (params.map ρ.type) variadic
  | .specialization template args record? =>
    .specialization template (args.map (·.renumber ρ)) (record?.map ρ.decl)
  | .templateParameter name => .templateParameter name
  | .objcPointer interface? => .objcPointer (interface?.map ρ.decl)
  | .unsupported spelling => .unsupported spelling

def NodeParam.renumber (p : NodeParam) : NodeParam := { p with type := ρ.type p.type }

def FunctionNode.renumber (f : FunctionNode) : FunctionNode :=
  { f with
    result := ρ.type f.result
    params := f.params.map (·.renumber ρ)
    templateArgs? := f.templateArgs?.map (·.map (·.renumber ρ)) }

def MethodNode.renumber (m : MethodNode) : MethodNode := { m with function := m.function.renumber ρ }

def BaseSpecifier.renumber (b : BaseSpecifier) : BaseSpecifier := { b with record := ρ.decl b.record }

def Specialization.renumber (s : Specialization) : Specialization :=
  { s with args := s.args.map (·.renumber ρ) }

def ClassData.renumber (c : ClassData) : ClassData :=
  { c with
    bases := c.bases.map (·.renumber ρ)
    specialization? := c.specialization?.map (·.renumber ρ) }

/-- A record under new handles: its members, and what a class has besides, its bases and the template it
is a specialization of. -/
def RecordNode.renumber (r : RecordNode) : RecordNode :=
  { r with members := r.members.map ρ.decl, class? := r.class?.map (·.renumber ρ) }

def VarNode.renumber (v : VarNode) : VarNode := { v with type := ρ.type v.type }

def FieldNode.renumber (f : FieldNode) : FieldNode := { f with type := ρ.type f.type }

def TemplatedNode.renumber (t : TemplatedNode) : TemplatedNode :=
  { type := ρ.type t.type, params := t.params.map (·.renumber ρ) }

def InterfaceNode.renumber (n : InterfaceNode) : InterfaceNode :=
  { n with
    superclass? := n.superclass?.map ρ.decl
    protocols := n.protocols.map ρ.decl
    ivars := n.ivars.map ρ.decl
    methods := n.methods.map ρ.decl }

def CategoryNode.renumber (n : CategoryNode) : CategoryNode :=
  { interface := ρ.decl n.interface, methods := n.methods.map ρ.decl }

def ObjcMethodNode.renumber (m : ObjcMethodNode) : ObjcMethodNode :=
  { m with result := ρ.type m.result, params := m.params.map (·.renumber ρ) }

/-- What a declaration is, under new handles. Where it has members their order is kept. -/
def NodeKind.renumber : NodeKind → NodeKind
  | .namespaceBlock members => .namespaceBlock (members.map ρ.decl)
  | .linkageBlock members => .linkageBlock (members.map ρ.decl)
  | .var v => .var (v.renumber ρ)
  | .field f => .field (f.renumber ρ)
  | .indirectField => .indirectField
  | .function f => .function (f.renumber ρ)
  | .method m => .method (m.renumber ρ)
  | .functionTemplate => .functionTemplate
  | .record r => .record (r.renumber ρ)
  | .enum enumerators => .enum enumerators
  | .typedef underlying => .typedef (ρ.type underlying)
  | .typeAlias underlying => .typeAlias (ρ.type underlying)
  | .aliasTemplate t => .aliasTemplate (t.renumber ρ)
  | .varTemplate t => .varTemplate (t.renumber ρ)
  | .classTemplate => .classTemplate
  | .usingDecl => .usingDecl
  | .usingShadow => .usingShadow
  | .usingDirective => .usingDirective
  | .objcInterface n => .objcInterface (n.renumber ρ)
  | .objcCategory n => .objcCategory (n.renumber ρ)
  | .objcProtocol methods => .objcProtocol (methods.map ρ.decl)
  | .objcImplementation => .objcImplementation
  | .objcMethod m => .objcMethod (m.renumber ρ)
  | .other label named => .other label named

/-- A declaration under new handles. Its name, its place and whether it is invalid stay. -/
def Node.renumber (n : Node) : Node :=
  { n with canonical? := n.canonical?.map ρ.decl, kind := n.kind.renumber ρ }

end Handles

/-- The units are equal up to their handles: the same file, the same macros, and the same declarations
and types under new handles, in the same order wherever there is one. The look-ups `node` and `type` are
required for every handle, so a handle that was not issued leads to the default on both sides. -/
structure IsRenumbering (ρ : Renumbering) (u u' : TranslationUnit) : Prop where
  file : u'.file = u.file
  macros : u'.macros = u.macros
  topLevel : u'.topLevel.toList = u.topLevel.toList.map ρ.decl
  nodeCount : u'.nodes.size = u.nodes.size
  typeCount : u'.types.size = u.types.size
  node : ∀ d, u'.node (ρ.decl d) = (u.node d).renumber ρ
  type : ∀ t, u'.type (ρ.type t) = (u.type t).renumber ρ

/-- The same unit under new handles: at each place stands what the old unit has under the handle that
becomes this one. It shows that the relation above is not empty, and examples of it are made with it. -/
def TranslationUnit.renumber (ρ : Renumbering) (u : TranslationUnit) : TranslationUnit :=
  { file := u.file
    nodes := .ofFn fun i : Fin u.nodes.size => (u.node (ρ.decl.symm ⟨i⟩)).renumber ρ
    types := .ofFn fun i : Fin u.types.size => (u.type (ρ.type.symm ⟨i⟩)).renumber ρ
    topLevel := u.topLevel.map ρ.decl
    macros := u.macros }

/-- What is found in it, for handles in range and out of range. -/
theorem TranslationUnit.node_renumber (ρ : Renumbering) (u : TranslationUnit) (d : DeclId) :
    (u.renumber ρ).node d =
      if d.index < u.nodes.size then (u.node (ρ.decl.symm d)).renumber ρ else default := by
  obtain ⟨i⟩ := d
  by_cases hi : i < u.nodes.size
  · simp [renumber, node, Array.getD, hi]
  · simp [renumber, node, Array.getD, hi]

theorem TranslationUnit.type_renumber (ρ : Renumbering) (u : TranslationUnit) (t : TypeId) :
    (u.renumber ρ).type t =
      if t.index < u.types.size then (u.type (ρ.type.symm t)).renumber ρ else .unsupported "" := by
  obtain ⟨i⟩ := t
  by_cases hi : i < u.types.size
  · simp [renumber, type, Array.getD, hi]
  · simp [renumber, type, Array.getD, hi]

/-- Whatever way the handles of a unit are exchanged among each other, there is a unit for it. The two
hypotheses say that issued handles go to issued ones; without them a declaration would have nowhere to
go. -/
theorem isRenumbering_renumber {ρ : Renumbering} {u : TranslationUnit}
    (hdecl : ∀ d, (ρ.decl d).index < u.nodes.size ↔ d.index < u.nodes.size)
    (htype : ∀ t, (ρ.type t).index < u.types.size ↔ t.index < u.types.size) :
    IsRenumbering ρ u (u.renumber ρ) where
  file := rfl
  macros := rfl
  topLevel := Array.toList_map
  nodeCount := Array.size_ofFn
  typeCount := Array.size_ofFn
  node d := by
    rw [TranslationUnit.node_renumber, Equiv.symm_apply_apply]
    by_cases hd : d.index < u.nodes.size
    · rw [if_pos ((hdecl d).2 hd)]
    · rw [if_neg (mt (hdecl d).1 hd), TranslationUnit.node, Array.getD, dif_neg hd]
      rfl
  type t := by
    rw [TranslationUnit.type_renumber, Equiv.symm_apply_apply]
    by_cases ht : t.index < u.types.size
    · rw [if_pos ((htype t).2 ht)]
    · rw [if_neg (mt (htype t).1 ht), TranslationUnit.type, Array.getD, dif_neg ht]
      rfl

/-! ## Parts of a declaration -/

section Parts

variable (ρ : Renumbering) (n : Node) (r : RecordNode)

@[simp]
theorem Node.name_renumber : (n.renumber ρ).name = n.name := rfl

@[simp]
theorem Node.isInvalid_renumber : (n.renumber ρ).isInvalid = n.isInvalid := rfl

@[simp]
theorem Node.locationText_renumber : (n.renumber ρ).locationText = n.locationText := rfl

@[simp]
theorem Node.kind_renumber : (n.renumber ρ).kind = n.kind.renumber ρ := rfl

/-- A declaration is a record if its renumbering is one, the renumbered one. This and the equations
below take the node apart, once for each accessor. -/
@[simp]
theorem Node.record?_renumber : (n.renumber ρ).record? = n.record?.map (·.renumber ρ) := by
  obtain ⟨_, _, _, _, kind⟩ := n
  cases kind <;> rfl

@[simp]
theorem Node.field?_renumber : (n.renumber ρ).field? = n.field?.map (·.renumber ρ) := by
  obtain ⟨_, _, _, _, kind⟩ := n
  cases kind <;> rfl

@[simp]
theorem Node.aliased?_renumber : (n.renumber ρ).aliased? = n.aliased?.map ρ.type := by
  obtain ⟨_, _, _, _, kind⟩ := n
  cases kind <;> rfl

@[simp]
theorem Node.isVirtualMethod_renumber : (n.renumber ρ).isVirtualMethod = n.isVirtualMethod := by
  obtain ⟨_, _, _, _, kind⟩ := n
  cases kind <;> rfl

@[simp]
theorem Node.members_renumber : (n.renumber ρ).members = n.members.map ρ.decl := by
  obtain ⟨_, _, _, _, kind⟩ := n
  cases kind <;> rfl

@[simp]
theorem RecordNode.isUnion_renumber : (r.renumber ρ).isUnion = r.isUnion := rfl

@[simp]
theorem RecordNode.isClass_renumber : (r.renumber ρ).isClass = r.isClass := rfl

@[simp]
theorem RecordNode.isComplete_renumber : (r.renumber ρ).isComplete = r.isComplete := rfl

@[simp]
theorem RecordNode.members_renumber : (r.renumber ρ).members = r.members.map ρ.decl := rfl

@[simp]
theorem RecordNode.isCxx_renumber : (r.renumber ρ).isCxx = r.isCxx := by
  cases hclass : r.class? <;> simp [isCxx, renumber, hclass]

@[simp]
theorem RecordNode.isDependent_renumber : (r.renumber ρ).isDependent = r.isDependent := by
  cases hclass : r.class? <;> simp [isDependent, renumber, hclass, ClassData.renumber]

@[simp]
theorem RecordNode.bases_renumber : (r.renumber ρ).bases = r.bases.map (·.renumber ρ) := by
  cases hclass : r.class? <;> simp [bases, renumber, hclass, ClassData.renumber]

/-- The template that a class is a specialization of. The accessor is written out here as the builders
use it. -/
theorem RecordNode.specialization?_renumber :
    (r.renumber ρ).class?.bind (·.specialization?) =
      (r.class?.bind (·.specialization?)).map (·.renumber ρ) := by
  cases hclass : r.class? <;> simp [renumber, hclass, ClassData.renumber]

end Parts

namespace IsRenumbering

variable {ρ : Renumbering} {u u' : TranslationUnit} (h : IsRenumbering ρ u u')

include h

/-! ## Look-up -/

theorem name (d : DeclId) : (u'.node (ρ.decl d)).name = (u.node d).name := by
  rw [h.node, Node.name_renumber]

/-- Canonical declarations are renumbered, those that are given by a link and those that are canonical
themselves. -/
theorem canonical (d : DeclId) : u'.canonical (ρ.decl d) = ρ.decl (u.canonical d) := by
  unfold TranslationUnit.canonical
  rw [h.node]
  cases hcanonical : (u.node d).canonical? <;> simp [Node.renumber, hcanonical]

/-- The fields among renumbered declarations, in their order. -/
theorem fieldsAmong (ds : List DeclId) :
    u'.fieldsAmong (ds.map ρ.decl) =
      (u.fieldsAmong ds).map fun p => (ρ.decl p.1, p.2.renumber ρ) := by
  unfold TranslationUnit.fieldsAmong
  rw [List.filterMap_map, List.map_filterMap]
  refine List.filterMap_congr fun d _ => ?_
  simp [h.node, Function.comp_def]

/-- Constants hold no handles. -/
theorem constantOf? (d : DeclId) : u'.constantOf? (ρ.decl d) = u.constantOf? d := by
  unfold TranslationUnit.constantOf?
  rw [h.node, Node.kind_renumber]
  cases (u.node d).kind <;> rfl

/-- The fuel for walks through types is the number of types. -/
theorem typeBudget : u'.typeBudget = u.typeBudget := by
  rw [TranslationUnit.typeBudget, h.typeCount, TranslationUnit.typeBudget]

/-- By induction on the fuel: each step goes through one layer of sugar, on both sides the same. -/
theorem desugarWithin (fuel : Nat) (t : TypeId) :
    u'.desugarWithin fuel (ρ.type t) = ρ.type (u.desugarWithin fuel t) := by
  induction fuel generalizing t with
  | zero => rfl
  | succ fuel ih =>
    unfold TranslationUnit.desugarWithin
    rw [h.type]
    cases u.type t <;> simp only [CType.renumber, ih]

theorem desugar (t : TypeId) : u'.desugar (ρ.type t) = ρ.type (u.desugar t) := by
  rw [TranslationUnit.desugar, h.typeBudget, h.desugarWithin, TranslationUnit.desugar]

/-- By induction on the fuel. Each step takes the sugar off and looks for a typedef, whose underlying
type is renumbered. -/
theorem resolveWithin (fuel : Nat) (t : TypeId) :
    u'.resolveWithin fuel (ρ.type t) = (u.resolveWithin fuel t).renumber ρ := by
  induction fuel generalizing t with
  | zero => exact h.type t
  | succ fuel ih =>
    unfold TranslationUnit.resolveWithin
    rw [h.desugar, h.type]
    cases u.type (u.desugar t)
    case typedef d =>
      simp only [CType.renumber, h.node, Node.aliased?_renumber]
      cases (u.node d).aliased? with
      | none => rfl
      | some underlying => exact ih underlying
    all_goals rfl

/-- Resolving a renumbered type gives the renumbered type. The answer is a type and not a handle of one,
so `renumber` stands on the right. -/
theorem resolve (t : TypeId) : u'.resolve (ρ.type t) = (u.resolve t).renumber ρ := by
  rw [TranslationUnit.resolve, h.typeBudget, h.resolveWithin, TranslationUnit.resolve]

/-! ## Spelling -/

omit h in
/-- The spelling of template arguments, if types are spelled alike. `spellingWithin` calls it with the
recursion at lower fuel, hence the parameters. -/
theorem argsSpellingWith {spell spell' : TypeId → String} (hspell : ∀ t, spell' (ρ.type t) = spell t)
    (args : List TemplateArgument) :
    TranslationUnit.argsSpellingWith spell' (args.map (·.renumber ρ)) =
      TranslationUnit.argsSpellingWith spell args := by
  unfold TranslationUnit.argsSpellingWith
  rw [List.map_map]
  refine congrArg _ (List.map_congr_left fun a _ => ?_)
  cases a with
  | type t => exact hspell t
  | integral t value => rfl
  | other spelling => rfl

/-- **Spellings hold no handles.** By induction on the fuel; the cases where something besides a type is
named read names of declarations, which are kept. -/
theorem spellingWithin (fuel : Nat) (t : TypeId) :
    u'.spellingWithin fuel (ρ.type t) = u.spellingWithin fuel t := by
  induction fuel generalizing t with
  | zero => rfl
  | succ fuel ih =>
    have hparams : ∀ params : List TypeId, (params.map ρ.type).map (u'.spellingWithin fuel) =
        params.map (u.spellingWithin fuel) := by
      intro params
      rw [List.map_map]
      exact List.map_congr_left fun t _ => ih t
    unfold TranslationUnit.spellingWithin
    rw [h.type]
    cases u.type t
    case objcPointer interface? =>
      cases interface? with
      | none => rfl
      | some d => simp [CType.renumber, h.node]
    all_goals simp only [CType.renumber, ih, h.node, Node.name_renumber, hparams, argsSpellingWith ih]

theorem argsSpelling (args : List TemplateArgument) :
    u'.argsSpelling (args.map (·.renumber ρ)) = u.argsSpelling args := by
  refine argsSpellingWith (fun t => ?_) args
  rw [TranslationUnit.typeSpelling, h.typeBudget, h.spellingWithin, TranslationUnit.typeSpelling]

/-- Whether a class is still to be instantiated, and as what. -/
theorem openSpecialization? (d : DeclId) :
    u'.openSpecialization? (ρ.decl d) = (u.openSpecialization? d).map (·.renumber ρ) := by
  unfold TranslationUnit.openSpecialization?
  rw [h.node, Node.record?_renumber]
  cases (u.node d).record? with
  | none => rfl
  | some r =>
    simp only [Option.map_some, RecordNode.specialization?_renumber, Option.filter_map]
    rfl

end IsRenumbering

end ForeignDecl
