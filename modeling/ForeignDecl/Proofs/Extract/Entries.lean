import ForeignDecl.Proofs.Extract.Records

/-!
# What an entry says of its declaration

The kind and the name of an entry, and the place a builder puts in, can be told from the declaration
alone: they depend neither on the session nor on the layout oracle. The listing of a document is made
of them (`Proofs/Extract/Listing.lean`), which is why it can be computed without running the extraction.
-/

set_option autoImplicit false

namespace ForeignDecl

/-- The name of the kind of the entry of a declaration, as it stands in the document. Kinds that have no
entry of their own and are written all the same are called unhandled. -/
def TranslationUnit.entryLabel (u : TranslationUnit) (d : DeclId) : String :=
  match (u.node d).kind with
  | .namespaceBlock _ => "namespace"
  | .var _ => "var"
  | .function _ => "function"
  | .record r => if r.isCxx then "cxx-record" else "record"
  | .enum _ => "enum"
  | .typedef _ => "typedef"
  | .typeAlias _ => "type-alias"
  | .aliasTemplate _ => "type-alias-template"
  | .varTemplate _ => "var-template"
  | .usingDecl => "using"
  | .usingShadow => "using-shadow"
  | .usingDirective => "using-directive"
  | .objcInterface _ => "objc-interface"
  | .objcCategory _ => "objc-category"
  | .objcProtocol _ => "objc-protocol"
  | _ => "unhandled"

/-- Only records are told as records. So what is known of the entries of records can be asked for by the
label. -/
theorem TranslationUnit.exists_record_of_entryLabel {u : TranslationUnit} {d : DeclId}
    (h : u.entryLabel d = "record" ∨ u.entryLabel d = "cxx-record") :
    ∃ r, (u.node d).kind = .record r := by
  unfold entryLabel at h
  split at h
  case h_4 r hkind => exact ⟨r, hkind⟩
  all_goals simp at h

/-- The macro that a variable stands for. Such variables are declared by the fragment of macro constants
and carry the macro's name inside their own. -/
def TranslationUnit.macroName? (u : TranslationUnit) (d : DeclId) : Option String :=
  match (u.node d).kind with
  | .var _ => macroOfConstant? (u.node d).name
  | _ => none

/-- The name in the entry of a declaration: the macro's for a variable that stands for one, the
class's for a category, and its own for any other. -/
def TranslationUnit.entryName (u : TranslationUnit) (d : DeclId) : String :=
  match (u.node d).kind with
  | .objcCategory n => (u.node n.interface).name
  | _ => (u.macroName? d).getD (u.node d).name

theorem TranslationUnit.entryName_of_record {u : TranslationUnit} {d : DeclId} {r : RecordNode}
    (h : (u.node d).kind = .record r) : u.entryName d = (u.node d).name := by
  simp [entryName, macroName?, h]

/-- The place that a builder puts in: that of the macro for a variable which stands for one. Everything
else gets the place of its declaration when it is written. -/
def TranslationUnit.ownPlace (u : TranslationUnit) (d : DeclId) : String :=
  match u.macroName? d with
  | some name => ((u.macros.location? name).map Location.text).getD ""
  | none => ""

/-- What a builder puts into an entry for `d`. The scope in `info` is still zero here; it is part of the
stamp. -/
structure Entry.Describes (e : Entry) (u : TranslationUnit) (d : DeclId) : Prop where
  label : e.kindLabel = u.entryLabel d
  info : e.info = { name := u.entryName d, location := u.ownPlace d }

namespace Extract

variable {σ : Type} {ctx : Context σ} {d : DeclId}

theorem returns_none {P : Entry → Prop} :
    Returns (fun e? => ∀ e ∈ e?, P e) (pure none : Extract σ (Option Entry)) :=
  returns_pure (by simp)

theorem returns_some {P : Entry → Prop} {e : Entry} (h : P e) :
    Returns (fun e? => ∀ e ∈ e?, P e) (pure (some e) : Extract σ (Option Entry)) :=
  returns_pure (by simpa using h)

theorem Returns.some {P : Entry → Prop} {x : Extract σ Entry} (h : Returns P x) :
    Returns (fun e? => ∀ e ∈ e?, P e) (Option.some <$> x) :=
  .map fun s e s' he => by simpa using h s e s' he

theorem buildFunction_info (x : DeclId) (f : FunctionNode) :
    Returns (fun b : FunctionEntry => b.info = { name := (ctx.unit.node x).name })
      (buildFunction ctx x f) :=
  .bind fun _ => .bind fun _ => .bind fun _ => .bind fun _ => returns_pure rfl

/-- A record is told as one of C or of C++, by its name. -/
theorem Makes.describes {r : RecordNode} {e : Entry} {s s' : Session σ}
    (hkind : (ctx.unit.node d).kind = .record r) (h : Makes ctx d r s s' e) :
    e.Describes ctx.unit d := by
  have hname : ctx.unit.entryName d = (ctx.unit.node d).name :=
    TranslationUnit.entryName_of_record hkind
  have hplace : ctx.unit.ownPlace d = "" := by
    simp [TranslationUnit.ownPlace, TranslationUnit.macroName?, hkind]
  cases h with
  | record hcxx _ _ body =>
    obtain ⟨_, hinfo⟩ := buildBody_header _ _ _ _ _ _ _ body
    refine ⟨?_, ?_⟩
    · simp [Entry.kindLabel, TranslationUnit.entryLabel, hkind, hcxx]
    · rw [hname, hplace]
      exact hinfo
  | classRecord hcxx _ _ _ _ body _ =>
    obtain ⟨_, hinfo⟩ := buildBody_header _ _ _ _ _ _ _ body
    refine ⟨?_, ?_⟩
    · simp [Entry.kindLabel, TranslationUnit.entryLabel, hkind, hcxx]
    · rw [hname, hplace]
      exact hinfo

theorem buildAnyRecord?_describes {occasion : Occasion} {r : RecordNode}
    (hkind : (ctx.unit.node d).kind = .record r) :
    Returns (fun e? => ∀ e ∈ e?, e.Describes ctx.unit d) (buildAnyRecord? ctx occasion d r) := by
  intro s e? s' h e he
  rcases buildAnyRecord?_eq_ok h with ⟨rfl, _⟩ | ⟨e', rfl, _, hmakes⟩
  · cases he
  · cases he
    exact hmakes.describes hkind

/-- **A queued record is told as itself.** -/
theorem buildPending?_describes :
    Returns (fun e? => ∀ e ∈ e?, e.Describes ctx.unit d) (buildPending? ctx d) := by
  unfold buildPending?
  split
  · next r hr => exact buildAnyRecord?_describes (Node.record?_eq_some.1 hr)
  · exact returns_none

/-- A variable is told by its own name or by that of a macro; with the macro's name comes the macro's
place. -/
theorem buildVar_describes {v : VarNode} (hkind : (ctx.unit.node d).kind = .var v) :
    Returns (fun e => e.Describes ctx.unit d) (buildVar ctx d v) := by
  refine .bind fun type => returns_pure ⟨?_, ?_⟩
  · simp [Entry.kindLabel, TranslationUnit.entryLabel, hkind]
  · simp only [Entry.info, TranslationUnit.entryName, TranslationUnit.macroName?,
      TranslationUnit.ownPlace, hkind]
    split
    · next hconst => simp [hconst]
    · next hconst => simp [hconst]

/-- **A declaration is told as itself.** The cases are the kinds of declarations. What is to be shown is
specialised to the kind first (`hdescribes`), so that in each case it is the entry that the builder
writes down. -/
theorem build?_describes :
    Returns (fun e? => ∀ e ∈ e?, e.Describes ctx.unit d) (build? ctx d) := by
  have hdescribes : ∀ e : Entry, e.kindLabel = ctx.unit.entryLabel d →
      e.info = { name := ctx.unit.entryName d, location := ctx.unit.ownPlace d } →
      e.Describes ctx.unit d := fun e hlabel hinfo => ⟨hlabel, hinfo⟩
  unfold build?
  dsimp only
  cases hkind : (ctx.unit.node d).kind
  -- The label, the name and the place are computed from the kind, so they are known in each case.
  all_goals
    simp only [TranslationUnit.entryLabel, TranslationUnit.entryName, TranslationUnit.macroName?,
      TranslationUnit.ownPlace, hkind, Option.getD_none] at hdescribes
  case var v => exact .some (buildVar_describes hkind)
  case record r => exact buildAnyRecord?_describes hkind
  case function f =>
    refine .map fun s b s' hb => ?_
    have hinfo := buildFunction_info d f s b s' hb
    simpa using hdescribes (.function b) rfl hinfo
  case typedef t =>
    change Returns _ (buildTypedef? ctx d t)
    unfold buildTypedef?
    split
    · exact .bind fun _ => returns_some (hdescribes _ rfl rfl)
    · exact .bind fun _ => returns_none
  case enum enumerators =>
    refine .some (.bind fun _ => ?_)
    dsimp only
    split
    · exact .bind fun _ => returns_pure (hdescribes _ rfl rfl)
    · exact .bind fun _ => returns_pure (hdescribes _ rfl rfl)
  case other label named =>
    cases named with
    | true => exact .bind fun _ => returns_some (hdescribes _ rfl rfl)
    | false => exact returns_none
  case namespaceBlock ms =>
    exact .some (.bind fun _ => .bind fun _ => .bind fun _ => returns_pure (hdescribes _ rfl rfl))
  case typeAlias t => exact .some (.bind fun _ => returns_pure (hdescribes _ rfl rfl))
  case aliasTemplate t => exact .some (.bind fun _ => returns_pure (hdescribes _ rfl rfl))
  case varTemplate t => exact .some (.bind fun _ => returns_pure (hdescribes _ rfl rfl))
  case objcInterface n =>
    exact .some (.bind fun _ => .bind fun _ => .bind fun _ => returns_pure (hdescribes _ rfl rfl))
  case objcCategory n =>
    exact .some (.bind fun _ => .bind fun _ => returns_pure (hdescribes _ rfl rfl))
  case objcProtocol methods =>
    exact .some (.bind fun _ => .bind fun _ => returns_pure (hdescribes _ rfl rfl))
  case usingDecl => exact returns_some (hdescribes _ rfl rfl)
  case usingShadow => exact returns_some (hdescribes _ rfl rfl)
  case usingDirective => exact returns_some (hdescribes _ rfl rfl)
  all_goals exact returns_none

end Extract

end ForeignDecl
