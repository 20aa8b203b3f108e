import ForeignDecl.Extract.Visit
import ForeignDecl.Proofs.Extract.Building

/-!
# A visit, in three parts

Whatever a declaration is, visiting it goes the same way: an entry is built for it, the entry is
written, and then its members are visited inside a scope. `visitWithin_succ` says so in one equation,
with the builder of every kind behind one name, `build?`. What is proved about whole visits is proved
from that equation by induction on the fuel, without looking at the kinds again.
-/

set_option autoImplicit false

namespace ForeignDecl

/-- A declaration of this kind gets its turn at being written, even if there turns out to be no entry
for it. The other kinds are passed over, or handled with the declaration around them: fields and methods
are parts of its entry. -/
def NodeKind.isWritten : NodeKind → Bool
  | .linkageBlock _ | .field _ | .indirectField | .method _ | .functionTemplate | .classTemplate
  | .objcImplementation | .objcMethod _ => false
  | .other _ named => named
  | .namespaceBlock _ | .var _ | .function _ | .record _ | .enum _ | .typedef _ | .typeAlias _
  | .aliasTemplate _ | .varTemplate _ | .usingDecl | .usingShadow | .usingDirective
  | .objcInterface _ | .objcCategory _ | .objcProtocol _ => true

/-- The scope of the members of a declaration that is itself in `scope?`. A linkage block is no scope of
its own, and what it contains is told as if the block were not there. -/
def TranslationUnit.innerScope (u : TranslationUnit) (scope? : Option DeclId) (d : DeclId) :
    Option DeclId :=
  match (u.node d).kind with
  | .linkageBlock _ => scope?
  | _ => some d

namespace Extract

variable {σ : Type} {ctx : Context σ}

/-- The entry of a declaration that is met where it is declared, whatever its kind. With this in hand a
visit has one shape for all kinds; the order of the cases is that of `handle`. -/
def build? (ctx : Context σ) (d : DeclId) : Extract σ (Option Entry) :=
  let node := ctx.unit.node d
  match node.kind with
  | .namespaceBlock _ => some <$> buildNamespace ctx d
  | .var v => some <$> buildVar ctx d v
  | .function f => (some ∘ Entry.function) <$> buildFunction ctx d f
  | .record r => buildAnyRecord? ctx .declared d r
  | .enum enumerators => some <$> buildEnum ctx d enumerators
  | .typedef underlying => buildTypedef? ctx d underlying
  | .typeAlias underlying => some <$> buildTypeAlias ctx d underlying
  | .aliasTemplate t => some <$> buildAliasTemplate ctx d t
  | .varTemplate t => some <$> buildVarTemplate ctx d t
  | .usingDecl => pure (some (.usingDecl { name := node.name }))
  | .usingShadow => pure (some (.usingShadow { name := node.name }))
  | .usingDirective => pure (some (.usingDirective { name := node.name }))
  | .objcInterface n => some <$> buildInterface ctx d n
  | .objcCategory n => some <$> buildCategory ctx d n
  | .objcProtocol methods => some <$> buildProtocol ctx d methods
  | .other label true => do
    count fun c => { c with unhandled := c.unhandled + 1 }
    return some (.unhandled { name := node.name } label)
  | .linkageBlock _ | .field _ | .indirectField | .method _ | .functionTemplate | .classTemplate
  | .objcImplementation | .objcMethod _ | .other _ false => pure none

theorem build?_of_record {d : DeclId} {r : RecordNode} (hkind : (ctx.unit.node d).kind = .record r) :
    build? ctx d = buildAnyRecord? ctx .declared d r := by
  unfold build?
  simp only [hkind]

/-- Whatever the declaration is, building its entry changes what builders may change. -/
theorem build?_builds (d : DeclId) : Within (Builds ctx.unit d) (build? ctx d) := by
  unfold build?
  dsimp only
  split
  · exact buildNamespace_builds.map _
  · exact (buildVar_builds _).map _
  · exact (buildFunction_builds (.inl rfl) _).map _
  · exact buildAnyRecord?_builds _ _
  · exact (buildEnum_builds _).map _
  · exact buildTypedef?_builds _
  · exact (buildTypeAlias_builds _).map _
  · exact ((buildTemplated_builds _).bind fun _ => within_pure _).map _
  · exact ((buildTemplated_builds _).bind fun _ => within_pure _).map _
  · exact within_pure _
  · exact within_pure _
  · exact within_pure _
  · exact (buildInterface_builds _).map _
  · exact (buildCategory_builds _).map _
  · exact (buildProtocol_builds _).map _
  · exact countUnhandled_builds.bind fun _ => within_pure _
  all_goals exact within_pure _

theorem buildPending?_builds (d : DeclId) : Within (Builds ctx.unit d) (buildPending? ctx d) := by
  unfold buildPending?
  split
  · exact buildAnyRecord?_builds _ _
  · exact within_pure _

/-- Write what there is to write for a declaration itself. Kinds that are not written get no turn, so
for them not even the queue is looked at. -/
def writeOwn (ctx : Context σ) (d : DeclId) : Extract σ Unit :=
  if (ctx.unit.node d).kind.isWritten then build? ctx d >>= emit ctx d else pure ()

/-- **Every valid declaration is handled alike**: it is written, then its members are visited. `hnil` is
about kinds without members, for which `handle` does not mention `visitAll` at all. -/
theorem handle_eq {visitAll : Option DeclId → List DeclId → Extract σ Unit}
    (hnil : ∀ scope?, visitAll scope? [] = pure ()) (d : DeclId) (s : Session σ) :
    handle ctx visitAll d s =
      (writeOwn ctx d >>= fun _ =>
        visitAll (ctx.unit.innerScope s.scope? d) (ctx.unit.node d).members) s := by
  unfold handle writeOwn build? TranslationUnit.innerScope Node.members
  dsimp only
  cases (ctx.unit.node d).kind with
  | linkageBlock ms => rfl
  | other label named =>
    cases named
    · simp [NodeKind.isWritten, hnil]
    · simp [NodeKind.isWritten, hnil]
  | _ => simp [NodeKind.isWritten, hnil, bind_map_left, bind_assoc]

/-- **A visit, one level down.** This equation replaces the definition in every proof about visits. -/
theorem visitWithin_succ (fuel : Nat) (scope? : Option DeclId) (d : DeclId) :
    visitWithin ctx (fuel + 1) scope? d =
      if (ctx.unit.node d).isInvalid then
        count fun c => { c with skippedInvalid := c.skippedInvalid + 1 }
      else inScope scope? (writeOwn ctx d >>= fun _ => (ctx.unit.node d).members.forM
        (visitWithin ctx fuel (ctx.unit.innerScope scope? d))) := by
  have hinner : handle ctx (fun scope? ds => ds.forM (visitWithin ctx fuel scope?)) d
        = fun s => (writeOwn ctx d >>= fun _ => (ctx.unit.node d).members.forM
          (visitWithin ctx fuel (ctx.unit.innerScope s.scope? d))) s :=
    funext fun s => handle_eq (fun _ => rfl) d s
  rw [visitWithin, hinner]
  rfl

end Extract

end ForeignDecl
