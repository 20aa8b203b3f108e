import ForeignDecl.Layout.Natural
import ForeignDecl.Proofs.Target
import ForeignDecl.Proofs.Text.Pieces

/-!
# Two spellings of one architecture

Some architectures have more than one name, as `amd64` and `x86_64` have. Whatever follows the name in a
triple, the names of one family give targets that are the same in all but the triple and, for `aarch64` on
Apple systems, in `long double`: that is made short under one name only (`ofTriple?_spellings`). What a
natural layout reads of a target is the pointer, `int` and the builtin types of the unit, so with targets that
agree on these it answers every question alike (`natural_congr`).
-/

set_option autoImplicit false

namespace ForeignDecl

/-! ## What a layout reads of a target -/

section Reading

variable {u : TranslationUnit} {t t' : Target}

/-- Two targets agree on what the types of a unit are made of. Builtin types that the unit does not have
are left out, so that a difference in `long double` is none for a unit without it. -/
structure Target.AgreeOn (u : TranslationUnit) (t t' : Target) : Prop where
  pointer : t.pointer = t'.pointer
  int : t.int = t'.int
  builtin? : ∀ id kind, u.type id = .builtin kind → t.builtin? kind = t'.builtin? kind

namespace Layout

/-- A type reads the target at its end, where it is builtin, a pointer or an enumeration. The layers
above only pass on what they are given. -/
theorem typeLayoutWithin_congr (h : Target.AgreeOn u t t')
    (place : DeclId → Except LayoutError Placement) (fuel : Nat) (id : TypeId) :
    typeLayoutWithin u t place fuel id = typeLayoutWithin u t' place fuel id := by
  induction fuel generalizing id with
  | zero => rfl
  | succ fuel ih =>
    unfold typeLayoutWithin
    cases htype : u.type id with
    | builtin kind =>
      dsimp only
      rw [h.builtin? id kind htype]
    | pointer | lvalueReference | rvalueReference | objcPointer =>
      dsimp only
      rw [h.pointer]
    | enum =>
      dsimp only
      rw [h.int]
    | array | incompleteArray | variableArray | elaborated | paren =>
      dsimp only
      rw [ih]
    | typedef d =>
      dsimp only
      cases (u.node d).aliased? with
      | none => rfl
      | some underlying => exact ih underlying
    | record | function | templateParameter | unsupported => rfl
    | specialization template args instantiation? => cases instantiation? <;> rfl

/-- Of the target itself, laying out a record reads the pointer only. -/
theorem placeRecord_eq_of_pointer (h : t.pointer = t'.pointer)
    (layout : TypeId → Except LayoutError TypeLayout) (place : DeclId → Except LayoutError Placement)
    (d : DeclId) : placeRecord u t layout place d = placeRecord u t' layout place d := by
  have hstart : startCursor t = startCursor t' := by
    funext hasOwnPointer
    rw [startCursor, startCursor, h]
  rw [placeRecord, hstart, placeRecord]

/-- What a record reads of the target, through its fields and bases. -/
theorem placementWithin_congr (h : Target.AgreeOn u t t') (fuel : Nat) (visiting : List DeclId)
    (d : DeclId) : placementWithin u t fuel visiting d = placementWithin u t' fuel visiting d := by
  induction fuel generalizing visiting d with
  | zero => rfl
  | succ fuel ih =>
    have hplace : placementWithin u t fuel (u.canonical d :: visiting) =
        placementWithin u t' fuel (u.canonical d :: visiting) := funext (ih _)
    have hlayout : ∀ place, typeLayoutWithin u t place u.typeBudget =
        typeLayoutWithin u t' place u.typeBudget :=
      fun place => funext (typeLayoutWithin_congr h place u.typeBudget)
    unfold placementWithin
    dsimp only
    rw [hplace, hlayout, placeRecord_eq_of_pointer h.pointer]

/-- **Natural layouts for targets that agree on the types of the unit are the same.** -/
theorem natural_congr (h : Target.AgreeOn u t t') : natural u t = natural u t' := by
  have hplacement : placement u t = placement u t' := funext (placementWithin_congr h _ [])
  have htype : typeLayout u t = typeLayout u t' := by
    funext id
    rw [typeLayout, hplacement]
    exact typeLayoutWithin_congr h _ _ id
  have hrecord : recordLayout u t = recordLayout u t' := by
    funext d
    rw [recordLayout, hplacement, recordLayout]
  rw [natural, htype, hrecord, hplacement, natural]

end Layout

end Reading

namespace Target

variable {a b arch : String} {system : System} {t : Target}

/-! ## Names of one architecture -/

/-- The architectures with more than one name. Names that have a target of their own are not in the
list, whether or not they are similar. -/
def families : List (List String) :=
  [["x86_64", "amd64"], ["aarch64", "arm64"], ["i386", "i486", "i586", "i686", "x86"]]

/-- Two names of one architecture. -/
def SpellAlike (a b : String) : Prop := ∃ family ∈ families, a ∈ family ∧ b ∈ family

/-- On Apple systems `long double` is made short for `aarch64`, but not for its other name; in an MSVC
environment it is short anyway. This is the only place at which the name of an architecture is read
again after its target was chosen. -/
def ShortensByName (arch : String) (system : System) : Prop :=
  arch = "aarch64" ∧ system.isApple ∧ ¬ system.isMsvc

instance (arch : String) (system : System) : Decidable (ShortensByName arch system) :=
  inferInstanceAs (Decidable (_ ∧ _ ∧ _))

/-- Before the types of the system are put in, names of one family have one target. That `long double`
is not short yet is noted for `aarch64`: else making it short would be no difference. -/
theorem ofArchitecture?_of_family {family : List String} (h : family ∈ families) (system : System) :
    ∃ t : Target, (∀ arch ∈ family, ∀ triple,
        ofArchitecture? triple arch system = some { t with triple }) ∧
      ("aarch64" ∈ family → t.longDouble ≠ t.double) := by
  have hfamily : family = ["x86_64", "amd64"] ∨ family = ["aarch64", "arm64"] ∨
      family = ["i386", "i486", "i586", "i686", "x86"] := by
    simpa [families] using h
  -- One case for each family, as each is looked up in its own branch, behind those of the others.
  rcases hfamily with rfl | rfl | rfl
  · exact ⟨lp64 "", fun arch harch triple => if_pos harch, by decide⟩
  · refine ⟨{ lp64 "" with charIsSigned := system.isApple || system.isWindows },
      fun arch harch triple => ?_, fun _ => ?_⟩
    · have hother : ∀ arch ∈ ["aarch64", "arm64"], arch ∉ ["x86_64", "amd64"] := by decide
      rw [ofArchitecture?, if_neg (hother arch harch), if_pos harch]
      rfl
    · show (lp64 "").longDouble ≠ (lp64 "").double
      decide
  · refine ⟨if system.isMsvc then ilp32 "" else { ilp32 "" with
        longLong := ⟨64, 32⟩, double := ⟨64, 32⟩, longDouble := ⟨96, 32⟩ },
      fun arch harch triple => ?_, fun haarch64 => absurd haarch64 (by decide)⟩
    have hother : ∀ arch ∈ ["i386", "i486", "i586", "i686", "x86"],
        arch ∉ ["x86_64", "amd64"] ∧ arch ∉ ["aarch64", "arm64"] ∧
        arch ∉ ["riscv64", "powerpc64", "powerpc64le", "s390x", "mips64", "mips64el"] := by decide
    obtain ⟨hx86_64, haarch64, hrest⟩ := hother arch harch
    rw [ofArchitecture?, if_neg hx86_64, if_neg haarch64, if_neg hrest, if_pos harch]
    split <;> rfl

theorem longDouble_withShortLongDouble (arch : String) (system : System) (t : Target) :
    (withShortLongDouble arch system (withWindowsTypes system t)).longDouble =
      if system.isMsvc ∨ ShortensByName arch system then t.double else t.longDouble := by
  have hdouble : (withWindowsTypes system t).double = t.double := by
    unfold withWindowsTypes
    split <;> rfl
  have hlongDouble : (withWindowsTypes system t).longDouble = t.longDouble := by
    unfold withWindowsTypes
    split <;> rfl
  have hcond : (system.isMsvc || (system.isApple && decide (arch = "aarch64"))) = true ↔
      system.isMsvc ∨ ShortensByName arch system := by
    simp only [ShortensByName, Bool.or_eq_true, Bool.and_eq_true, decide_eq_true_eq]
    tauto
  by_cases h : system.isMsvc ∨ ShortensByName arch system
  · rw [if_pos h, withShortLongDouble, if_pos (hcond.2 h)]
    exact hdouble
  · rw [if_neg h, withShortLongDouble, if_neg (mt hcond.1 h)]
    exact hlongDouble

/-- The target of a system, from that of an architecture. What depends on the name is put in by
`withShortLongDouble` alone. -/
def forSystem (arch triple : String) (system : System) (t : Target) : Target :=
  withShortLongDouble arch system (withWindowsTypes system { t with triple })

/-- Two names differ in `long double` if it is made short for exactly one of them. -/
theorem longDouble_forSystem_eq_iff (triple triple' : String)
    (h : ShortensByName a system ∨ ShortensByName b system → t.longDouble ≠ t.double) :
    (forSystem a triple system t).longDouble = (forSystem b triple' system t).longDouble ↔
      (ShortensByName a system ↔ ShortensByName b system) := by
  rw [forSystem, forSystem, longDouble_withShortLongDouble, longDouble_withShortLongDouble]
  dsimp only
  by_cases hmsvc : system.isMsvc
  · simp [ShortensByName, hmsvc]
  · by_cases ha : ShortensByName a system <;> by_cases hb : ShortensByName b system
    · simp [ha, hb]
    · simp [hmsvc, ha, hb, (h (.inl ha)).symm]
    · simp [hmsvc, ha, hb, h (.inr hb)]
    · simp [hmsvc, ha, hb]

/-- Nothing else of the target depends on the name. -/
theorem forSystem_eq (a b triple triple' : String) (system : System) (t : Target) :
    forSystem b triple' system t = { forSystem a triple system t with
      triple := triple', longDouble := (forSystem b triple' system t).longDouble } := by
  have hbase : ∀ arch triple, forSystem arch triple system t = { withWindowsTypes system t with
      triple, longDouble := (forSystem arch triple system t).longDouble } := by
    intro arch triple
    unfold forSystem withShortLongDouble withWindowsTypes
    split <;> split <;> rfl
  rw [hbase b triple', hbase a triple]

/-- A triple that begins with a known name has a target, whatever follows the name. -/
theorem ofTriple?_append {suffix : String} (hname : '-' ∉ arch.toList) (harch : arch ≠ "")
    (hfound : ofArchitecture? (arch ++ "-" ++ suffix) arch (System.ofParts (suffix.splitOn "-")) =
      some { t with triple := arch ++ "-" ++ suffix }) :
    ofTriple? (arch ++ "-" ++ suffix) =
      .ok (forSystem arch (arch ++ "-" ++ suffix) (System.ofParts (suffix.splitOn "-")) t) :=
  ofTriple?_of_architecture (Text.splitOn_append hname suffix) harch (Text.splitOn_ne_nil suffix '-')
    hfound

/-! ## The targets and their natural layouts -/

/-- A unit whose only type is `long double`. Its natural layout tells two targets apart that differ in
nothing else, so agreement on all units is not only sufficient but necessary
(`longDouble_eq_of_natural`). -/
def longDoubleOnly : TranslationUnit where
  file := "l.c"
  types := #[.builtin .longDouble]

/-- Targets with the same natural layouts have the same `long double`. -/
theorem longDouble_eq_of_natural {t t' : Target}
    (h : Layout.natural longDoubleOnly t = Layout.natural longDoubleOnly t') :
    t.longDouble = t'.longDouble := by
  have htype : ∀ t, (Layout.natural longDoubleOnly t).type ⟨0⟩ = .ok t.longDouble := fun _ => rfl
  have hok : (Except.ok t.longDouble : Except LayoutError TypeLayout) = .ok t'.longDouble := by
    rw [← htype t, h, htype t']
  exact Except.ok.inj hok

/-- A target with another `long double` agrees on a unit that has none. -/
theorem agreeOn_of_longDouble {u : TranslationUnit} (t : Target) (triple : String) {l : TypeLayout}
    (h : t.longDouble = l ∨ ∀ id, u.type id ≠ .builtin .longDouble) :
    AgreeOn u t { t with triple, longDouble := l } where
  pointer := rfl
  int := rfl
  builtin? id kind hkind := by
    cases kind
    case longDouble =>
      rcases h with heq | hnone
      · exact congrArg some heq
      · exact absurd hkind (hnone id)
    all_goals rfl

/-- **Two spellings of one architecture give one target**, whatever follows in the triple: both names are
accepted, and but for the triple itself and `long double` the targets are the same. So is `long double`, and
with it every natural layout of every unit, unless exactly one of the names is `aarch64`, on an Apple system
without an MSVC environment; and then still the layouts of a unit without `long double` are the same. -/
theorem ofTriple?_spellings (h : SpellAlike a b) (suffix : String) :
    let system := System.ofParts (suffix.splitOn "-")
    ∃ t t', ofTriple? (a ++ "-" ++ suffix) = .ok t ∧ ofTriple? (b ++ "-" ++ suffix) = .ok t' ∧
      t' = { t with triple := b ++ "-" ++ suffix, longDouble := t'.longDouble } ∧
      (t.longDouble = t'.longDouble ↔ (ShortensByName a system ↔ ShortensByName b system)) ∧
      ((∀ u, Layout.natural u t = Layout.natural u t') ↔
        (ShortensByName a system ↔ ShortensByName b system)) ∧
      ∀ u : TranslationUnit, (∀ id, u.type id ≠ .builtin .longDouble) →
        Layout.natural u t = Layout.natural u t' := by
  intro system
  obtain ⟨family, hfamily, ha, hb⟩ := h
  obtain ⟨t₀, hfound, hlong⟩ := ofArchitecture?_of_family hfamily system
  have hnames : ∀ family ∈ families, ∀ arch ∈ family, '-' ∉ arch.toList ∧ arch ≠ "" := by decide
  have hok : ∀ arch ∈ family, ofTriple? (arch ++ "-" ++ suffix) =
      .ok (forSystem arch (arch ++ "-" ++ suffix) system t₀) := fun arch harch =>
    ofTriple?_append (hnames family hfamily arch harch).1 (hnames family hfamily arch harch).2
      (hfound arch harch _)
  -- If a name makes `long double` short, it was not short before, so the change can be seen.
  have hshort : ShortensByName a system ∨ ShortensByName b system → t₀.longDouble ≠ t₀.double := by
    rintro (⟨rfl, -⟩ | ⟨rfl, -⟩)
    · exact hlong ha
    · exact hlong hb
  refine ⟨_, _, hok a ha, hok b hb, ?_⟩
  have hrest := forSystem_eq a b (a ++ "-" ++ suffix) (b ++ "-" ++ suffix) system t₀
  have hlongDouble := longDouble_forSystem_eq_iff (a ++ "-" ++ suffix) (b ++ "-" ++ suffix) hshort
  generalize forSystem a (a ++ "-" ++ suffix) system t₀ = t at hrest hlongDouble ⊢
  generalize forSystem b (b ++ "-" ++ suffix) system t₀ = t' at hrest hlongDouble ⊢
  have hnatural : ∀ u : TranslationUnit, (t.longDouble = t'.longDouble ∨
      ∀ id, u.type id ≠ .builtin .longDouble) → Layout.natural u t = Layout.natural u t' := by
    intro u hu
    rw [hrest]
    exact Layout.natural_congr (agreeOn_of_longDouble t _ hu)
  refine ⟨hrest, hlongDouble, ⟨fun hall => ?_, fun hnames u => ?_⟩, fun u hu => hnatural u (.inr hu)⟩
  · exact hlongDouble.1 (longDouble_eq_of_natural (hall longDoubleOnly))
  · exact hnatural u (.inl (hlongDouble.2 hnames))

/-- The two names that differ on Apple systems are of one family. -/
theorem spellAlike_arm64 : SpellAlike "aarch64" "arm64" :=
  ⟨["aarch64", "arm64"], by decide, by decide, by decide⟩

/-- In an MSVC environment `long double` is short under both names. -/
theorem ofTriple?_spellings_msvc :
    SpellAlike "aarch64" "arm64" ∧
      ∃ t t', ofTriple? ("aarch64" ++ "-" ++ "pc-windows-msvc") = .ok t ∧
        ofTriple? ("arm64" ++ "-" ++ "pc-windows-msvc") = .ok t' ∧
        t.longDouble = t'.longDouble ∧ ∀ u, Layout.natural u t = Layout.natural u t' := by
  have hparts : "pc-windows-msvc".splitOn "-" = ["pc", "windows", "msvc"] :=
    (Text.splitOn_eq _ '-').trans (by decide)
  have hsystem : System.ofParts ["pc", "windows", "msvc"] = ⟨true, true, false⟩ := by decide +kernel
  have hnames : ShortensByName "aarch64" ⟨true, true, false⟩ ↔
      ShortensByName "arm64" ⟨true, true, false⟩ := by decide
  obtain ⟨t, t', ht, ht', -, hlongDouble, hnatural, -⟩ :=
    ofTriple?_spellings spellAlike_arm64 "pc-windows-msvc"
  rw [hparts, hsystem] at hlongDouble hnatural
  exact ⟨spellAlike_arm64, t, t', ht, ht', hlongDouble.2 hnames, hnatural.2 hnames⟩

/-- On an Apple system the name makes a difference. -/
theorem ofTriple?_tells_spellings_apart :
    SpellAlike "aarch64" "arm64" ∧
      ∃ t t', ofTriple? "aarch64-apple-darwin" = .ok t ∧ ofTriple? "arm64-apple-darwin" = .ok t' ∧
        t.longDouble = ⟨64, 64⟩ ∧ t'.longDouble = ⟨128, 128⟩ ∧
        Layout.natural longDoubleOnly t ≠ Layout.natural longDoubleOnly t' := by
  have hsplit : "aarch64-apple-darwin".splitOn "-" = ["aarch64", "apple", "darwin"] :=
    (Text.splitOn_eq _ '-').trans (by decide)
  have hsplit' : "arm64-apple-darwin".splitOn "-" = ["arm64", "apple", "darwin"] :=
    (Text.splitOn_eq _ '-').trans (by decide)
  have hsystem : System.ofParts ["apple", "darwin"] = ⟨false, false, true⟩ := by decide +kernel
  have hfound : ∀ arch ∈ ["aarch64", "arm64"], ∀ triple,
      ofArchitecture? triple arch (System.ofParts ["apple", "darwin"]) = some (lp64 triple) := by
    intro arch harch triple
    have hother : ∀ arch ∈ ["aarch64", "arm64"], arch ∉ ["x86_64", "amd64"] := by decide
    rw [ofArchitecture?, if_neg (hother arch harch), if_pos harch, hsystem]
    rfl
  refine ⟨spellAlike_arm64, _, _,
    ofTriple?_of_architecture hsplit (by decide) (by decide) (hfound _ (by decide) _),
    ofTriple?_of_architecture hsplit' (by decide) (by decide) (hfound _ (by decide) _), ?_, ?_, ?_⟩
  · rw [hsystem]
    rfl
  · rw [hsystem]
    rfl
  · intro hnatural
    have hlongDouble := longDouble_eq_of_natural hnatural
    rw [hsystem] at hlongDouble
    exact absurd hlongDouble (by decide)

end Target

end ForeignDecl
