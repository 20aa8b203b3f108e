import ForeignDecl.Proofs.Text.Pieces
import ForeignDecl.Target

/-!
# Targets that pass the check

A target passes the check exactly if all layouts it chooses are fit to be used (`check_eq_ok_iff`), and
then so is the layout of every builtin type, the fixed ones included. The target of a triple passes it,
and there integral types are aligned to their size, with one exception (`align_of_isIntegral`).
-/

set_option autoImplicit false

namespace ForeignDecl

/-- An integer type, a character type or `bool`. -/
def Builtin.isIntegral : Builtin → Bool
  | bool | char | signedChar | unsignedChar | wideChar | char16 | char32 | short | unsignedShort
  | int | unsignedInt | long | unsignedLong | longLong | unsignedLongLong | int128
  | unsignedInt128 => true
  | void | half | float | double | longDouble | float128 | nullPointer => false

namespace Target

variable {t : Target}

/-- A size of whole bytes, and an alignment to a power of two of them. Layouts are computed from such
sizes and alignments only. -/
structure IsFit (l : TypeLayout) : Prop where
  size : isByteSized l.size
  align : isByteAlignment l.align

theorem faultOf?_eq_none_iff {name : String} {l : TypeLayout} :
    faultOf? name l = none ↔ IsFit l := by
  unfold faultOf?
  constructor
  · intro h
    split at h
    · cases h
    next hsize =>
    split at h
    · cases h
    next halign =>
    exact ⟨by simpa using hsize, by simpa using halign⟩
  · intro h
    simp [h.size, h.align]

/-- The check finds the first fault, so it passes if there is none. -/
theorem check_eq_ok_iff : t.check = .ok () ↔ ∀ e ∈ t.entries, IsFit e.2 := by
  have hnone : t.check = .ok () ↔ t.entries.findSome? (fun e => faultOf? e.1 e.2) = none := by
    unfold check
    split
    · next fault h => simp [h]
    · next h => simp [h]
  rw [hnone, List.findSome?_eq_none_iff]
  exact forall₂_congr fun _ _ => faultOf?_eq_none_iff

/-- The layout of a builtin type is a fixed one, or one of those that the target chooses. So what holds
of these holds of every builtin type. -/
theorem mem_of_builtin? {kind : Builtin} {l : TypeLayout} (h : t.builtin? kind = some l) :
    l ∈ [⟨8, 8⟩, ⟨16, 16⟩, ⟨32, 32⟩] ++ t.entries.map (·.2) := by
  cases kind
  case void => cases h
  all_goals
    cases h
    simp [entries]

/-- **Every builtin type of a target that passes the check has a fit layout.** -/
theorem isFit_of_builtin? (h : t.check = .ok ()) {kind : Builtin} {l : TypeLayout}
    (hl : t.builtin? kind = some l) : IsFit l := by
  have hfixed : ∀ l ∈ ([⟨8, 8⟩, ⟨16, 16⟩, ⟨32, 32⟩] : List TypeLayout),
      isByteSized l.size ∧ isByteAlignment l.align := by decide
  rcases List.mem_append.1 (mem_of_builtin? hl) with hmem | hmem
  · exact ⟨(hfixed l hmem).1, (hfixed l hmem).2⟩
  · obtain ⟨e, he, rfl⟩ := List.mem_map.1 hmem
    exact check_eq_ok_iff.1 h e he

theorem IsFit.le_align {l : TypeLayout} (h : IsFit l) : 8 ≤ l.align := by
  have halign := h.align
  simp only [isByteAlignment, Bool.and_eq_true, decide_eq_true_eq] at halign
  exact halign.1

theorem IsFit.size_pos {l : TypeLayout} (h : IsFit l) : 0 < l.size := by
  have hsize := h.size
  simp only [isByteSized, Bool.and_eq_true, decide_eq_true_eq] at hsize
  exact Nat.pos_of_ne_zero hsize.1

/-- Alignments are powers of two, so of two of them one divides the other. -/
theorem IsFit.isPowerOfTwo_align {l : TypeLayout} (h : IsFit l) : l.align.isPowerOfTwo := by
  have halign := h.align
  simp only [isByteAlignment, Bool.and_eq_true, decide_eq_true_eq] at halign
  exact ⟨l.align.log2, halign.2.symm⟩

/-! ## The target of a triple -/

section Checked

variable {triple arch : String} {parts : List String} {system : System}

/-- Every layout that the target chooses may be used. That is what the check asks, said without the
check, so that it can be carried through the changes which a system makes. -/
def ChoosesFit (t : Target) : Prop := ∀ e ∈ t.entries, IsFit e.2

/-- The same, field by field, for a change of one field. -/
theorem choosesFit_iff : ChoosesFit t ↔ IsFit t.pointer ∧ IsFit t.bool ∧ IsFit t.short ∧ IsFit t.int ∧
    IsFit t.long ∧ IsFit t.longLong ∧ IsFit t.int128 ∧ IsFit t.half ∧ IsFit t.float ∧ IsFit t.double ∧
    IsFit t.longDouble ∧ IsFit t.float128 ∧ IsFit t.wideChar := by
  simp only [ChoosesFit, entries, List.forall_mem_cons, List.not_mem_nil, false_imp_iff,
    implies_true, and_true]

/-- The models that architectures start from. Whether a layout is fit does not depend on the triple, so
there are only four of them to look at. -/
theorem choosesFit_of_models (t' : Target) (ht : t.entries = t'.entries)
    (h : t' ∈ [lp64 "", ilp32 "", { ilp32 "" with longDouble := ⟨128, 128⟩ },
      { ilp32 "" with longLong := ⟨64, 32⟩, double := ⟨64, 32⟩, longDouble := ⟨96, 32⟩ }]) :
    ChoosesFit t := by
  have hall : ∀ t' ∈ [lp64 "", ilp32 "", { ilp32 "" with longDouble := ⟨128, 128⟩ },
      { ilp32 "" with longLong := ⟨64, 32⟩, double := ⟨64, 32⟩, longDouble := ⟨96, 32⟩ }],
      ∀ e ∈ t'.entries, isByteSized e.2.size ∧ isByteAlignment e.2.align := by decide
  intro e he
  rw [ht] at he
  exact ⟨(hall t' h e he).1, (hall t' h e he).2⟩

/-- Whatever the architecture, its types are those of one of the models. -/
theorem choosesFit_of_architecture (h : ofArchitecture? triple arch system = some t) :
    ChoosesFit t := by
  unfold ofArchitecture? at h
  split at h
  · cases h
    exact choosesFit_of_models (lp64 "") rfl (by simp)
  split at h
  · cases h
    exact choosesFit_of_models (lp64 "") rfl (by simp)
  split at h
  · cases h
    exact choosesFit_of_models (lp64 "") rfl (by simp)
  split at h
  · split at h
    · cases h
      exact choosesFit_of_models (ilp32 "") rfl (by simp)
    · cases h
      exact choosesFit_of_models { ilp32 "" with
        longLong := ⟨64, 32⟩, double := ⟨64, 32⟩, longDouble := ⟨96, 32⟩ } rfl (by simp)
  split at h
  · cases h
    exact choosesFit_of_models (ilp32 "") rfl (by simp)
  split at h
  · cases h
    exact choosesFit_of_models { ilp32 "" with longDouble := ⟨128, 128⟩ } rfl (by simp)
  · cases h

theorem ChoosesFit.withWindowsTypes (h : ChoosesFit t) (system : System) :
    ChoosesFit (withWindowsTypes system t) := by
  have hlong : IsFit ⟨32, 32⟩ := ⟨by decide, by decide⟩
  have hwide : IsFit ⟨16, 16⟩ := ⟨by decide, by decide⟩
  unfold Target.withWindowsTypes
  split
  · rw [choosesFit_iff] at h ⊢
    obtain ⟨hpointer, hbool, hshort, hint, -, hrest⟩ := h
    obtain ⟨hlongLong, hint128, hhalf, hfloat, hdouble, hlongDouble, hfloat128, -⟩ := hrest
    exact ⟨hpointer, hbool, hshort, hint, hlong, hlongLong, hint128, hhalf, hfloat, hdouble,
      hlongDouble, hfloat128, hwide⟩
  · exact h

theorem ChoosesFit.withShortLongDouble (h : ChoosesFit t) (arch : String) (system : System) :
    ChoosesFit (withShortLongDouble arch system t) := by
  unfold Target.withShortLongDouble
  split
  · rw [choosesFit_iff] at h ⊢
    obtain ⟨hpointer, hbool, hshort, hint, hlong, hlongLong, hint128, hhalf, hfloat, hdouble, -,
      hrest⟩ := h
    exact ⟨hpointer, hbool, hshort, hint, hlong, hlongLong, hint128, hhalf, hfloat, hdouble,
      hdouble, hrest⟩
  · exact h

/-- **A triple with a known architecture has a target**: the check never fails for it. -/
theorem ofTriple?_of_architecture (hsplit : triple.splitOn "-" = arch :: parts) (harch : arch ≠ "")
    (hparts : parts ≠ []) (hfound : ofArchitecture? triple arch (System.ofParts parts) = some t) :
    ofTriple? triple = .ok (withShortLongDouble arch (System.ofParts parts)
      (withWindowsTypes (System.ofParts parts) t)) := by
  have hcheck := check_eq_ok_iff.2 (((choosesFit_of_architecture hfound).withWindowsTypes
    (System.ofParts parts)).withShortLongDouble arch (System.ofParts parts))
  have hgiven : ¬ ((arch.isEmpty || parts.isEmpty) = true) := by
    simp [String.isEmpty_iff, harch, hparts]
  unfold ofTriple?
  rw [hsplit]
  dsimp only
  rw [if_neg hgiven, hfound]
  dsimp only
  rw [hcheck]
  rfl

end Checked

/-- Where eight bytes are aligned to four. This is the target for examples in which a size and its
alignment differ. -/
def x86Linux : Target :=
  { ilp32 "x86-linux" with
    longLong := ⟨64, 32⟩, double := ⟨64, 32⟩, longDouble := ⟨96, 32⟩ }

/-- It is the target of the triple. The parts of a triple are found by a lemma, since cutting a text is
not evaluated. -/
theorem ofTriple?_x86Linux : ofTriple? "x86-linux" = .ok x86Linux := by
  have hsplit : "x86-linux".splitOn "-" = ["x86", "linux"] :=
    (Text.splitOn_eq _ '-').trans (by decide)
  have hsystem : System.ofParts ["linux"] = ⟨false, false, false⟩ := by decide +kernel
  have hfound : ofArchitecture? "x86-linux" "x86" (System.ofParts ["linux"]) = some x86Linux := by
    rw [hsystem]
    decide +kernel
  rw [ofTriple?_of_architecture hsplit (by decide) (by decide) hfound, hsystem]
  rfl

/-! ## Integral types -/

/-- What it takes for a triple to have a target: an architecture that is known, and the changes of the
system to its types. -/
theorem ofTriple?_eq_ok {triple : String} (h : ofTriple? triple = .ok t) :
    ∃ arch parts t₀, triple.splitOn "-" = arch :: parts ∧
      ofArchitecture? triple arch (System.ofParts parts) = some t₀ ∧
      t = withShortLongDouble arch (System.ofParts parts)
        (withWindowsTypes (System.ofParts parts) t₀) ∧
      t.check = .ok () := by
  unfold ofTriple? at h
  split at h
  · cases h
  next arch parts hsplit =>
  split at h
  · cases h
  dsimp only at h
  split at h
  · cases h
  next t₀ hfound =>
  refine ⟨arch, parts, t₀, hsplit, hfound, ?_⟩
  generalize withShortLongDouble arch (System.ofParts parts)
    (withWindowsTypes (System.ofParts parts) t₀) = t' at h ⊢
  cases hcheck : t'.check with
  | error e =>
    rw [hcheck] at h
    cases h
  | ok =>
    rw [hcheck] at h
    cases h
    exact ⟨rfl, hcheck⟩

/-- The architecture is a 32 bit one of the `x86` family, and the system does not have the data model of
MSVC: `long long` is aligned to four bytes. -/
def PacksLongLong (triple : String) : Prop :=
  ∃ arch parts, triple.splitOn "-" = arch :: parts ∧
    arch ∈ ["i386", "i486", "i586", "i686", "x86"] ∧ (System.ofParts parts).isMsvc = false

/-- The integral types that a target chooses are aligned to their size, but for a `long long` that is
`packed`. -/
structure AlignsIntegers (t : Target) (packed : Prop) : Prop where
  bool : t.bool.align = t.bool.size
  short : t.short.align = t.short.size
  int : t.int.align = t.int.size
  long : t.long.align = t.long.size
  int128 : t.int128.align = t.int128.size
  wideChar : t.wideChar.align = t.wideChar.size
  longLong : t.longLong.align = t.longLong.size ∨ packed ∧ t.longLong = ⟨64, 32⟩

variable {packed : Prop} {triple arch : String} {system : System}

/-- Architecture by architecture; only the 32 bit ones of the `x86` family pack `long long`, and not on
systems like MSVC. -/
theorem alignsIntegers_of_architecture (h : ofArchitecture? triple arch system = some t) :
    AlignsIntegers t
      (arch ∈ ["i386", "i486", "i586", "i686", "x86"] ∧ system.isMsvc = false) := by
  have hlp64 : ∀ P, AlignsIntegers (lp64 triple) P := fun P => ⟨rfl, rfl, rfl, rfl, rfl, rfl, .inl rfl⟩
  unfold ofArchitecture? at h
  split at h
  · cases h
    exact hlp64 _
  split at h
  · cases h
    exact ⟨rfl, rfl, rfl, rfl, rfl, rfl, .inl rfl⟩
  split at h
  · cases h
    exact ⟨rfl, rfl, rfl, rfl, rfl, rfl, .inl rfl⟩
  split at h
  · next hx86 =>
    split at h
    · cases h
      exact ⟨rfl, rfl, rfl, rfl, rfl, rfl, .inl rfl⟩
    · next hmsvc =>
      cases h
      exact ⟨rfl, rfl, rfl, rfl, rfl, rfl, .inr ⟨⟨hx86, by simpa using hmsvc⟩, rfl⟩⟩
  split at h
  · cases h
    exact ⟨rfl, rfl, rfl, rfl, rfl, rfl, .inl rfl⟩
  split at h
  · cases h
    exact ⟨rfl, rfl, rfl, rfl, rfl, rfl, .inl rfl⟩
  · cases h

theorem AlignsIntegers.withWindowsTypes (h : AlignsIntegers t packed) (system : System) :
    AlignsIntegers (withWindowsTypes system t) packed := by
  unfold Target.withWindowsTypes
  split
  · exact ⟨h.bool, h.short, h.int, rfl, h.int128, rfl, h.longLong⟩
  · exact h

theorem AlignsIntegers.withShortLongDouble (h : AlignsIntegers t packed) (arch : String)
    (system : System) : AlignsIntegers (withShortLongDouble arch system t) packed := by
  unfold Target.withShortLongDouble
  split
  · exact ⟨h.bool, h.short, h.int, h.long, h.int128, h.wideChar, h.longLong⟩
  · exact h

/-- **Integral types are aligned to their size**, but for `long long` where it is packed. -/
theorem align_of_isIntegral (h : ofTriple? triple = .ok t) {kind : Builtin} {l : TypeLayout}
    (hkind : kind.isIntegral) (hl : t.builtin? kind = some l) :
    l.align = l.size ∨ PacksLongLong triple ∧ l = ⟨64, 32⟩ := by
  obtain ⟨arch, parts, t₀, hsplit, hfound, rfl, _⟩ := ofTriple?_eq_ok h
  have haligns := ((alignsIntegers_of_architecture hfound).withWindowsTypes
    (System.ofParts parts)).withShortLongDouble arch (System.ofParts parts)
  have hpacked : ∀ l : TypeLayout, l.align = l.size ∨
      (arch ∈ ["i386", "i486", "i586", "i686", "x86"] ∧ (System.ofParts parts).isMsvc = false) ∧
        l = ⟨64, 32⟩ → l.align = l.size ∨ PacksLongLong triple ∧ l = ⟨64, 32⟩ :=
    fun l => Or.imp_right fun ⟨⟨harch, hmsvc⟩, hl⟩ => ⟨⟨arch, parts, hsplit, harch, hmsvc⟩, hl⟩
  cases kind <;> cases hl
  case bool => exact .inl haligns.bool
  case short | unsignedShort => exact .inl haligns.short
  case int | unsignedInt => exact .inl haligns.int
  case long | unsignedLong => exact .inl haligns.long
  case int128 | unsignedInt128 => exact .inl haligns.int128
  case wideChar => exact .inl haligns.wideChar
  case longLong | unsignedLongLong => exact hpacked _ haligns.longLong
  case char | signedChar | unsignedChar | char16 | char32 => exact .inl rfl
  all_goals cases hkind

end Target

end ForeignDecl
