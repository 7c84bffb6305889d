-- Names of packages: a package keeps the name it first got, and names are plain identifiers, some
-- with a number behind.
import ViewBinder.Program.Imports
import ViewBinder.Proofs.Marker.Pieces
import ViewBinder.Proofs.Text.Identifier

namespace ViewBinder.Imports

/-- The package needs no import any more, and this is what programs call it. -/
def Known (im : Imports) (path name : Text) : Prop :=
  if path.isEmpty || path == im.self then name = [] else im.names.lookup path = some name

theorem Known.add_eq {im : Imports} {path name : Text} (h : im.Known path name)
    (preferred : Text) : im.add path preferred = (name, im) := by
  unfold Known at h
  unfold Imports.add
  split at h
  · rename_i hself
    rw [if_pos hself, h]
  · rename_i hself
    rw [if_neg hself, h]

theorem self_add (im : Imports) (path preferred : Text) :
    (im.add path preferred).2.self = im.self := by
  unfold add
  split
  · rfl
  · split
    · rfl
    · generalize Text.sanitize (if preferred.isEmpty then Path.base path else preferred) = wanted
      simp only [setClaimed]
      split <;> rfl

/-- What is added is an entry for a package that had none. -/
theorem names_add (im : Imports) (path preferred : Text) :
    im.Known path (im.add path preferred).1 ∧ (im.add path preferred).2 = im ∨
      im.names.lookup path = none ∧
        (im.add path preferred).2.names = im.names ++ [(path, (im.add path preferred).1)] := by
  unfold add Known
  split
  · exact Or.inl ⟨rfl, rfl⟩
  · split
    · rename_i name hname
      exact Or.inl ⟨hname, rfl⟩
    · rename_i hnew
      refine Or.inr ⟨hnew, ?_⟩
      generalize Text.sanitize (if preferred.isEmpty then Path.base path else preferred) = wanted
      simp only [setClaimed]
      split <;> rfl

/-- Entries stay where they are. -/
theorem prefix_add (im : Imports) (path preferred : Text) :
    im.names <+: (im.add path preferred).2.names := by
  rcases names_add im path preferred with ⟨-, hsame⟩ | ⟨-, hnew⟩
  · exact ⟨[], by rw [hsame, List.append_nil]⟩
  · rw [hnew]
    exact List.prefix_append _ _

theorem prefix_typeRef (im : Imports) (t : TypeDecl) :
    im.names <+: (im.typeRef t).2.names := by
  unfold typeRef
  split
  · exact List.prefix_refl _
  · exact List.prefix_refl _
  · exact prefix_add im t.package t.packageName
  · exact prefix_add im t.package t.packageName

theorem known_add (im : Imports) (path preferred : Text) :
    (im.add path preferred).2.Known path (im.add path preferred).1 := by
  rcases names_add im path preferred with ⟨hknown, hsame⟩ | ⟨hnone, hnew⟩
  · rw [hsame]
    exact hknown
  · unfold Known
    rw [self_add]
    split
    · rename_i hself
      unfold add
      rw [if_pos hself]
    · rw [hnew, List.lookup_append, hnone]
      simp

theorem Known.add {im : Imports} {path name : Text} (h : im.Known path name)
    (other preferred : Text) : (im.add other preferred).2.Known path name := by
  rcases names_add im other preferred with ⟨-, hsame⟩ | ⟨-, hnew⟩
  · rw [hsame]
    exact h
  · unfold Known at h ⊢
    rw [self_add]
    split
    · rename_i hself
      rwa [if_pos hself] at h
    · rename_i hself
      rw [if_neg hself] at h
      rw [hnew, List.lookup_append, h]
      rfl

/-- A qualified name is the name itself, or it stands behind the name of a package. -/
theorem qualify_cases (im : Imports) (t : TypeDecl) (name : Text) :
    (im.qualify t name).1 = name ∨
      ∃ entry ∈ (im.qualify t name).2.names, (im.qualify t name).1 = entry.2 ++ "." ++ name := by
  have hknown := im.known_add t.package t.packageName
  unfold qualify
  dsimp only
  split
  · exact Or.inl rfl
  · rename_i hpackage
    unfold Known at hknown
    split at hknown
    · exact absurd (by rw [hknown]; rfl) hpackage
    · obtain ⟨before, after, hnames, -⟩ := List.lookup_eq_some_iff.mp hknown
      refine Or.inr ⟨(t.package, (im.add t.package t.packageName).1), ?_, rfl⟩
      rw [hnames]
      exact List.mem_append_right _ List.mem_cons_self

/-! ## Plain names -/

/-- No name holds a dash. -/
def Plain (im : Imports) : Prop := ∀ entry ∈ im.names, '-'.toUInt8 ∉ entry.2

theorem dash_notMem_sanitize (t : Text) : '-'.toUInt8 ∉ Text.sanitize t := fun h =>
  absurd ((Text.sanitize_isPlainName t).part _ h) (by decide)

theorem dash_notMem_ofNat (n : Nat) : '-'.toUInt8 ∉ Text.ofNat n := fun h =>
  absurd (List.all_eq_true.mp (Text.isDigitByte_ofNat n).2 _ h) (by decide)

theorem Plain.known {im : Imports} (h : im.Plain) {path name : Text} (hknown : im.Known path name) :
    '-'.toUInt8 ∉ name := by
  unfold Known at hknown
  split at hknown
  · rw [hknown]
    exact List.not_mem_nil
  · obtain ⟨before, after, hnames, -⟩ := List.lookup_eq_some_iff.mp hknown
    refine h (path, name) ?_
    rw [hnames]
    exact List.mem_append_right _ List.mem_cons_self

theorem Plain.name {im : Imports} (h : im.Plain) (path preferred : Text) :
    '-'.toUInt8 ∉ (im.add path preferred).1 := by
  unfold add
  split
  · exact List.not_mem_nil
  · rename_i hself
    split
    · rename_i name hname
      have hknown : im.Known path name := by
        unfold Known
        rwa [if_neg hself]
      exact h.known hknown
    · generalize (if preferred.isEmpty then Path.base path else preferred) = wanted
      dsimp only
      split
      · exact dash_notMem_sanitize _
      · exact fun hmem => (List.mem_append.mp hmem).elim (dash_notMem_sanitize _)
          (dash_notMem_ofNat _)

theorem Plain.qualify {im : Imports} (h : im.Plain) (t : TypeDecl) {name : Text}
    (hname : '-'.toUInt8 ∉ name) : '-'.toUInt8 ∉ (im.qualify t name).1 := by
  unfold Imports.qualify
  dsimp only
  split
  · exact hname
  · simp only [List.mem_append, not_or]
    exact ⟨⟨h.name _ _, by decide⟩, hname⟩

theorem suffix_qualify (im : Imports) (t : TypeDecl) (name : Text) :
    name <:+ (im.qualify t name).1 := by
  unfold Imports.qualify
  dsimp only
  split
  · exact List.suffix_refl _
  · exact List.suffix_append _ _

theorem Plain.add {im : Imports} (h : im.Plain) (path preferred : Text) :
    (im.add path preferred).2.Plain := by
  rcases names_add im path preferred with ⟨-, hsame⟩ | ⟨-, hnew⟩
  · rw [hsame]
    exact h
  · intro entry hentry
    rw [hnew] at hentry
    rcases List.mem_append.mp hentry with hold | hlast
    · exact h entry hold
    · rw [List.mem_singleton.mp hlast]
      exact h.name path preferred

/-! ## Names of packages and the owner -/

/-- Names of packages are words, and none is that of the owner. -/
def Named (im : Imports) : Prop :=
  ∀ entry ∈ im.names, (∀ b ∈ entry.2, Text.isNamePart b.toNat = true) ∧ entry.2 ≠ "owner"

theorem sanitize_ne_owner (t : Text) : Text.sanitize t ≠ "owner" := by
  intro heq
  have hfree := (Text.sanitize_isPlainName t).free
  rw [heq] at hfree
  exact absurd hfree (by decide)

/-- A package is called by a plain identifier, maybe with a number behind. -/
theorem name_add {im : Imports} {path : Text} (h : im.names.lookup path = none)
    (preferred : Text) : (im.add path preferred).1 = [] ∨ ∃ t,
      (im.add path preferred).1 = Text.sanitize t ∨
        ∃ n, (im.add path preferred).1 = Text.sanitize t ++ Text.ofNat n := by
  unfold add
  split
  · exact Or.inl rfl
  · rw [h]
    generalize (if preferred.isEmpty then Path.base path else preferred) = wanted
    dsimp only
    split
    · exact Or.inr ⟨wanted, Or.inl rfl⟩
    · exact Or.inr ⟨wanted, Or.inr ⟨_, rfl⟩⟩

theorem Named.add {im : Imports} (h : im.Named) (path preferred : Text) :
    (im.add path preferred).2.Named := by
  rcases names_add im path preferred with ⟨-, hsame⟩ | ⟨hnone, hnew⟩
  · rw [hsame]
    exact h
  · intro entry hentry
    rw [hnew] at hentry
    rcases List.mem_append.mp hentry with hold | hlast
    · exact h entry hold
    · rw [List.mem_singleton.mp hlast]
      rcases name_add hnone preferred with hname | ⟨t, hname | ⟨n, hname⟩⟩
      · rw [hname]
        exact ⟨nofun, show ([] : Text) ≠ Text.ofString "owner" by decide⟩
      · rw [hname]
        exact ⟨(Text.sanitize_isPlainName t).part, sanitize_ne_owner t⟩
      · rw [hname]
        obtain ⟨hne, hdigits⟩ := Text.isDigitByte_ofNat n
        refine ⟨fun b hb => ?_, fun howner => ?_⟩
        · rcases List.mem_append.mp hb with hword | hdigit
          · exact (Text.sanitize_isPlainName t).part b hword
          · exact Text.isNamePart_of_isDigitByte (List.all_eq_true.mp hdigits b hdigit)
        · -- no digit stands in the name of the owner
          obtain ⟨b, hb⟩ := List.exists_mem_of_ne_nil _ hne
          have hletter : ((Text.ofString "owner").all fun b => !Text.isDigitByte b) = true := by
            decide
          have hfalse := List.all_eq_true.mp hletter b (howner ▸ List.mem_append_right _ hb)
          rw [List.all_eq_true.mp hdigits b hb] at hfalse
          cases hfalse

end ViewBinder.Imports
