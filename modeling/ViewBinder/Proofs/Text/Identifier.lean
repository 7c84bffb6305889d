-- The laws of `sanitize`: it always gives a plain identifier, and it keeps every text that is one.
-- So a name is in its normal form exactly when it is a plain identifier.
import ViewBinder.Proofs.Text.Basic
import ViewBinder.Text.Name

namespace ViewBinder.Text

/-! ## Bytes of ASCII are runes of their own -/

theorem decodeHead_ascii (b : UInt8) (rest : Text) (h : b < 0x80) :
    decodeHead (b :: rest) = (b.toNat, 1) := by
  simp [decodeHead, h]

theorem runes_ascii (t : Text) (h : ∀ b ∈ t, b < 0x80) :
    runes t = t.map fun b => ⟨b.toNat, [b]⟩ := by
  unfold runes
  induction t with
  | nil => rfl
  | cons b rest ih =>
    have hb : b < 0x80 := h b (by simp)
    have hrest : ∀ c ∈ rest, c < 0x80 := fun c hc => h c (by simp [hc])
    simp [runesFrom, decodeHead_ascii b rest hb, ih hrest]

/-! ## Plain identifiers -/

/-- ASCII letters, digits and underscores with no digit in front. -/
def HasNameShape (t : Text) : Prop :=
  ∃ b rest, t = b :: rest ∧ isNameStart b.toNat = true ∧ ∀ c ∈ rest, isNamePart c.toNat = true

/-- A name of that shape that is no word of the generated language. -/
structure IsPlainName (t : Text) : Prop where
  shape : HasNameShape t
  free : isTaken t = false

theorem isNamePart_of_isNameStart {n : Nat} (h : isNameStart n = true) : isNamePart n = true := by
  simp [isNamePart, h]

theorem isNamePart_of_isDigitByte {b : UInt8} (h : isDigitByte b = true) :
    isNamePart b.toNat = true := by
  simp only [isDigitByte, Bool.and_eq_true, decide_eq_true_eq, UInt8.le_iff_toNat_le] at h
  have hlow : 48 ≤ b.toNat := h.1
  have hhigh : b.toNat ≤ 57 := h.2
  simp [isNamePart, isDigitCode, hlow, hhigh]

theorem isNamePart_lt {n : Nat} (h : isNamePart n = true) : n < 128 := by
  simp only [isNamePart, isNameStart, isLetterCode, isDigitCode, Bool.or_eq_true, Bool.and_eq_true,
    decide_eq_true_eq, beq_iff_eq] at h
  omega

theorem toNat_toUInt8 {n : Nat} (h : n < 128) : n.toUInt8.toNat = n := by
  simp only [Nat.toUInt8_eq, UInt8.toNat_ofNat']
  omega

/-- Every byte of a plain identifier may go on in a name. -/
theorem IsPlainName.part {t : Text} (h : IsPlainName t) : ∀ b ∈ t, isNamePart b.toNat = true := by
  obtain ⟨b, rest, rfl, hb, hrest⟩ := h.shape
  intro c hc
  rcases List.mem_cons.mp hc with rfl | hc
  · exact isNamePart_of_isNameStart hb
  · exact hrest c hc

theorem IsPlainName.ascii {t : Text} (h : IsPlainName t) : ∀ b ∈ t, b < 0x80 := by
  intro b hb
  exact UInt8.lt_iff_toNat_lt.mpr (isNamePart_lt (h.part b hb))

/-- A text falls apart in one way where bytes of some kind end. -/
theorem append_inj_of_front {p : UInt8 → Bool} {n n' x y : Text} (hn : ∀ b ∈ n, p b = true)
    (hn' : ∀ b ∈ n', p b = true) (hx : ∀ b ∈ x.head?, p b = false)
    (hy : ∀ b ∈ y.head?, p b = false) (h : n ++ x = n' ++ y) : n = n' ∧ x = y := by
  have hfront : ∀ {n x : Text}, (∀ b ∈ n, p b = true) → (∀ b ∈ x.head?, p b = false) →
      (n ++ x).takeWhile p = n := by
    intro n x hn hx
    have hnone : x.takeWhile p = [] := by
      cases x with
      | nil => rfl
      | cons b x => simp [hx b rfl]
    rw [List.takeWhile_append_of_pos hn, hnone, List.append_nil]
  obtain rfl : n = n' := by rw [← hfront hn hx, h, hfront hn' hy]
  exact ⟨rfl, List.append_cancel_left h⟩

/-- A text falls apart in one way at the first byte that no name holds. -/
theorem append_inj_of_part {n n' x y : Text} {b b' : UInt8}
    (hn : ∀ c ∈ n, isNamePart c.toNat = true) (hn' : ∀ c ∈ n', isNamePart c.toNat = true)
    (hb : isNamePart b.toNat = false) (hb' : isNamePart b'.toNat = false)
    (h : n ++ b :: x = n' ++ b' :: y) : n = n' ∧ b = b' := by
  obtain ⟨hsame, hrest⟩ := append_inj_of_front (p := fun c => isNamePart c.toNat) hn hn'
    (by simpa using hb) (by simpa using hb') h
  exact ⟨hsame, (List.cons.inj hrest).1⟩

/-- A text falls apart in one way at the last of some byte. -/
theorem append_inj_of_notMem {n n' x y : Text} {b : UInt8} (hx : b ∉ x) (hy : b ∉ y)
    (h : n ++ b :: x = n' ++ b :: y) : n = n' ∧ x = y := by
  rcases List.append_eq_append_iff.mp h with ⟨m, rfl, hrest⟩ | ⟨m, rfl, hrest⟩
  · cases m with
    | nil => exact ⟨(List.append_nil n).symm, (List.cons.inj hrest).2⟩
    | cons c m =>
      refine absurd ?_ hx
      rw [(List.cons.inj hrest).2]
      exact List.mem_append_right _ List.mem_cons_self
  · cases m with
    | nil => exact ⟨List.append_nil n', (List.cons.inj hrest).2.symm⟩
    | cons c m =>
      refine absurd ?_ hy
      rw [(List.cons.inj hrest).2]
      exact List.mem_append_right _ List.mem_cons_self

/-! ## The characters that `sanitize` writes -/

theorem sanitizeLater_part (code : Nat) : ∀ b ∈ sanitizeLater code, isNamePart b.toNat = true := by
  intro b hb
  unfold sanitizeLater at hb
  split at hb
  · rename_i hpart
    simp only [List.mem_singleton] at hb
    rw [hb, toNat_toUInt8 (isNamePart_lt hpart)]
    exact hpart
  · simp only [List.mem_singleton] at hb
    subst hb
    rfl

theorem sanitizeFirst_shape (code : Nat) : HasNameShape (sanitizeFirst code) := by
  unfold sanitizeFirst
  split
  · rename_i hstart
    refine ⟨_, [], rfl, ?_, by simp⟩
    rw [toNat_toUInt8 (isNamePart_lt (isNamePart_of_isNameStart hstart))]
    exact hstart
  · split
    · rename_i hdigit
      refine ⟨_, _, rfl, rfl, ?_⟩
      intro c hc
      have hpart : isNamePart code = true := by simp [isNamePart, hdigit]
      simp only [List.mem_singleton] at hc
      rw [hc, toNat_toUInt8 (isNamePart_lt hpart)]
      exact hpart
    · exact ⟨_, [], rfl, rfl, by simp⟩

theorem HasNameShape.append {t more : Text} (h : HasNameShape t)
    (hmore : ∀ c ∈ more, isNamePart c.toNat = true) : HasNameShape (t ++ more) := by
  obtain ⟨b, rest, rfl, hb, hrest⟩ := h
  refine ⟨b, rest ++ more, rfl, hb, ?_⟩
  intro c hc
  rcases List.mem_append.mp hc with hc | hc
  · exact hrest c hc
  · exact hmore c hc

theorem sanitizeRunes_shape (rs : List Rune) : HasNameShape (sanitizeRunes rs) := by
  cases rs with
  | nil => exact ⟨_, [], rfl, rfl, by simp⟩
  | cons r rest =>
    refine (sanitizeFirst_shape r.code).append ?_
    intro c hc
    obtain ⟨s, -, hs⟩ := List.mem_flatMap.mp hc
    exact sanitizeLater_part s.code c hs

/-- A reserved word is free again with an underscore behind it. -/
theorem isTaken_underscore {t : Text} (h : isTaken t = true) : isTaken (t ++ "_") = false := by
  have hall : ∀ w ∈ keywords ++ predeclared, isTaken (w ++ "_") = false := by decide
  refine hall t ?_
  simpa [isTaken, List.contains_iff_mem] using h

/-- Whatever the name, `sanitize` gives a plain identifier. -/
theorem sanitize_isPlainName (t : Text) : IsPlainName (sanitize t) := by
  unfold sanitize
  simp only
  split
  · rename_i htaken
    refine ⟨(sanitizeRunes_shape t.runes).append ?_, isTaken_underscore htaken⟩
    exact forall_of_all (by decide)
  · rename_i hfree
    exact ⟨sanitizeRunes_shape t.runes, by simpa using hfree⟩

/-! ## Plain identifiers are kept -/

theorem sanitizeLater_self {b : UInt8} (h : isNamePart b.toNat = true) :
    sanitizeLater b.toNat = [b] := by
  simp [sanitizeLater, h]

theorem flatMap_sanitizeLater (t : Text) (h : ∀ b ∈ t, isNamePart b.toNat = true) :
    (t.map fun b => (⟨b.toNat, [b]⟩ : Rune)).flatMap (fun r => sanitizeLater r.code) = t := by
  induction t with
  | nil => rfl
  | cons b rest ih =>
    have hrest := ih fun c hc => h c (by simp [hc])
    simp [sanitizeLater_self (h b (by simp)), hrest]

theorem sanitize_of_isPlainName {t : Text} (h : IsPlainName t) : sanitize t = t := by
  have hrunes := runes_ascii t h.ascii
  obtain ⟨⟨b, rest, rfl, hb, hrest⟩, hfree⟩ := h
  have hname : sanitizeRunes (runes (b :: rest)) = b :: rest := by
    rw [hrunes]
    simp only [List.map_cons, sanitizeRunes]
    rw [flatMap_sanitizeLater rest hrest]
    simp [sanitizeFirst, hb]
  unfold sanitize
  simp [hname, hfree]

/-- A name is in normal form exactly when it is a plain identifier. -/
theorem sanitize_eq_self_iff {t : Text} : sanitize t = t ↔ IsPlainName t :=
  ⟨fun h => h ▸ sanitize_isPlainName t, sanitize_of_isPlainName⟩

theorem sanitize_sanitize (t : Text) : sanitize (sanitize t) = sanitize t :=
  sanitize_of_isPlainName (sanitize_isPlainName t)

/-! ## The normal form of a name -/

/-- A byte of `[A-Za-z_]`. -/
def BeginsNames (b : UInt8) : Prop :=
  'A'.toUInt8 ≤ b ∧ b ≤ 'Z'.toUInt8 ∨ 'a'.toUInt8 ≤ b ∧ b ≤ 'z'.toUInt8 ∨ b = '_'.toUInt8

/-- A byte of `[A-Za-z0-9_]`. -/
def StandsInNames (b : UInt8) : Prop := BeginsNames b ∨ '0'.toUInt8 ≤ b ∧ b ≤ '9'.toUInt8

/-- The text matches `[A-Za-z_][A-Za-z0-9_]*`. -/
def MatchesNames (t : Text) : Prop :=
  ∃ b rest, t = b :: rest ∧ BeginsNames b ∧ ∀ c ∈ rest, StandsInNames c

theorem beginsNames_iff {b : UInt8} : BeginsNames b ↔ isNameStart b.toNat = true := by
  have hvalues : 'A'.toUInt8.toNat = 65 ∧ 'Z'.toUInt8.toNat = 90 ∧ 'a'.toUInt8.toNat = 97 ∧
      'z'.toUInt8.toNat = 122 ∧ '_'.toUInt8.toNat = 95 := by decide
  unfold BeginsNames isNameStart isLetterCode
  simp only [UInt8.le_iff_toNat_le, ← UInt8.toNat_inj, hvalues, Bool.or_eq_true, Bool.and_eq_true,
    decide_eq_true_eq, beq_iff_eq]
  omega

theorem standsInNames_iff {b : UInt8} : StandsInNames b ↔ isNamePart b.toNat = true := by
  have hvalues : '0'.toUInt8.toNat = 48 ∧ '9'.toUInt8.toNat = 57 := by decide
  unfold StandsInNames isNamePart isDigitCode
  rw [beginsNames_iff]
  simp only [UInt8.le_iff_toNat_le, hvalues, Bool.or_eq_true, Bool.and_eq_true, decide_eq_true_eq]

theorem isPlainName_iff {t : Text} :
    IsPlainName t ↔ MatchesNames t ∧ t ∉ keywords ∧ t ∉ predeclared := by
  have hshape : HasNameShape t ↔ MatchesNames t := by
    unfold HasNameShape MatchesNames
    simp only [beginsNames_iff, standsInNames_iff]
  have hfree : isTaken t = false ↔ t ∉ keywords ∧ t ∉ predeclared := by
    unfold isTaken
    simp
  rw [← hshape, ← hfree]
  exact ⟨fun h => ⟨h.shape, h.free⟩, fun h => ⟨h.1, h.2⟩⟩

/-- Whatever a name is, its normal form begins with a letter or an underscore, goes on with letters,
digits and underscores, and is neither a reserved word nor a name that the program relies on. The
texts that are kept are just those of that kind, so a second normal form is the first one. -/
theorem sanitize_gives_the_normal_form (t : Text) :
    (MatchesNames (sanitize t) ∧ sanitize t ∉ keywords ∧ sanitize t ∉ predeclared) ∧
    (sanitize t = t ↔ MatchesNames t ∧ t ∉ keywords ∧ t ∉ predeclared) ∧
    sanitize (sanitize t) = sanitize t := by
  refine ⟨isPlainName_iff.mp (sanitize_isPlainName t), ?_, sanitize_sanitize t⟩
  rw [sanitize_eq_self_iff, isPlainName_iff]

end ViewBinder.Text
