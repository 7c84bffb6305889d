-- Accessor names. A dash is resolved by the small letter or digit behind it, and only the first
-- character is ever changed otherwise. So a name makes a method that other packages can call exactly
-- if its first character other than a dash is a letter, every dash is resolved, and it holds nothing
-- but dashes and characters of identifiers.
import ViewBinder.Proofs.Text.Basic
import ViewBinder.Proofs.Text.Trim

namespace ViewBinder.Text

/-! ## Letters -/

/-- A small letter as the capital; other bytes stay. -/
def upperByte (b : UInt8) : UInt8 := if isLowerByte b then b - 32 else b

/-- A capital as the small letter; other bytes stay. -/
def lowerByte (b : UInt8) : UInt8 := if isUpperByte b then b + 32 else b

/-- A letter of ASCII. -/
def isLetterByte (b : UInt8) : Bool := isLowerByte b || isUpperByte b

/-- A letter that is its own upper case form, but not its own lower case form. -/
def isCapital (code : Nat) : Bool := upperCode code == code && lowerCode code != code

/-- A name by which other packages can call a method: an identifier that begins with a capital. -/
def isMethodName (t : Text) : Bool := isIdentifier t && t.runes.head?.any fun r => isCapital r.code

/-- A text that begins as no word of the generated language does is free. -/
theorem isTaken_append {front : Text} (h : ∀ w ∈ keywords ++ predeclared, ¬ front <+: w) (t : Text) :
    isTaken (front ++ t) = false := by
  rw [← Bool.not_eq_true]
  intro htaken
  have hmem : front ++ t ∈ keywords ++ predeclared := by
    simpa [isTaken, List.contains_iff_mem] using htaken
  exact h _ hmem (List.prefix_append _ _)

/-- How bytes of ASCII change case. -/
theorem bytes_of_exported : ∀ b : UInt8, b < 0x80 →
    lowerByte b < 0x80 ∧ upperByte b < 0x80 ∧ (b ≠ '-'.toUInt8 → lowerByte b ≠ '-'.toUInt8) ∧
      isUpperByte (upperByte (lowerByte b)) = isLetterByte b ∧
      isDigitByte (upperByte b) = isDigitByte b ∧ isDigitByte (lowerByte b) = isDigitByte b := by
  refine forall_byte ?_
  decide

/-- Letters and digits are characters of identifiers, and stay so when they change case. -/
theorem bytes_of_letters : ∀ b : UInt8, isLetterByte b = true ∨ isDigitByte b = true →
    b < 0x80 ∧ b ≠ '-'.toUInt8 ∧ (isLetter b.toNat || b.toNat == 95 || isDigit b.toNat) = true ∧
      (isLowerByte b = true → b - 32 = upperByte b ∧ isUpperByte (b - 32) = true ∧
        upperByte (b - 32) = b - 32) ∧
      (isDigitByte b = true → isLowerByte b = false ∧ isLetterByte b = false) := by
  refine forall_byte ?_
  decide +kernel

/-- The replacement character has no case and is no letter; a dash is no character of identifiers. -/
theorem replacement_codes : encodeRune (lowerCode 0xFFFD) = [0xEF, 0xBF, 0xBD] ∧
    encodeRune (upperCode 0xFFFD) = [0xEF, 0xBF, 0xBD] ∧
    (isLetter 0xFFFD || 0xFFFD == 95) = false ∧
    (isLetter 45 || 45 == 95 || isDigit 45) = false := by
  decide +kernel

/-- A byte that begins no character becomes the replacement character. -/
theorem toLower_high {b : UInt8} (hb : ¬ b < 0x80) : toLower [b] = [0xEF, 0xBF, 0xBD] := by
  have hbroken : ∀ b : UInt8, ¬ b < 0x80 → runes [b] = [⟨0xFFFD, [b]⟩] := by
    refine forall_byte ?_
    decide
  unfold toLower
  rw [hbroken b hb, List.flatMap_singleton, replacement_codes.1]

/-- What the tables of characters say of ASCII. -/
theorem codes_of_ascii : ∀ b : UInt8, b < 0x80 →
    encodeRune (lowerCode b.toNat) = [lowerByte b] ∧
      encodeRune (upperCode b.toNat) = [upperByte b] ∧
      isCapital b.toNat = isUpperByte b ∧ (isUpperByte b = true → isLetter b.toNat = true) := by
  refine forall_byte ?_
  decide

theorem toLower_ascii {b : UInt8} (hb : b < 0x80) : toLower [b] = [lowerByte b] := by
  unfold toLower
  rw [runes_ascii_cons hb]
  exact (List.append_nil _).trans (codes_of_ascii b hb).1

theorem capitalize_ascii {b : UInt8} (hb : b < 0x80) (rest : Text) :
    capitalize (b :: rest) = upperByte b :: rest := by
  unfold capitalize
  rw [decodeHead_ascii b rest hb]
  show encodeRune (upperCode b.toNat) ++ rest = _
  rw [(codes_of_ascii b hb).2.1]
  rfl

/-! ## Runes in texts with bytes of ASCII -/

theorem runes_middle (l : Text) {a : UInt8} (ha : a < 0x80) (r : Text) :
    runes (l ++ a :: r) = runes l ++ ⟨a.toNat, [a]⟩ :: runes r := by
  rw [runes_append l ha, runes_ascii_cons ha]

theorem runes_dashes (k : Nat) (t : Text) :
    runes (List.replicate k '-'.toUInt8 ++ t) =
      List.replicate k ⟨45, ['-'.toUInt8]⟩ ++ runes t := by
  induction k with
  | zero => rfl
  | succ k ih =>
    rw [List.replicate_succ, List.cons_append, runes_ascii_cons (by decide), ih]
    rfl

theorem bytes_subset {t : Text} {r : Rune} (h : r ∈ runes t) : r.bytes ⊆ t := by
  intro b hb
  rw [← ofRunes_runes t]
  exact List.mem_flatMap.mpr ⟨r, h, hb⟩

/-! ## Dashes -/

/-- Every dash stands in front of another one, a small letter or a digit. -/
def DashesLead (t : Text) : Prop :=
  ∀ front rest : Text, t = front ++ '-'.toUInt8 :: rest →
    ∃ b ∈ rest.head?, b = '-'.toUInt8 ∨ isLowerByte b = true ∨ isDigitByte b = true

/-- All characters are dashes or characters of identifiers. -/
def IsDashed (t : Text) : Prop :=
  ∀ r ∈ runes t, r.bytes = ['-'.toUInt8] ∨
    (isLetter r.code || r.code == 95 || isDigit r.code) = true

theorem dashesLead_append {l : Text} (hl : '-'.toUInt8 ∉ l) (rest : Text) :
    DashesLead (l ++ rest) ↔ DashesLead rest := by
  constructor
  · intro h front behind heq
    exact h (l ++ front) behind (by rw [heq, List.append_assoc])
  · intro h front behind heq
    rcases List.append_eq_append_iff.mp heq with ⟨more, rfl, hrest⟩ | ⟨more, rfl, hmore⟩
    · exact h more behind hrest
    · cases more with
      | nil => exact h [] behind hmore.symm
      | cons b more =>
        obtain ⟨rfl, -⟩ := List.cons.inj hmore
        exact absurd (List.mem_append_right _ List.mem_cons_self) hl

theorem dashesLead_dash (rest : Text) : DashesLead ('-'.toUInt8 :: rest) ↔
    (∃ b ∈ rest.head?, b = '-'.toUInt8 ∨ isLowerByte b = true ∨ isDigitByte b = true) ∧
      DashesLead rest := by
  constructor
  · intro h
    refine ⟨h [] rest rfl, fun front behind heq => ?_⟩
    exact h ('-'.toUInt8 :: front) behind (congrArg _ heq)
  · rintro ⟨hfirst, hrest⟩ front behind heq
    cases front with
    | nil =>
      obtain ⟨-, rfl⟩ := List.cons.inj heq
      exact hfirst
    | cons b front => exact hrest front behind (List.cons.inj heq).2

/-- A run of dashes is resolved by what stands behind it. -/
theorem dashesLead_run {rest : Text} (hrest : rest.head? ≠ some '-'.toUInt8) (k : Nat) :
    DashesLead (List.replicate (k + 1) '-'.toUInt8 ++ rest) ↔
      (∃ b ∈ rest.head?, isLowerByte b = true ∨ isDigitByte b = true) ∧ DashesLead rest := by
  induction k with
  | zero =>
    show DashesLead ('-'.toUInt8 :: rest) ↔ _
    rw [dashesLead_dash]
    refine and_congr_left fun _ => exists_congr fun b => and_congr_right fun hb => ?_
    exact or_iff_right fun heq => hrest (heq ▸ hb)
  | succ k ih =>
    show DashesLead ('-'.toUInt8 :: (List.replicate (k + 1) '-'.toUInt8 ++ rest)) ↔ _
    rw [dashesLead_dash, ih]
    exact and_iff_right ⟨_, rfl, .inl rfl⟩

theorem isDashed_of_notMem {t : Text} (h : '-'.toUInt8 ∉ t) :
    IsDashed t ↔ isIdentifierRest (runes t) = true := by
  unfold isIdentifierRest IsDashed
  rw [List.all_eq_true]
  refine forall₂_congr fun r hr => or_iff_right fun hdash => h ?_
  exact bytes_subset hr (hdash ▸ List.mem_singleton_self _)

theorem isDashed_cons {b : UInt8} (hb : b < 0x80)
    (hword : (isLetter b.toNat || b.toNat == 95 || isDigit b.toNat) = true) (rest : Text) :
    IsDashed (b :: rest) ↔ IsDashed rest := by
  unfold IsDashed
  rw [runes_ascii_cons hb, List.forall_mem_cons]
  exact and_iff_right (.inr hword)

theorem isDashed_run {l : Text} (hl : '-'.toUInt8 ∉ l) (k : Nat) {b : UInt8} (hb : b < 0x80)
    (hword : (isLetter b.toNat || b.toNat == 95 || isDigit b.toNat) = true) (rest : Text) :
    IsDashed (l ++ (List.replicate (k + 1) '-'.toUInt8 ++ b :: rest)) ↔
      isIdentifierRest (runes l) = true ∧ IsDashed rest := by
  have hruns : runes (l ++ (List.replicate (k + 1) '-'.toUInt8 ++ b :: rest)) =
      runes l ++ (List.replicate (k + 1) ⟨45, ['-'.toUInt8]⟩ ++ ⟨b.toNat, [b]⟩ :: runes rest) := by
    rw [List.replicate_succ, List.cons_append, runes_middle l (by decide), runes_dashes,
      runes_ascii_cons hb]
    rfl
  rw [← isDashed_of_notMem hl]
  unfold IsDashed
  rw [hruns, List.forall_mem_append, List.forall_mem_append, List.forall_mem_cons]
  refine and_congr_right fun _ => ?_
  rw [and_iff_right fun r hr => .inl (congrArg Rune.bytes (List.eq_of_mem_replicate hr)),
    and_iff_right (.inr hword)]

/-- A text without dashes, or one that falls apart at its first run of dashes. -/
theorem first_dashes (t : Text) : '-'.toUInt8 ∉ t ∨
    ∃ l k rest, t = l ++ (List.replicate (k + 1) '-'.toUInt8 ++ rest) ∧ '-'.toUInt8 ∉ l ∧
      rest.head? ≠ some '-'.toUInt8 := by
  by_cases h : '-'.toUInt8 ∈ t
  · obtain ⟨l, behind, rfl, hl⟩ := List.eq_append_cons_of_mem h
    have hrun : ∀ b ∈ behind.takeWhile (· == '-'.toUInt8), b = '-'.toUInt8 := fun b hb =>
      eq_of_beq (List.all_eq_true.mp List.all_takeWhile b hb)
    refine .inr ⟨l, (behind.takeWhile (· == '-'.toUInt8)).length,
      behind.dropWhile (· == '-'.toUInt8), ?_, hl, fun heq => ?_⟩
    · rw [List.replicate_succ, List.cons_append, ← List.eq_replicate_of_mem hrun,
        List.takeWhile_append_dropWhile]
    · have hstop := head?_dropWhile (· == '-'.toUInt8) behind _ heq
      simp at hstop
  · exact .inl h

/-! ## Camel case -/

theorem camelFrom_append {l : Text} (hl : '-'.toUInt8 ∉ l) (rest : Text) :
    camelFrom 0 (l ++ rest) = l ++ camelFrom 0 rest := by
  induction l with
  | nil => rfl
  | cons b l ih =>
    obtain ⟨hb, hl⟩ := not_or.mp (mt List.mem_cons.mpr hl)
    have hdash : (b == '-'.toUInt8) = false := beq_eq_false_iff_ne.mpr (Ne.symm hb)
    rw [List.cons_append, camelFrom, hdash, ih hl]
    rfl

theorem camelFrom_dashes (d k : Nat) (t : Text) :
    camelFrom d (List.replicate k '-'.toUInt8 ++ t) = camelFrom (d + k) t := by
  induction k generalizing d with
  | zero => rfl
  | succ k ih =>
    rw [List.replicate_succ, List.cons_append, camelFrom, ih, Nat.add_assoc, Nat.add_comm 1 k]
    rfl

/-- Behind dashes, a small letter or digit takes their place and anything else leaves them. -/
theorem camelFrom_cons (d : Nat) {b : UInt8} (hb : b ≠ '-'.toUInt8) (rest : Text) :
    camelFrom (d + 1) (b :: rest) =
      if isLowerByte b = true ∨ isDigitByte b = true then upperByte b :: camelFrom 0 rest
      else List.replicate (d + 1) '-'.toUInt8 ++ b :: camelFrom 0 rest := by
  have hdash : (b == '-'.toUInt8) = false := beq_eq_false_iff_ne.mpr hb
  rw [camelFrom, hdash]
  by_cases hlower : isLowerByte b = true
  · have hupper : b - 32 = upperByte b := by
      unfold upperByte
      rw [if_pos hlower]
    simp [hlower, hupper]
  · by_cases hdigit : isDigitByte b = true
    · have hupper : b = upperByte b := by
        unfold upperByte
        rw [if_neg hlower]
      simp [hlower, hdigit, ← hupper]
    · simp [hlower, hdigit]

/-- A dash is no character of an identifier. -/
theorem isIdentifierRest_dash (front behind : Text) :
    isIdentifierRest (runes (front ++ '-'.toUInt8 :: behind)) = false := by
  obtain ⟨-, -, -, hdash⟩ := replacement_codes
  unfold isIdentifierRest
  rw [runes_middle front (by decide), List.all_append, List.all_cons]
  show (_ && ((isLetter 45 || 45 == 95 || isDigit 45) && _)) = false
  rw [hdash, Bool.false_and, Bool.and_false]

/-- What resolves a dash becomes a character of an identifier, a capital if it was a letter. -/
theorem upperByte_of_resolved {b : UInt8} (h : isLowerByte b = true ∨ isDigitByte b = true) :
    upperByte b < 0x80 ∧ upperByte (upperByte b) = upperByte b ∧
      isUpperByte (upperByte b) = isLowerByte b ∧
      (isLetter (upperByte b).toNat || (upperByte b).toNat == 95 ||
        isDigit (upperByte b).toNat) = true := by
  have hletter := h.imp_left fun hlower => (by simp [isLetterByte, hlower] : isLetterByte b = true)
  obtain ⟨hascii, -, hword, hcapital, hdigit⟩ := bytes_of_letters b hletter
  rcases h with hlower | hnumber
  · obtain ⟨hupper, hup, hsame⟩ := hcapital hlower
    obtain ⟨hascii', -, hword', -⟩ :=
      bytes_of_letters (b - 32) (.inl (by simp [isLetterByte, hup]))
    rw [← hupper, hlower]
    exact ⟨hascii', hsame, hup, hword'⟩
  · obtain ⟨hlower, hnone⟩ := hdigit hnumber
    have hsame : upperByte b = b := if_neg (by rw [hlower]; exact Bool.false_ne_true)
    rw [hsame, hsame, hlower]
    exact ⟨hascii, rfl, (Bool.or_eq_false_iff.mp hnone).2, hword⟩

/-- In camel case a name is made of characters of identifiers exactly if all dashes are resolved and
the rest of it is. -/
theorem isIdentifierRest_camelCase (t : Text) :
    isIdentifierRest (runes (camelCase t)) = true ↔ DashesLead t ∧ IsDashed t := by
  unfold camelCase
  -- the text falls apart at its first dashes, and the induction goes on behind them
  induction hlength : t.length using Nat.strongRecOn generalizing t with
  | ind n ih =>
    rcases first_dashes t with hnone | ⟨l, k, rest, rfl, hl, hrest⟩
    · have hsame := camelFrom_append hnone []
      rw [List.append_nil, camelFrom, List.replicate_zero, List.append_nil] at hsame
      have hlead : DashesLead t := fun front behind heq =>
        absurd (heq ▸ List.mem_append_right _ List.mem_cons_self) hnone
      rw [hsame, and_iff_right hlead, isDashed_of_notMem hnone]
    · rw [camelFrom_append hl, camelFrom_dashes, Nat.zero_add, dashesLead_append hl,
        dashesLead_run hrest]
      cases rest with
      | nil =>
        refine iff_of_false ?_ fun h => ?_
        · rw [camelFrom, List.replicate_succ, isIdentifierRest_dash]
          exact Bool.false_ne_true
        · obtain ⟨⟨b, hb, -⟩, -⟩ := h.1
          cases hb
      | cons b rest =>
        have hb : b ≠ '-'.toUInt8 := fun heq => hrest (congrArg some heq)
        rw [camelFrom_cons k hb]
        by_cases hresolved : isLowerByte b = true ∨ isDigitByte b = true
        · obtain ⟨hascii, -, hword, -⟩ := bytes_of_letters b
            (hresolved.imp_left fun h => by simp [isLetterByte, h])
          obtain ⟨hascii', -, -, hword'⟩ := upperByte_of_resolved hresolved
          have hshorter : rest.length < n := by
            rw [← hlength, List.length_append, List.length_append, List.length_cons]
            omega
          have hrest' : isIdentifierRest (runes (camelFrom 0 rest)) = true ↔
              DashesLead rest ∧ IsDashed rest := ih _ hshorter rest rfl
          have hbehind : DashesLead (b :: rest) ↔ DashesLead rest :=
            dashesLead_append (l := [b]) (by simpa using hb.symm) rest
          have hfirst : ∃ c ∈ (b :: rest).head?, isLowerByte c = true ∨ isDigitByte c = true :=
            ⟨b, rfl, hresolved⟩
          rw [if_pos hresolved, runes_middle l hascii', and_iff_right hfirst, hbehind,
            isDashed_run hl k hascii hword, and_left_comm, ← hrest']
          unfold isIdentifierRest
          rw [List.all_append, List.all_cons, Bool.and_eq_true, Bool.and_eq_true,
            and_iff_right hword']
        · refine iff_of_false ?_ fun h => ?_
          · rw [if_neg hresolved, List.replicate_succ, List.cons_append, isIdentifierRest_dash]
            exact Bool.false_ne_true
          · obtain ⟨⟨c, hc, hlead⟩, -⟩ := h.1
            obtain rfl := Option.some.inj hc
            exact hresolved hlead

/-! ## Accessor names -/

theorem exported_ascii {b : UInt8} (hb : b < 0x80) (rest : Text) :
    exported (b :: rest) = capitalize (camelCase (lowerByte b :: rest)) := by
  unfold exported
  dsimp only
  rw [toLower_ascii hb]
  rfl

/-- A first byte beyond ASCII is lost. -/
theorem exported_high {b : UInt8} (hb : ¬ b < 0x80) (rest : Text) :
    exported (b :: rest) = [0xEF, 0xBF, 0xBD] ++ camelCase rest := by
  unfold exported
  dsimp only
  rw [toLower_high hb]
  show capitalize (camelFrom 0 ([0xEF, 0xBF, 0xBD] ++ rest)) = _
  rw [camelFrom_append (by decide)]
  show encodeRune (upperCode 0xFFFD) ++ camelFrom 0 rest = _
  rw [replacement_codes.2.1]
  rfl

theorem isMethodName_ascii {b : UInt8} (hb : b < 0x80) (rest : Text) :
    isMethodName (b :: rest) = true ↔
      isUpperByte b = true ∧ isIdentifierRest (runes rest) = true := by
  have hsmall : ((keywords ++ predeclared).all fun w => !w.head?.any isUpperByte) = true := by decide
  obtain ⟨-, -, hcapital, hletter⟩ := codes_of_ascii b hb
  unfold isMethodName isIdentifier
  rw [runes_ascii_cons hb]
  simp only [List.head?_cons, Option.any_some, hcapital, Bool.and_eq_true, Bool.or_eq_true,
    Bool.not_eq_true']
  constructor
  · rintro ⟨⟨⟨-, hrest⟩, -⟩, hupper⟩
    exact ⟨hupper, hrest⟩
  · rintro ⟨hupper, hrest⟩
    have hfree : ∀ w ∈ keywords ++ predeclared, ¬ [b] <+: w := by
      rintro w hw ⟨more, rfl⟩
      have hnot := List.all_eq_true.mp hsmall _ hw
      simp [hupper] at hnot
    exact ⟨⟨⟨.inl (hletter hupper), hrest⟩, isTaken_append hfree rest⟩, hupper⟩

/-- The name makes a method that other packages can call: its first character other than a dash is a
letter, every dash is resolved, and the rest are characters of identifiers. -/
structure GivesMethod (t : Text) : Prop where
  first : ∃ b ∈ (t.dropWhile (· == '-'.toUInt8)).head?, isLetterByte b = true
  dashes : DashesLead t
  runes : IsDashed t

theorem isMethodName_exported_dashes {rest : Text} (hrest : rest.head? ≠ some '-'.toUInt8) (k : Nat) :
    isMethodName (capitalize (camelFrom (k + 1) rest)) = true ↔
      (∃ b ∈ rest.head?, isLowerByte b = true) ∧ DashesLead rest ∧ IsDashed rest := by
  have hdash : ∀ more : Text, ¬ isMethodName (capitalize ('-'.toUInt8 :: more)) = true := by
    intro more
    rw [capitalize_ascii (by decide), isMethodName_ascii (by decide)]
    exact fun h => absurd h.1 (by decide)
  cases rest with
  | nil =>
    refine iff_of_false (hdash _) fun h => ?_
    obtain ⟨⟨b, hb, -⟩, -⟩ := h
    cases hb
  | cons b rest =>
    have hb : b ≠ '-'.toUInt8 := fun heq => hrest (congrArg some heq)
    have hbehind : DashesLead (b :: rest) ↔ DashesLead rest :=
      dashesLead_append (l := [b]) (by simpa using hb.symm) rest
    rw [camelFrom_cons k hb]
    simp only [List.head?_cons, Option.mem_def, Option.some.injEq, exists_eq_left', hbehind]
    by_cases hresolved : isLowerByte b = true ∨ isDigitByte b = true
    · obtain ⟨hascii, -, hword, -⟩ := bytes_of_letters b
        (hresolved.imp_left fun h => by simp [isLetterByte, h])
      obtain ⟨hascii', hsame, hupper, -⟩ := upperByte_of_resolved hresolved
      have hrest' := isIdentifierRest_camelCase rest
      unfold camelCase at hrest'
      rw [if_pos hresolved, capitalize_ascii hascii', hsame, isMethodName_ascii hascii', hupper,
        hrest', isDashed_cons hascii hword]
    · rw [if_neg hresolved, List.replicate_succ, List.cons_append]
      exact iff_of_false (hdash _) fun h => hresolved (.inl h.1)

theorem isMethodName_exported_dash (rest : Text) :
    isMethodName (exported ('-'.toUInt8 :: rest)) = true ↔ GivesMethod ('-'.toUInt8 :: rest) := by
  rcases first_dashes ('-'.toUInt8 :: rest) with hnone | ⟨l, k, behind, heq, hl, hbehind⟩
  · exact absurd List.mem_cons_self hnone
  · obtain rfl : l = [] := by
      cases l with
      | nil => rfl
      | cons c l =>
        obtain ⟨rfl, -⟩ := List.cons.inj heq
        exact absurd List.mem_cons_self hl
    rw [List.nil_append] at heq
    have hdashes : IsDashed (List.replicate (k + 1) '-'.toUInt8 ++ behind) ↔ IsDashed behind := by
      unfold IsDashed
      rw [runes_dashes, List.forall_mem_append]
      refine and_iff_right fun r hr => .inl ?_
      exact congrArg Rune.bytes (List.eq_of_mem_replicate hr)
    have hfirst : (List.replicate (k + 1) '-'.toUInt8 ++ behind).dropWhile
        (· == '-'.toUInt8) = behind := by
      refine dropWhile_run (List.all_eq_true.mpr fun c hc => ?_) fun c hc => ?_
      · rw [List.eq_of_mem_replicate hc]
        exact beq_self_eq_true _
      · rw [beq_eq_false_iff_ne]
        exact fun hsame => hbehind (hsame ▸ hc)
    rw [exported_ascii (by decide)]
    show isMethodName (capitalize (camelFrom 0 ('-'.toUInt8 :: rest))) = true ↔ _
    rw [heq, camelFrom_dashes, Nat.zero_add, isMethodName_exported_dashes hbehind]
    constructor
    · rintro ⟨⟨c, hc, hlower⟩, hlead, hdashed⟩
      refine ⟨⟨c, by rwa [hfirst], by simp [isLetterByte, hlower]⟩, ?_, hdashes.mpr hdashed⟩
      exact (dashesLead_run hbehind k).mpr ⟨⟨c, hc, .inl hlower⟩, hlead⟩
    · rintro ⟨⟨c, hc, hletter⟩, hlead, hdashed⟩
      rw [hfirst] at hc
      obtain ⟨⟨c', hc', hresolved⟩, hlead'⟩ := (dashesLead_run hbehind k).mp hlead
      rw [Option.mem_def.mp hc] at hc'
      cases hc'
      refine ⟨⟨c, hc, hresolved.resolve_right fun hdigit => ?_⟩, hlead', hdashes.mp hdashed⟩
      have hnot := ((bytes_of_letters c (.inr hdigit)).2.2.2.2 hdigit).2
      rw [hletter] at hnot
      cases hnot

theorem isMethodName_exported_ascii {b : UInt8} (hb : b < 0x80) (hdash : b ≠ '-'.toUInt8)
    (rest : Text) : isMethodName (exported (b :: rest)) = true ↔ GivesMethod (b :: rest) := by
  obtain ⟨hlower, -, hother, hcapital, -⟩ := bytes_of_exported b hb
  have hascii : upperByte (lowerByte b) < 0x80 := (bytes_of_exported _ hlower).2.1
  have hfirst : (b :: rest).dropWhile (· == '-'.toUInt8) = b :: rest :=
    List.dropWhile_cons_of_neg (by simpa using hdash)
  have hlead : DashesLead (b :: rest) ↔ DashesLead rest :=
    dashesLead_append (l := [b]) (by simpa using Ne.symm hdash) rest
  have hcamel : camelCase (lowerByte b :: rest) = lowerByte b :: camelCase rest :=
    camelFrom_append (l := [lowerByte b]) (by simpa using (hother hdash).symm) rest
  rw [exported_ascii hb, hcamel, capitalize_ascii hlower, isMethodName_ascii hascii, hcapital,
    isIdentifierRest_camelCase]
  constructor
  · rintro ⟨hletter, hlead', hdashed⟩
    refine ⟨⟨b, by rw [hfirst]; rfl, hletter⟩, hlead.mpr hlead', ?_⟩
    exact (isDashed_cons hb (bytes_of_letters b (.inl hletter)).2.2.1 rest).mpr hdashed
  · rintro ⟨⟨c, hc, hletter⟩, hlead', hdashed⟩
    rw [hfirst] at hc
    cases hc
    refine ⟨hletter, hlead.mp hlead', ?_⟩
    exact (isDashed_cons hb (bytes_of_letters b (.inl hletter)).2.2.1 rest).mp hdashed

theorem isMethodName_exported_high {b : UInt8} (hb : ¬ b < 0x80) (rest : Text) :
    isMethodName (exported (b :: rest)) = true ↔ GivesMethod (b :: rest) := by
  rw [exported_high hb]
  refine iff_of_false ?_ fun h => ?_
  · unfold isMethodName isIdentifier
    rw [List.cons_append, runes_cons]
    show ¬ (((isLetter 0xFFFD || 0xFFFD == 95) && _ && _) && _) = true
    rw [replacement_codes.2.2.1, Bool.false_and, Bool.false_and, Bool.false_and]
    exact Bool.false_ne_true
  · obtain ⟨c, hc, hletter⟩ := h.first
    have hdash : (b == '-'.toUInt8) = false := by
      rw [beq_eq_false_iff_ne]
      rintro rfl
      exact hb (by decide)
    rw [List.dropWhile_cons_of_neg (by rw [hdash]; exact Bool.false_ne_true)] at hc
    cases hc
    exact hb (bytes_of_letters b (.inl hletter)).1

/-- The accessor made from a name is a method that other packages can call exactly if the name gives
one. -/
theorem isMethodName_exported (t : Text) : isMethodName (exported t) = true ↔ GivesMethod t := by
  cases t with
  | nil =>
    refine iff_of_false (by simp [exported, isMethodName, isIdentifier, runes, runesFrom]) fun h => ?_
    obtain ⟨b, hb, -⟩ := h.first
    cases hb
  | cons b rest =>
    by_cases hb : b < 0x80
    · by_cases hdash : b = '-'.toUInt8
      · subst hdash
        exact isMethodName_exported_dash rest
      · exact isMethodName_exported_ascii hb hdash rest
    · exact isMethodName_exported_high hb rest

/-! ## Accessors of plain identifiers -/

/-- The texts are the same but perhaps for the case of their first letter. -/
def AgreeButCase (t t' : Text) : Prop :=
  ∃ b b' rest, t = b :: rest ∧ t' = b' :: rest ∧ lowerByte b = lowerByte b'

/-- A plain identifier becomes an accessor by a capital in front. -/
theorem exported_of_isPlainName {b : UInt8} {rest : Text} (h : IsPlainName (b :: rest)) :
    exported (b :: rest) = upperByte (lowerByte b) :: rest := by
  have hascii := h.ascii b List.mem_cons_self
  have hdash : '-'.toUInt8 ∉ b :: rest := fun hmem => absurd (h.part _ hmem) (by decide)
  obtain ⟨hb, hrest⟩ := not_or.mp (mt List.mem_cons.mpr hdash)
  obtain ⟨hlower, -, hother, -⟩ := bytes_of_exported b hascii
  have hlowerDash : '-'.toUInt8 ∉ lowerByte b :: rest :=
    not_or.mpr ⟨(hother (Ne.symm hb)).symm, hrest⟩ ∘ List.mem_cons.mp
  have hcamel := camelFrom_append hlowerDash []
  rw [List.append_nil, camelFrom, List.replicate_zero, List.append_nil] at hcamel
  rw [exported_ascii hascii, camelCase, hcamel, capitalize_ascii hlower]

theorem exported_eq_iff {t t' : Text} (h : IsPlainName t) (h' : IsPlainName t') :
    exported t = exported t' ↔ AgreeButCase t t' := by
  have hcase : ∀ b : UInt8, lowerByte (upperByte (lowerByte b)) = lowerByte b :=
    forall_byte (by decide)
  obtain ⟨b, rest, rfl, -, -⟩ := h.shape
  obtain ⟨b', rest', rfl, -, -⟩ := h'.shape
  rw [exported_of_isPlainName h, exported_of_isPlainName h', List.cons.injEq]
  constructor
  · rintro ⟨hfirst, rfl⟩
    refine ⟨b, b', rest, rfl, rfl, ?_⟩
    rw [← hcase b, hfirst, hcase]
  · rintro ⟨c, c', common, heq, heq', hsame⟩
    cases heq
    cases heq'
    exact ⟨congrArg upperByte hsame, rfl⟩

end ViewBinder.Text
