-- Numbers at the front of a text. A number is read up to where no number goes on: digits, a point
-- with digits behind it, and an exponent, which needs digits behind its mark. So there is one way
-- only to read a number, though its digits could be split between its parts in many.
import Mathlib.Data.List.TakeWhile
import ViewBinder.Attribute.Parser
import ViewBinder.Proofs.Text.Basic

namespace ViewBinder

namespace Attribute

/-! ## What numbers are made of -/

def isSignByte (b : UInt8) : Bool := b == '+'.toUInt8 || b == '-'.toUInt8

/-- A sign, or nothing. -/
inductive IsSign : Text → Prop
  | none : IsSign []
  | some {b : UInt8} : isSignByte b = true → IsSign [b]

/-- An exponent, or nothing. -/
inductive IsExponent : Text → Prop
  | none : IsExponent []
  | some {mark : UInt8} {sign digits : Text} : Number.isExponentMark mark = true → IsSign sign →
      digits ≠ [] → digits.all Text.isDigitByte = true → IsExponent (mark :: (sign ++ digits))

/-- A number as lengths have it: `[+-]?[0-9]*\.?[0-9]+([eE][+-]?[0-9]+)?`. -/
inductive IsNumber : Text → Prop
  | mk {sign whole point digits exponent : Text} : IsSign sign →
      whole.all Text.isDigitByte = true → point = [] ∨ point = "." → digits ≠ [] →
      digits.all Text.isDigitByte = true → IsExponent exponent →
      IsNumber (sign ++ (whole ++ (point ++ (digits ++ exponent))))

/-! ## Bytes -/

/-- No number goes on with the byte but by an exponent, and no reference begins with it. -/
def isQuietByte (b : UInt8) : Bool :=
  !(Text.isDigitByte b || isSignByte b || b == '.'.toUInt8 || b == Segment.openBrace)

theorem bytes_of_quiet {b : UInt8} (h : isQuietByte b = true) :
    Text.isDigitByte b = false ∧ isSignByte b = false ∧ b ≠ '.'.toUInt8 ∧ b ≠ Segment.openBrace := by
  simpa [isQuietByte, not_or, and_assoc] using h

theorem bytes_of_mark : ∀ b : UInt8, Number.isExponentMark b = true →
    Text.isDigitByte b = false ∧ isSignByte b = false ∧ b ≠ '.'.toUInt8 := by
  refine Text.forall_byte ?_
  decide

theorem bytes_of_digit : ∀ b : UInt8, Text.isDigitByte b = true →
    isSignByte b = false ∧ isGap b = false ∧ b ≠ Segment.openBrace := by
  refine Text.forall_byte ?_
  decide

/-- Digits have no sign in front, nor has what stands behind them if there are none. -/
theorem head?_digits_append {digits t : Text} (hdigits : digits.all Text.isDigitByte = true)
    (ht : digits = [] → ∀ b ∈ t.head?, isSignByte b = false) :
    ∀ b ∈ (digits ++ t).head?, isSignByte b = false := by
  intro b hb
  cases digits with
  | nil => exact ht rfl b hb
  | cons c digits =>
    obtain rfl : c = b := by simpa using hb
    exact (bytes_of_digit c (List.all_eq_true.mp hdigits c List.mem_cons_self)).1

/-! ## Numbers at the front of a text -/

/-- The sign at the front. -/
def signRun (t : Text) : Text := (t.take 1).filter isSignByte

/-- The point at the front with the digits behind it, if there are any. -/
def fractionRun (t : Text) : Text :=
  if Text.startsWith t "." then
    let digits := (t.drop 1).takeWhile Text.isDigitByte
    if digits.isEmpty then [] else '.'.toUInt8 :: digits
  else []

theorem isSign_signRun (t : Text) : IsSign (signRun t) := by
  cases t with
  | nil => exact .none
  | cons b t =>
    by_cases hb : isSignByte b = true
    · simp only [signRun, List.take_succ_cons, List.take_zero, List.filter_cons, hb, if_true,
        List.filter_nil]
      exact .some hb
    · simp only [signRun, List.take_succ_cons, List.take_zero, List.filter_cons, hb]
      exact .none

theorem front_signRun (t : Text) : signRun t <+: t := by
  cases t with
  | nil => exact List.nil_prefix
  | cons b t =>
    by_cases hb : isSignByte b = true
    · simp [signRun, hb]
    · simp [signRun, hb]

theorem signRun_append {sign rest : Text} (hsign : IsSign sign)
    (hrest : ∀ b ∈ rest.head?, isSignByte b = false) : signRun (sign ++ rest) = sign := by
  cases hsign with
  | none =>
    cases rest with
    | nil => rfl
    | cons b rest => simp [signRun, hrest b rfl]
  | some hb => simp [signRun, hb]

/-- What a point and an exponent are read from. -/
theorem exponentRun_cons (mark : UInt8) (t : Text) : exponentRun (mark :: t) =
    if Number.isExponentMark mark then
      if ((t.drop (signRun t).length).takeWhile Text.isDigitByte).isEmpty then []
      else mark :: signRun t ++ (t.drop (signRun t).length).takeWhile Text.isDigitByte
    else [] := rfl

theorem isExponent_exponentRun (t : Text) : IsExponent (exponentRun t) ∧ exponentRun t <+: t := by
  cases t with
  | nil => exact ⟨.none, List.nil_prefix⟩
  | cons mark t =>
    rw [exponentRun_cons]
    split
    · rename_i hmark
      split
      · exact ⟨.none, List.nil_prefix⟩
      · rename_i hdigits
        refine ⟨.some hmark (isSign_signRun t) (by simpa using hdigits) List.all_takeWhile, ?_⟩
        rw [List.cons_append, List.cons_prefix_cons]
        obtain ⟨rest, hrest⟩ := List.takeWhile_prefix Text.isDigitByte
          (l := t.drop (signRun t).length)
        refine ⟨rfl, rest, ?_⟩
        rw [List.append_assoc, hrest]
        exact List.prefix_iff_eq_append.mp (front_signRun t)
    · exact ⟨.none, List.nil_prefix⟩

/-- An exponent is read up to where no number goes on; a mark without digits is none. -/
theorem exponentRun_append {exponent rest : Text} (h : IsExponent exponent)
    (hrest : rest.all isQuietByte = true) : exponentRun (exponent ++ rest) = exponent := by
  have hquiet : ∀ rest : Text, rest.all isQuietByte = true → ∀ b ∈ rest.head?,
      Text.isDigitByte b = false ∧ isSignByte b = false := by
    intro rest hrest b hb
    have hb := bytes_of_quiet (List.all_eq_true.mp hrest b (List.mem_of_mem_head? hb))
    exact ⟨hb.1, hb.2.1⟩
  cases h with
  | none =>
    cases rest with
    | nil => rfl
    | cons mark rest =>
      have htail : rest.all isQuietByte = true := by
        simp only [List.all_cons, Bool.and_eq_true] at hrest
        exact hrest.2
      have hnone : signRun ([] ++ rest) = [] :=
        signRun_append .none fun b hb => (hquiet rest htail b hb).2
      rw [List.nil_append] at hnone ⊢
      rw [exponentRun_cons, hnone, List.length_nil, List.drop_zero,
        takeWhile_eq_nil_iff.mpr fun b hb => (hquiet rest htail b hb).1]
      simp
  | @some mark sign digits hmark hsign hne hdigits =>
    have hhead : ∀ b ∈ (digits ++ rest).head?, isSignByte b = false :=
      head?_digits_append hdigits fun hnil => absurd hnil hne
    rw [List.cons_append, List.append_assoc, exponentRun_cons, signRun_append hsign hhead,
      List.drop_left, takeWhile_run hdigits fun b hb => (hquiet rest hrest b hb).1]
    simp [hmark, hne]

theorem fractionRun_eq_nil {t : Text} (h : ∀ b ∈ t.head?, b ≠ '.'.toUInt8) : fractionRun t = [] := by
  have hpoint : Text.ofString "." = ['.'.toUInt8] := rfl
  cases t with
  | nil => rfl
  | cons b t =>
    have hb : ('.'.toUInt8 == b) = false := beq_eq_false_iff_ne.mpr (Ne.symm (h b rfl))
    unfold fractionRun
    rw [hpoint, Text.startsWith_one, hb]
    simp

theorem fractionRun_append {digits rest : Text} (hne : digits ≠ [])
    (hdigits : digits.all Text.isDigitByte = true)
    (hrest : ∀ b ∈ rest.head?, Text.isDigitByte b = false) :
    fractionRun ('.'.toUInt8 :: digits ++ rest) = '.'.toUInt8 :: digits := by
  have hpoint : Text.ofString "." = ['.'.toUInt8] := rfl
  unfold fractionRun
  rw [List.cons_append, hpoint, Text.startsWith_one, List.drop_succ_cons, List.drop_zero,
    takeWhile_run hdigits hrest]
  simp [hne]

theorem fractionRun_cases (t : Text) : fractionRun t <+: t ∧ (fractionRun t = [] ∨
    ∃ digits : Text, fractionRun t = '.'.toUInt8 :: digits ∧ digits ≠ [] ∧
      digits.all Text.isDigitByte = true) := by
  have hpoint : Text.ofString "." = ['.'.toUInt8] := rfl
  cases t with
  | nil => exact ⟨List.nil_prefix, .inl rfl⟩
  | cons b t =>
    unfold fractionRun
    rw [hpoint, Text.startsWith_one, List.drop_succ_cons, List.drop_zero]
    dsimp only
    split
    · rename_i hb
      obtain rfl := beq_iff_eq.mp hb
      split
      · exact ⟨List.nil_prefix, .inl rfl⟩
      · rename_i hdigits
        refine ⟨?_, .inr ⟨_, rfl, by simpa using hdigits, List.all_takeWhile⟩⟩
        exact (List.cons_prefix_cons).mpr ⟨rfl, List.takeWhile_prefix _⟩
    · exact ⟨List.nil_prefix, .inl rfl⟩

/-- The run of a number, part by part. -/
theorem numberRun?_eq (t : Text) : numberRun? t =
    let sign := signRun t
    let rest := t.drop sign.length
    let whole := rest.takeWhile Text.isDigitByte
    let rest := rest.drop whole.length
    let fraction := fractionRun rest
    if whole.isEmpty && fraction.isEmpty then none
    else
      let rest := rest.drop fraction.length
      let exponent := exponentRun rest
      some (sign ++ whole ++ fraction ++ exponent, rest.drop exponent.length) := rfl

/-- A number is read up to where no number goes on. -/
theorem numberRun?_append {n rest : Text} (hn : IsNumber n) (hrest : rest.all isQuietByte = true) :
    numberRun? (n ++ rest) = some (n, rest) := by
  obtain ⟨hsign, hwhole, hpoint, hne, hdigits, hexponent⟩ := hn
  rename_i sign whole point digits exponent
  have hbehind : ∀ b ∈ (exponent ++ rest).head?, Text.isDigitByte b = false ∧
      isSignByte b = false ∧ b ≠ '.'.toUInt8 := by
    intro b hb
    cases hexponent with
    | none =>
      have hb := bytes_of_quiet (List.all_eq_true.mp hrest b (List.mem_of_mem_head? hb))
      exact ⟨hb.1, hb.2.1, hb.2.2.1⟩
    | some hmark =>
      obtain rfl := Option.some.inj hb
      exact bytes_of_mark _ hmark
  -- the digits before the point, and the point with the digits behind it
  have hparts : ∃ front fraction : Text, whole ++ (point ++ digits) = front ++ fraction ∧
      front.all Text.isDigitByte = true ∧ (front = [] → fraction ≠ []) ∧
      (∀ b ∈ (fraction ++ (exponent ++ rest)).head?, Text.isDigitByte b = false) ∧
      (∀ b ∈ (front ++ (fraction ++ (exponent ++ rest))).head?, isSignByte b = false) ∧
      fractionRun (fraction ++ (exponent ++ rest)) = fraction := by
    rcases hpoint with rfl | rfl
    · refine ⟨whole ++ digits, [], by simp, by rw [List.all_append, hwhole, hdigits]; rfl, ?_,
        fun b hb => (hbehind b hb).1, ?_, fractionRun_eq_nil fun b hb => (hbehind b hb).2.2⟩
      · intro hnil
        exact absurd (List.append_eq_nil_iff.mp hnil).2 hne
      · refine head?_digits_append (by rw [List.all_append, hwhole, hdigits]; rfl) fun hnil => ?_
        exact absurd (List.append_eq_nil_iff.mp hnil).2 hne
    · have hdigit : Text.isDigitByte '.'.toUInt8 = false := by decide
      have hsigned : isSignByte '.'.toUInt8 = false := by decide
      refine ⟨whole, '.'.toUInt8 :: digits, rfl, hwhole, fun _ => List.cons_ne_nil _ _,
        head?_stops hdigit _, ?_, fractionRun_append hne hdigits fun b hb => (hbehind b hb).1⟩
      exact head?_digits_append hwhole fun _ => head?_stops hsigned _
  obtain ⟨front, fraction, hshape, hfront, hfull, hstop, hhead, hfraction⟩ := hparts
  have htext : sign ++ (whole ++ (point ++ (digits ++ exponent))) =
      sign ++ (front ++ (fraction ++ exponent)) := by
    rw [← List.append_assoc point, ← List.append_assoc whole, hshape, List.append_assoc]
  rw [htext, numberRun?_eq]
  simp only [List.append_assoc, signRun_append hsign hhead, List.drop_left,
    takeWhile_run hfront hstop, hfraction, exponentRun_append hexponent hrest]
  rw [if_neg]
  simpa using hfull

/-- What is read as a number is one. -/
theorem isNumber_of_numberRun? {t n rest : Text} (h : numberRun? t = some (n, rest)) :
    IsNumber n ∧ t = n ++ rest := by
  rw [numberRun?_eq] at h
  dsimp only at h
  split at h
  · cases h
  · rename_i hfull
    obtain ⟨rfl, rfl⟩ := Prod.mk.inj (Option.some.inj h)
    have hsign := isSign_signRun t
    have ht := List.prefix_iff_eq_append.mp (front_signRun t)
    generalize signRun t = sign at *
    generalize t.drop sign.length = t₁ at *
    have hwhole : (t₁.takeWhile Text.isDigitByte).all Text.isDigitByte = true := List.all_takeWhile
    have ht₁ := takeWhile_append_drop Text.isDigitByte t₁
    generalize t₁.takeWhile Text.isDigitByte = whole at *
    generalize t₁.drop whole.length = t₂ at *
    obtain ⟨hfront, hfraction⟩ := fractionRun_cases t₂
    have ht₂ := List.prefix_iff_eq_append.mp hfront
    generalize fractionRun t₂ = fraction at *
    generalize t₂.drop fraction.length = t₃ at *
    obtain ⟨hexponent, hfront₃⟩ := isExponent_exponentRun t₃
    have ht₃ := List.prefix_iff_eq_append.mp hfront₃
    constructor
    · rcases hfraction with rfl | ⟨digits, rfl, hne, hdigits⟩
      · have hne : whole ≠ [] := by simpa using hfull
        have hnumber : IsNumber (sign ++ ([] ++ ([] ++ (whole ++ exponentRun t₃)))) :=
          .mk hsign rfl (.inl rfl) hne hwhole hexponent
        simpa using hnumber
      · have hnumber : IsNumber (sign ++ (whole ++ ("." ++ (digits ++ exponentRun t₃)))) :=
          .mk hsign hwhole (.inr rfl) hne hdigits hexponent
        have hpoint : Text.ofString "." = ['.'.toUInt8] := rfl
        simpa [hpoint] using hnumber
    · simp only [List.append_assoc, ht₃, ht₂, ht₁, ht]

end Attribute

end ViewBinder
