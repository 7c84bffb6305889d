-- Number literals: the bytes they are written with, and which texts are literals of a type of whole
-- numbers. Such a type has signs or has none, and holds as many numbers as its bits can tell apart.
-- A literal of it is a run of decimal digits, with a sign in front where the type has signs, whose
-- value is one of these numbers; it is written anew in the one spelling that the value has.
import Mathlib.Data.List.Induction
import Mathlib.Data.Nat.Digits.Defs
import ViewBinder.Number.Literal
import ViewBinder.Proofs.Attribute.Parser
import ViewBinder.Proofs.Text.Basic

namespace ViewBinder.Number

/-- The bytes that number literals are written with. -/
def numerals : Text := "0123456789+-.e"

/-- The text is written with these only. -/
def IsNumeral (t : Text) : Prop := ∀ b ∈ t, b ∈ numerals

instance (t : Text) : Decidable (IsNumeral t) := List.decidableBAll _ _

theorem IsNumeral.append {t u : Text} (ht : IsNumeral t) (hu : IsNumeral u) :
    IsNumeral (t ++ u) := List.forall_mem_append.mpr ⟨ht, hu⟩

theorem IsNumeral.subset {t u : Text} (hu : IsNumeral u) (h : t ⊆ u) : IsNumeral t :=
  fun b hb => hu b (h hb)

theorem IsNumeral.onlyIf {t : Text} (h : IsNumeral t) (condition : Bool) :
    IsNumeral (Text.onlyIf condition t) := by
  unfold Text.onlyIf
  split
  · exact h
  · exact nofun

theorem isNumeral_ofNat (n : Nat) : IsNumeral (Text.ofNat n) := by
  have hdigits : Text.ofString "0123456789" ⊆ numerals := by decide
  exact fun b hb => hdigits (Text.mem_digits
    (List.all_eq_true.mp (Text.isDigitByte_ofNat n).2 b hb))

theorem isNumeral_ofInt (z : Int) : IsNumeral (Text.ofInt z) := by
  cases z with
  | ofNat n => exact isNumeral_ofNat n
  | negSucc n =>
    have hminus : IsNumeral "-" := by decide
    exact hminus.append (isNumeral_ofNat (n + 1))

/-- No blank stands in a numeral. -/
theorem IsNumeral.trim {t : Text} (h : IsNumeral t) : Text.trim t = t := by
  have hdark : ∀ b ∈ numerals, b < 0x80 ∧ Text.isSpace b.toNat = false := forall_of_all (by decide)
  exact Text.trim_of_dark fun b hb => hdark b (h b hb)

theorem isNumeral_times (n : Nat) : IsNumeral (Text.times n "0") := by
  have hzero : IsNumeral "0" := by decide
  intro b hb
  obtain ⟨t, ht, hb⟩ := List.mem_flatten.mp hb
  rw [List.eq_of_mem_replicate ht] at hb
  exact hzero b hb

theorem isNumeral_pointed (digits : Nat) (exponent : Int) :
    IsNumeral (pointed digits exponent).1 := by
  refine (isNumeral_ofNat digits).subset fun b hb => ?_
  have hkept := (List.dropWhile_sublist _).subset (List.mem_reverse.mp hb)
  exact List.mem_reverse.mp hkept

theorem isNumeral_scientific {digits : Text} (h : IsNumeral digits) (point : Int) :
    IsNumeral (scientific digits point) := by
  have hpoint : IsNumeral "." := by decide
  have hmark : IsNumeral "e" := by decide
  have hsign : ∀ e : Int, IsNumeral (if e < 0 then Text.ofString "-" else Text.ofString "+") := by
    intro e
    split <;> decide
  have hzero : IsNumeral "0" := by decide
  have hfirst := h.subset (List.take_subset 1 digits)
  have hrest := h.subset (List.drop_subset 1 digits)
  have hexponent : ∀ e : Int, IsNumeral (exponentText e) := fun e =>
    ((hsign e).append (hzero.onlyIf _)).append (isNumeral_ofNat _)
  exact ((hfirst.append ((hpoint.append hrest).onlyIf _)).append hmark).append (hexponent _)

theorem isNumeral_positional {digits : Text} (h : IsNumeral digits) (point : Int) :
    IsNumeral (positional digits point) := by
  have hpoint : IsNumeral "." := by decide
  have hzero : IsNumeral "0." := by decide
  unfold positional
  split
  · exact (hzero.append (isNumeral_times _)).append h
  · have hwhole := h.subset (List.take_subset point.toNat digits)
    have hrest := h.subset (List.drop_subset point.toNat digits)
    exact (hwhole.append (isNumeral_times _)).append ((hpoint.append hrest).onlyIf _)

/-- Something is written of every number. -/
theorem positional_ne_nil (digits : Text) (point : Int) : positional digits point ≠ [] := by
  unfold positional
  split
  · rw [List.append_assoc]
    exact List.append_ne_nil_of_left_ne_nil (by decide) _
  · rename_i hpoint
    intro hnil
    have hlength := congrArg List.length hnil
    simp only [List.length_append, List.length_take, Text.times, List.length_flatten,
      List.map_replicate, List.sum_replicate_nat, List.length_nil] at hlength
    have hone : (Text.ofString "0").length = 1 := by decide
    rw [hone] at hlength
    omega

theorem isNumeral_fractionText (f : BinaryFormat) (negative : Bool) (b : Binary) :
    IsNumeral (fractionText f negative b) ∧ fractionText f negative b ≠ [] := by
  have hzero : IsNumeral "0" := by decide
  have hsign : IsNumeral (Text.onlyIf negative "-") :=
    IsNumeral.onlyIf (show IsNumeral "-" by decide) negative
  unfold fractionText
  dsimp only
  split
  · exact ⟨hsign.append hzero, List.append_ne_nil_of_right_ne_nil _ (by decide)⟩
  · have hdigits := isNumeral_pointed (f.shortest b).1 (f.shortest b).2
    split
    · refine ⟨hsign.append (isNumeral_scientific hdigits _), ?_⟩
      refine List.append_ne_nil_of_right_ne_nil _ (List.append_ne_nil_of_left_ne_nil ?_ _)
      exact List.append_ne_nil_of_right_ne_nil _ (by decide)
    · exact ⟨hsign.append (isNumeral_positional hdigits _),
        List.append_ne_nil_of_right_ne_nil _ (positional_ne_nil _ _)⟩

/-- A literal is a numeral. -/
theorem isNumeral_literal? {name value t : Text} (h : literal? name value = some t) :
    IsNumeral t ∧ t ≠ [] := by
  unfold literal? at h
  dsimp only at h
  split at h
  · obtain ⟨d, -, h⟩ := Option.bind_eq_some_iff.mp h
    obtain ⟨b, -, h⟩ := Option.bind_eq_some_iff.mp h
    cases h
    exact isNumeral_fractionText _ _ _
  · split at h
    · obtain ⟨n, -, rfl⟩ := Option.map_eq_some_iff.mp h
      exact ⟨isNumeral_ofNat n, (Text.isDigitByte_ofNat n).1⟩
    · obtain ⟨n, -, rfl⟩ := Option.map_eq_some_iff.mp h
      refine ⟨isNumeral_ofInt n, ?_⟩
      cases n with
      | ofNat n => exact (Text.isDigitByte_ofNat n).1
      | negSucc n => exact List.append_ne_nil_of_right_ne_nil _ (Text.isDigitByte_ofNat _).1

/-! ## Types of whole numbers -/

/-- The sizes that names of types give in bits. -/
inductive Width where
  | w8
  | w16
  | w32
  | w64
  deriving DecidableEq, Repr

namespace Width

def bits : Width → Nat
  | w8 => 8
  | w16 => 16
  | w32 => 32
  | w64 => 64

/-- The size as it stands in a name. -/
def text : Width → Text
  | w8 => "8"
  | w16 => "16"
  | w32 => "32"
  | w64 => "64"

end Width

/-- A type of whole numbers. One whose name gives no size has 64 bits. -/
structure WholeType where
  signed : Bool
  width : Option Width
  deriving DecidableEq, Repr

namespace WholeType

def name (T : WholeType) : Text :=
  (if T.signed then Text.ofString "int" else Text.ofString "uint") ++ T.width.elim [] Width.text

def bits (T : WholeType) : Nat := T.width.elim 64 Width.bits

/-- The smallest number of the type. -/
def least (T : WholeType) : Int := if T.signed then -2 ^ (T.bits - 1) else 0

/-- The first number that is too large for the type. -/
def limit (T : WholeType) : Int := if T.signed then 2 ^ (T.bits - 1) else 2 ^ T.bits

/-- The number is one of the type. -/
def Holds (T : WholeType) (z : Int) : Prop := T.least ≤ z ∧ z < T.limit

instance (T : WholeType) (z : Int) : Decidable (T.Holds z) := by
  unfold Holds
  infer_instance

/-- A primitive that is a number is a type of whole numbers or one of fractions. -/
theorem mem_numericNames_iff (name : Text) :
    name ∈ numericNames ↔ (∃ T : WholeType, T.name = name) ∨ name = "float32" ∨ name = "float64" := by
  constructor
  · have hnames : ∀ name ∈ numericNames, (∃ signed : Bool, ∃ width ∈ [none, some Width.w8,
        some .w16, some .w32, some .w64], WholeType.name ⟨signed, width⟩ = name) ∨
        name = "float32" ∨ name = "float64" := by decide
    intro hname
    rcases hnames name hname with ⟨signed, width, -, hwhole⟩ | hfraction
    · exact Or.inl ⟨⟨signed, width⟩, hwhole⟩
    · exact Or.inr hfraction
  · rintro (⟨⟨signed, width⟩, rfl⟩ | rfl | rfl)
    · rcases signed with _ | _ <;> rcases width with _ | _ | _ | _ | _ <;> decide
    · decide
    · decide

end WholeType

/-! ## Runs of digits -/

/-- The number that decimal digits stand for by their places, the last digit counting once. -/
def placeValue (digits : Text) : Nat := Nat.ofDigits 10 (digits.reverse.map fun b => b.toNat - 48)

theorem digitsValue_eq_placeValue (digits : Text) : Text.digitsValue digits = placeValue digits := by
  induction digits using List.reverseRecOn with
  | nil => rfl
  | append_singleton digits b ih =>
    unfold Text.digitsValue placeValue at *
    simp only [List.foldl_append, List.foldl_cons, List.foldl_nil, List.reverse_append,
      List.reverse_singleton, List.singleton_append, List.map_cons, Nat.ofDigits_cons, ih]
    omega

/-- The text spells the number: in decimal digits, which a sign may stand before if there are signs. -/
inductive IsWhole (signed : Bool) : Text → Int → Prop
  | plain {digits : Text} : digits ≠ [] → digits.all Text.isDigitByte = true →
      IsWhole signed digits (placeValue digits)
  | plus {digits : Text} : signed = true → digits ≠ [] → digits.all Text.isDigitByte = true →
      IsWhole signed ('+'.toUInt8 :: digits) (placeValue digits)
  | minus {digits : Text} : signed = true → digits ≠ [] → digits.all Text.isDigitByte = true →
      IsWhole signed ('-'.toUInt8 :: digits) (-(placeValue digits : Int))

theorem unsigned?_eq_some_iff {t : Text} {n : Nat} :
    unsigned? t = some n ↔ t ≠ [] ∧ t.all Text.isDigitByte = true ∧ placeValue t = n := by
  unfold unsigned?
  rw [digitsValue_eq_placeValue]
  by_cases hnil : t = []
  · simp [hnil]
  · by_cases hdigits : t.all Text.isDigitByte = true
    · simp [hnil, hdigits]
    · simp [hnil, hdigits]

/-- Without signs a text spells a number exactly if it is a run of digits. -/
theorem isWhole_false_iff {t : Text} {z : Int} :
    IsWhole false t z ↔ ∃ n : Nat, unsigned? t = some n ∧ z = n := by
  simp only [unsigned?_eq_some_iff]
  constructor
  · intro h
    cases h with
    | plain hne hdigits => exact ⟨_, ⟨hne, hdigits, rfl⟩, rfl⟩
    | plus hsigned => cases hsigned
    | minus hsigned => cases hsigned
  · rintro ⟨n, ⟨hne, hdigits, rfl⟩, rfl⟩
    exact .plain hne hdigits

/-! ## Signs -/

/-- Digits have no sign in front. -/
theorem startsWith_of_digits {t : Text} {sign : UInt8} (hsign : Text.isDigitByte sign = false)
    (h : t.all Text.isDigitByte = true) : Text.startsWith t [sign] = false := by
  cases t with
  | nil => rfl
  | cons b t =>
    have hb := List.all_eq_true.mp h b List.mem_cons_self
    rw [Text.startsWith_one, beq_eq_false_iff_ne]
    rintro rfl
    rw [hsign] at hb
    cases hb

/-- With signs a text spells a number exactly if it is a run of digits but for a sign in front. -/
theorem isWhole_true_iff {t : Text} {z : Int} :
    IsWhole true t z ↔ ∃ n : Nat,
      unsigned? (if Text.startsWith t "-" || Text.startsWith t "+" then t.drop 1 else t) = some n ∧
        z = if Text.startsWith t "-" then -(n : Int) else n := by
  have hminus : Text.ofString "-" = ['-'.toUInt8] := rfl
  have hplus : Text.ofString "+" = ['+'.toUInt8] := rfl
  have hdifferent : ('-'.toUInt8 == '+'.toUInt8) = false := by decide
  rw [hminus, hplus]
  constructor
  · intro h
    cases h with
    | plain hne hdigits =>
      rw [startsWith_of_digits (by decide) hdigits, startsWith_of_digits (by decide) hdigits]
      exact ⟨_, unsigned?_eq_some_iff.mpr ⟨hne, hdigits, rfl⟩, rfl⟩
    | plus _ hne hdigits =>
      rw [Text.startsWith_one, Text.startsWith_one, hdifferent]
      exact ⟨_, unsigned?_eq_some_iff.mpr ⟨hne, hdigits, rfl⟩, rfl⟩
    | minus _ hne hdigits =>
      rw [Text.startsWith_one]
      exact ⟨_, unsigned?_eq_some_iff.mpr ⟨hne, hdigits, rfl⟩, rfl⟩
  · rintro ⟨n, hn, rfl⟩
    obtain ⟨hne, hdigits, rfl⟩ := unsigned?_eq_some_iff.mp hn
    cases t with
    | nil => simp [Text.startsWith] at hne
    | cons b t =>
      simp only [Text.startsWith_one] at hne hdigits ⊢
      by_cases hb : '-'.toUInt8 = b
      · subst hb
        exact .minus rfl hne hdigits
      · by_cases hb' : '+'.toUInt8 = b
        · subst hb'
          exact .plus rfl hne hdigits
        · simp only [beq_eq_false_iff_ne.mpr hb, beq_eq_false_iff_ne.mpr hb'] at hne hdigits ⊢
          exact .plain hne hdigits

/-! ## Readers of whole numbers -/

theorem natural?_eq_some_iff {bits : Nat} {t : Text} {n : Nat} :
    natural? bits t = some n ↔ IsWhole false t n ∧ n < 2 ^ bits := by
  unfold natural?
  rw [Option.filter_eq_some_iff, isWhole_false_iff, decide_eq_true_eq]
  simp only [Int.natCast_inj, exists_eq_right']
  exact Iff.rfl

theorem integer?_eq_some_iff {bits : Nat} {t : Text} {z : Int} :
    integer? bits t = some z ↔ IsWhole true t z ∧ -2 ^ (bits - 1) ≤ z ∧ z < 2 ^ (bits - 1) := by
  unfold integer?
  rw [isWhole_true_iff]
  dsimp only
  split
  · rename_i hnone
    simp only [hnone, reduceCtorEq, false_and, exists_false]
  · rename_i n hn
    simp only [hn, Option.some.injEq, exists_eq_left', Option.ite_none_right_eq_some,
      Bool.and_eq_true, decide_eq_true_eq]
    have hlimit : ((Nat.pow 2 (bits - 1) : Nat) : Int) = 2 ^ (bits - 1) := Int.natCast_pow 2 _
    rw [hlimit]
    constructor
    · rintro ⟨hrange, rfl⟩
      exact ⟨rfl, hrange⟩
    · rintro ⟨rfl, hrange⟩
      exact ⟨hrange, rfl⟩

/-! ## Literals -/

/-- What is read for a type, by the kind of type it is. -/
theorem literal?_name (T : WholeType) (v : Text) :
    literal? T.name v = if T.signed then (integer? T.bits (Text.trim v)).map Text.ofInt
      else (natural? T.bits (Text.trim v)).map Text.ofNat := by
  rcases T with ⟨_ | _, _ | _ | _ | _ | _⟩ <;> rfl

theorem literal?_eq_some_iff (T : WholeType) (v t : Text) :
    literal? T.name v = some t ↔
      ∃ z, IsWhole T.signed (Text.trim v) z ∧ T.Holds z ∧ t = Text.ofInt z := by
  rw [literal?_name]
  unfold WholeType.Holds WholeType.least WholeType.limit
  cases T.signed with
  | true =>
    simp only [if_true, Option.map_eq_some_iff, integer?_eq_some_iff, and_assoc, eq_comm (a := t)]
  | false =>
    simp only [Bool.false_eq_true, if_false, Option.map_eq_some_iff, natural?_eq_some_iff]
    constructor
    · rintro ⟨n, ⟨hwhole, hn⟩, rfl⟩
      exact ⟨n, hwhole, ⟨Int.natCast_nonneg n, by exact_mod_cast hn⟩, rfl⟩
    · rintro ⟨z, hwhole, ⟨hz, hlimit⟩, rfl⟩
      obtain ⟨n, rfl⟩ := Int.eq_ofNat_of_zero_le hz
      exact ⟨n, ⟨hwhole, by exact_mod_cast hlimit⟩, rfl⟩

/-! ## The one spelling of a number -/

/-- The digits of a number spell it. -/
theorem isWhole_ofNat (signed : Bool) (n : Nat) : IsWhole signed (Text.ofNat n) n := by
  obtain ⟨hne, hdigits⟩ := Text.isDigitByte_ofNat n
  have hvalue : placeValue (Text.ofNat n) = n := by
    rw [← digitsValue_eq_placeValue, Text.digitsValue_ofNat]
  have hplain : IsWhole signed (Text.ofNat n) (placeValue (Text.ofNat n)) := .plain hne hdigits
  rwa [hvalue] at hplain

/-- A number of a type is spelled as the type wants it. -/
theorem isWhole_ofInt {T : WholeType} {z : Int} (h : T.Holds z) :
    IsWhole T.signed (Text.ofInt z) z := by
  cases z with
  | ofNat n => exact isWhole_ofNat T.signed n
  | negSucc n =>
    have hsigned : T.signed = true := by
      by_contra hplain
      have hleast : T.least = 0 := by simp [WholeType.least, hplain]
      have hneg := Int.negSucc_lt_zero n
      have hle := h.1
      omega
    obtain ⟨hne, hdigits⟩ := Text.isDigitByte_ofNat (n + 1)
    have hvalue : placeValue (Text.ofNat (n + 1)) = n + 1 := by
      rw [← digitsValue_eq_placeValue, Text.digitsValue_ofNat]
    have hminus : IsWhole T.signed ('-'.toUInt8 :: Text.ofNat (n + 1))
        (-(placeValue (Text.ofNat (n + 1)) : Int)) := .minus hsigned hne hdigits
    rw [hvalue] at hminus
    exact hminus

/-- A literal of a type of whole numbers is what spells a number of the type once the blanks at its
ends are gone, and it is written as that number is, which is a literal that stays as it is. -/
theorem whole_literals_are_the_numbers_of_the_type (T : WholeType) (v t : Text) :
    literal? T.name v = some t ↔
      ∃ z, IsWhole T.signed (Text.trim v) z ∧ T.Holds z ∧ t = Text.ofInt z ∧
        literal? T.name t = some t := by
  rw [literal?_eq_some_iff]
  refine exists_congr fun z => and_congr_right fun _ => ?_
  constructor
  · rintro ⟨hz, rfl⟩
    refine ⟨hz, rfl, ?_⟩
    rw [literal?_eq_some_iff, (isNumeral_ofInt z).trim]
    exact ⟨z, isWhole_ofInt hz, hz, rfl⟩
  · rintro ⟨hz, rfl, -⟩
    exact ⟨hz, rfl⟩

example : literal? "int8" " -0128\n" = some (Text.ofString "-128") := by decide

end ViewBinder.Number
