-- Filling patterns. A plain directive is replaced by its argument as it is. Behind the last argument
-- a text comes out as it is exactly if no percent sign stands in it: every sign is used up, or becomes
-- a note that something is missing.
import ViewBinder.Program.Pattern
import ViewBinder.Proofs.Text.Quoted

namespace ViewBinder

namespace Text

theorem percent_mem_encodeRune {code : Nat} (h : '%'.toUInt8 ∈ encodeRune code) : code = 37 := by
  have hvalue : '%'.toUInt8.toNat = 37 := by decide
  unfold encodeRune at h
  split at h
  · rename_i hlow
    rw [List.mem_singleton] at h
    have hsame := congrArg UInt8.toNat h
    rw [hvalue, toNat_toUInt8 hlow] at hsame
    exact hsame.symm
  · exfalso
    split at h
    · simp only [List.mem_cons, List.not_mem_nil, or_false, ← UInt8.toNat_inj, hvalue,
        Nat.toUInt8_eq, UInt8.toNat_ofNat'] at h
      omega
    · split at h
      · exact absurd h (by decide)
      · rename_i hvalid
        simp only [Bool.or_eq_true, decide_eq_true_eq] at hvalid
        split at h <;>
        · simp only [List.mem_cons, List.not_mem_nil, or_false, ← UInt8.toNat_inj, hvalue,
            Nat.toUInt8_eq, UInt8.toNat_ofNat'] at h
          omega

theorem percent_notMem_encodeRune {code : Nat} (h : encodeRune code ≠ "%") :
    '%'.toUInt8 ∉ encodeRune code :=
  fun hmem => h (by rw [percent_mem_encodeRune hmem]; rfl)

/-- A text whose first character is the percent sign begins with its byte. -/
theorem percent_drop {t : Text} (hne : t ≠ []) (h : encodeRune (decodeHead t).1 = "%") :
    '%'.toUInt8 :: t.drop (decodeHead t).2 = t := by
  have hcode : (decodeHead t).1 = 37 := percent_mem_encodeRune (h ▸ List.mem_singleton_self _)
  cases t with
  | nil => exact absurd rfl hne
  | cons c t =>
    by_cases hc : c < 0x80
    · rw [decodeHead_ascii c t hc] at hcode ⊢
      have hself : c = '%'.toUInt8 := UInt8.toNat_inj.mp hcode
      rw [hself, List.drop_one, List.tail_cons]
    · have hhigh : 0x80 ≤ (decodeHead (c :: t)).1 := code_of_high hc t
      omega

end Text

namespace Pattern

open Text (isNamePart)

/-! ## Plain directives -/

theorem argument_plain (arg : Text) : argument {} "s" arg = arg := by
  simp [argument, pad, cut]

/-- What the plain directive gives: the argument, or a note that there is none. -/
def plainDirective (args : List Text) (next : Nat) (rest : Text) : Text × Cursor × Text :=
  match args[next]? with
  | none => ("%!s(MISSING)", { next }, rest)
  | some arg => (argument {} "s" arg, { next := next + 1 }, rest)

/-- What follows a percent sign is a letter and nothing else. -/
theorem directive_plain (args : List Text) (arg : Text) (next : Nat) (rest : Text)
    (harg : args[next]? = some arg) :
    directive args next false ('s'.toUInt8 :: rest) = (arg, { next := next + 1 }, rest) := by
  have hread : directive args next false ('s'.toUInt8 :: rest) = plainDirective args next rest :=
    rfl
  unfold plainDirective at hread
  rw [hread, harg]
  simp only [argument_plain]

theorem takeWhile_plain {plain : Text} (h : '%'.toUInt8 ∉ plain) (rest : Text) :
    List.takeWhile (· != '%'.toUInt8) (plain ++ rest) =
      plain ++ List.takeWhile (· != '%'.toUInt8) rest := by
  refine List.takeWhile_append_of_pos fun b hb => ?_
  rw [bne_iff_ne]
  exact fun heq => h (heq ▸ hb)

/-- What stands in front of a plain directive is written as it is, and then the argument. -/
theorem fillFrom_directive {args : List Text} {plain arg : Text} {next : Nat}
    (hplain : '%'.toUInt8 ∉ plain) (harg : args[next]? = some arg) (fuel : Nat) (rest : Text) :
    fillFrom args (fuel + 1) next false (plain ++ '%'.toUInt8 :: 's'.toUInt8 :: rest) =
      plain ++ arg ++ fillFrom args fuel (next + 1) false rest := by
  have hfront : List.takeWhile (· != '%'.toUInt8) ('%'.toUInt8 :: 's'.toUInt8 :: rest) = [] := rfl
  rw [fillFrom]
  simp only [takeWhile_plain hplain, hfront, List.append_nil, List.drop_left]
  rw [directive_plain args arg next rest harg]

/-! ## Percent signs -/

/-- How many percent signs stand in a text without an exclamation mark behind. -/
def bares : Text → Nat
  | [] => 0
  | b :: rest =>
    (if b = '%'.toUInt8 ∧ rest.head? ≠ some '!'.toUInt8 then 1 else 0) + bares rest

theorem bares_cons (b : UInt8) (t : Text) : bares (b :: t) =
    (if b = '%'.toUInt8 ∧ t.head? ≠ some '!'.toUInt8 then 1 else 0) + bares t := rfl

theorem bares_plain_append {s : Text} (hs : '%'.toUInt8 ∉ s) (t : Text) :
    bares (s ++ t) = bares t := by
  induction s with
  | nil => rfl
  | cons b s ih =>
    obtain ⟨hb, hrest⟩ := not_or.mp (mt List.mem_cons.mpr hs)
    rw [List.cons_append, bares_cons, if_neg fun h => hb h.1.symm, ih hrest, Nat.zero_add]

theorem bares_plain {t : Text} (ht : '%'.toUInt8 ∉ t) : bares t = 0 := by
  have hend := bares_plain_append ht []
  rwa [List.append_nil] at hend

theorem bares_append_le (s t : Text) : bares (s ++ t) ≤ bares s + bares t := by
  induction s with
  | nil => exact Nat.le_add_left _ _
  | cons b s ih =>
    rw [List.cons_append]
    cases s with
    | nil =>
      -- what follows can only turn a percent sign at the end into a note
      have hend : bares [b] = if b = '%'.toUInt8 then 1 else 0 := by simp [bares]
      rw [List.nil_append, bares_cons, hend]
      refine Nat.add_le_add_right ?_ _
      by_cases hb : b = '%'.toUInt8
      · rw [if_pos hb]
        split <;> omega
      · rw [if_neg fun h => hb h.1]
        exact Nat.zero_le _
    | cons c s =>
      have hnext : (c :: s ++ t).head? = (c :: s).head? := rfl
      rw [bares_cons b, bares_cons b, hnext]
      omega

theorem bares_suffix_le {s t : Text} (h : s <:+ t) : bares s ≤ bares t := by
  obtain ⟨front, rfl⟩ := h
  induction front with
  | nil => exact Nat.le_refl _
  | cons b front ih =>
    rw [List.cons_append, bares_cons]
    omega

/-- A note shows a percent sign with an exclamation mark behind. -/
theorem bares_note {t : Text} (ht : '%'.toUInt8 ∉ t) : bares (Text.ofString "%!" ++ t) = 0 := by
  show bares ('%'.toUInt8 :: '!'.toUInt8 :: t) = 0
  have hmark : '%'.toUInt8 ∉ '!'.toUInt8 :: t := List.not_mem_cons_of_ne_of_not_mem (by decide) ht
  rw [bares_cons, List.head?_cons, if_neg fun h => h.2 rfl, bares_plain hmark]

/-! ## What is written for a percent sign -/

theorem flags_suffix (s : Shape) (t : Text) : (flags s t).2 <:+ t := by
  induction t generalizing s with
  | nil => exact List.suffix_refl _
  | cons b rest ih =>
    unfold flags
    split
    · exact (ih _).trans (List.suffix_cons b rest)
    · exact List.suffix_refl _

theorem number_suffix (t : Text) : (number t).2 <:+ t := by
  unfold number
  dsimp only
  split
  · exact List.suffix_refl _
  · split
    · exact List.nil_suffix
    · exact List.drop_suffix _ _

theorem readIndex_suffix (count : Nat) (c : Cursor) (t : Text) : (readIndex count c t).2 <:+ t := by
  unfold readIndex
  split
  · exact List.suffix_refl _
  · dsimp only
    split
    · exact List.drop_suffix _ _
    · repeat' split
      all_goals exact List.drop_suffix _ _

theorem star_eq_some {what : Text} {c : Cursor} {t : Text} {read : Text × Cursor × Text}
    (h : star what c t = some read) : read.1 = "%!(BAD" ++ what ++ ")" ∧ read.2.2 <:+ t := by
  unfold star at h
  split at h
  · cases h
    exact ⟨rfl, List.drop_suffix _ _⟩
  · cases h

theorem readWidth_spec (s : Shape) (c : Cursor) (t : Text) :
    bares (readWidth s c t).1 = 0 ∧ (readWidth s c t).2.2.2 <:+ t := by
  unfold readWidth
  split
  · rename_i note _ _ hstar
    obtain ⟨hnote, hrest⟩ := star_eq_some hstar
    have hbares : bares note = 0 := by
      rw [show note = _ from hnote]
      decide
    exact ⟨hbares, hrest⟩
  · exact ⟨rfl, number_suffix t⟩

theorem readPrecision_spec (count : Nat) (s : Shape) (c : Cursor) (t : Text) :
    bares (readPrecision count s c t).1 = 0 ∧ (readPrecision count s c t).2.2.2 <:+ t := by
  unfold readPrecision
  split
  · exact ⟨rfl, List.suffix_refl _⟩
  · have hindex := (readIndex_suffix count { c with good := c.good && !c.fresh } (t.drop 1)).trans
      (List.drop_suffix 1 t)
    dsimp only
    split
    · rename_i note _ _ hstar
      obtain ⟨hnote, hrest⟩ := star_eq_some hstar
      have hbares : bares note = 0 := by
        rw [show note = _ from hnote]
        decide
      exact ⟨hbares, hrest.trans hindex⟩
    · exact ⟨rfl, (number_suffix _).trans hindex⟩

/-- The bytes of a name. -/
def IsNamed (arg : Text) : Prop := ∀ b ∈ arg, isNamePart b.toNat = true

theorem percent_notMem {t : Text} (h : IsNamed t) : '%'.toUInt8 ∉ t :=
  fun hmem => absurd (h _ hmem) (by decide)

theorem IsNamed.cut {arg : Text} (h : IsNamed arg) (s : Shape) : IsNamed (cut s arg) := by
  unfold Pattern.cut
  split
  · rename_i n _
    have hascii : ∀ b ∈ arg, b < 0x80 := fun b hb =>
      UInt8.lt_iff_toNat_lt.mpr (Text.isNamePart_lt (h b hb))
    rw [Text.runes_ascii arg hascii, ← List.map_take]
    intro b hb
    simp only [Text.ofRunes, List.mem_flatMap, List.mem_map] at hb
    obtain ⟨_, ⟨c, hc, rfl⟩, hb⟩ := hb
    rw [List.mem_singleton.mp hb]
    exact h c (List.mem_of_mem_take hc)
  · exact h

theorem percent_notMem_pad {t : Text} (h : '%'.toUInt8 ∉ t) (s : Shape) :
    '%'.toUInt8 ∉ pad s t := by
  have hfill : ∀ n, ∀ b ∈ [' '.toUInt8, '0'.toUInt8], '%'.toUInt8 ∉ List.replicate n b := by
    intro n b hb hmem
    rw [← (List.mem_replicate.mp hmem).2] at hb
    exact absurd hb (by decide)
  unfold pad
  dsimp only
  split
  · rw [List.mem_append]
    exact not_or.mpr ⟨h, hfill _ _ (by simp)⟩
  · rw [List.mem_append]
    refine not_or.mpr ⟨hfill _ _ ?_, h⟩
    split <;> simp

theorem percent_notMem_quote {t : Text} (h : IsNamed t) : '%'.toUInt8 ∉ Text.quote t := by
  have hplain : ∀ b : UInt8, isNamePart b.toNat = true → Text.isPlainByte b = true := by
    refine Text.forall_byte ?_
    decide
  rw [Text.quote_plain (List.all_eq_true.mpr fun b hb => hplain b (h b hb))]
  simp only [List.mem_append, not_or]
  exact ⟨⟨by decide, percent_notMem h⟩, by decide⟩

theorem percent_notMem_quoted {t : Text} (h : IsNamed t) (s : Shape) :
    '%'.toUInt8 ∉ quoted s t := by
  unfold quoted
  split
  · simp only [List.mem_append, not_or]
    exact ⟨⟨by decide, percent_notMem h⟩, by decide⟩
  · exact percent_notMem_quote h

theorem percent_notMem_join {glue : Text} {pieces : List Text} (hglue : '%'.toUInt8 ∉ glue)
    (h : ∀ p ∈ pieces, '%'.toUInt8 ∉ p) : '%'.toUInt8 ∉ Text.join glue pieces := by
  unfold Text.join
  induction pieces with
  | nil => exact List.not_mem_nil
  | cons p rest ih =>
    have hrest := ih fun q hq => h q (List.mem_cons_of_mem p hq)
    cases rest with
    | nil =>
      rw [List.intercalate_singleton]
      exact h p List.mem_cons_self
    | cons q rest =>
      rw [List.intercalate_cons_cons, List.mem_append, List.mem_append]
      exact not_or.mpr ⟨not_or.mpr ⟨h p List.mem_cons_self, hglue⟩, hrest⟩

theorem percent_notMem_hexOf (width n : Nat) : '%'.toUInt8 ∉ Text.hexOf width n ∧
    '%'.toUInt8 ∉ upperHex (Text.hexOf width n) := by
  have hdigit : ∀ d < 16, Text.hexDigit d ≠ '%'.toUInt8 ∧
      '%'.toUInt8 ∉ upperHex [Text.hexDigit d] := by
    decide
  induction width generalizing n with
  | zero => exact ⟨List.not_mem_nil, List.not_mem_nil⟩
  | succ width ih =>
    obtain ⟨hlower, hupper⟩ := ih (n / 16)
    obtain ⟨hlast, hlastUpper⟩ := hdigit (n % 16) (Nat.mod_lt n (by decide))
    unfold Text.hexOf
    constructor
    · rw [List.mem_append, List.mem_singleton]
      exact not_or.mpr ⟨hlower, hlast.symm⟩
    · unfold upperHex at hupper hlastUpper ⊢
      rw [List.map_append, List.mem_append]
      exact not_or.mpr ⟨hupper, hlastUpper⟩

theorem percent_notMem_hexText (s : Shape) (t : Text) (upper : Bool) :
    '%'.toUInt8 ∉ hexText s t upper := by
  have hlead : '%'.toUInt8 ∉ (if s.sharp then (if upper then "0X" else "0x") else [] : Text) := by
    repeat' split
    all_goals decide
  have hdigits : ∀ bytes : Text, ∀ d ∈ (if upper then
      (bytes.map fun b => Text.hexOf 2 b.toNat).map upperHex
      else bytes.map fun b => Text.hexOf 2 b.toNat), '%'.toUInt8 ∉ d := by
    intro bytes d hd
    split at hd
    · obtain ⟨_, hlower, rfl⟩ := List.mem_map.mp hd
      obtain ⟨b, -, rfl⟩ := List.mem_map.mp hlower
      exact (percent_notMem_hexOf 2 b.toNat).2
    · obtain ⟨b, -, rfl⟩ := List.mem_map.mp hd
      exact (percent_notMem_hexOf 2 b.toNat).1
  have hshown : ∀ (lead : Text) (digits : List Text), '%'.toUInt8 ∉ lead →
      (∀ d ∈ digits, '%'.toUInt8 ∉ d) →
      '%'.toUInt8 ∉ (if s.space then Text.join " " (digits.map fun d => lead ++ d)
        else lead ++ digits.flatten) := by
    intro lead digits hlead hdigits
    split
    · refine percent_notMem_join (by decide) fun p hp => ?_
      obtain ⟨d, hd, rfl⟩ := List.mem_map.mp hp
      rw [List.mem_append]
      exact not_or.mpr ⟨hlead, hdigits d hd⟩
    · rw [List.mem_append, List.mem_flatten]
      exact not_or.mpr ⟨hlead, fun ⟨d, hd, hmem⟩ => hdigits d hd hmem⟩
  unfold hexText
  dsimp only
  split <;>
  · split
    · exact List.not_mem_nil
    · exact hshown _ _ hlead (hdigits _)

/-- A name is written without a percent sign, or in a note. -/
theorem bares_argument {arg letter : Text} (harg : IsNamed arg) (hletter : '%'.toUInt8 ∉ letter)
    (s : Shape) : bares (argument s letter arg) = 0 := by
  have hcut := harg.cut s
  have hplain := percent_notMem_pad (percent_notMem hcut) s
  have hliteral := percent_notMem_pad (percent_notMem_quote hcut) s
  unfold argument
  dsimp only
  repeat' split
  · exact bares_plain hplain
  · exact bares_plain hliteral
  · exact bares_plain hplain
  · exact bares_plain (percent_notMem_pad (percent_notMem_quoted hcut s) s)
  · exact bares_plain (percent_notMem_pad (percent_notMem_hexText _ _ _) s)
  · exact bares_plain (percent_notMem_pad (percent_notMem_hexText _ _ _) s)
  · refine bares_plain (percent_notMem_pad (percent_notMem (IsNamed.cut ?_ s)) s)
    exact forall_of_all (by decide)
  all_goals
    rw [List.append_assoc, List.append_assoc, List.append_assoc]
    refine bares_note ?_
    simp only [List.mem_append, not_or]
    refine ⟨hletter, by decide, ?_, by decide⟩
    first | exact hplain | exact hliteral

/-- What is written for a percent sign shows none but in notes, or it is the percent sign that was
behind. -/
theorem directive_spec {args : List Text} (hargs : ∀ arg ∈ args, IsNamed arg) (next : Nat)
    (reordered : Bool) (t : Text) :
    (bares (directive args next reordered t).1 = 0 ∧ (directive args next reordered t).2.2 <:+ t) ∨
      ∃ notes, (directive args next reordered t).1 = notes ++ "%" ∧ bares notes = 0 ∧
        '%'.toUInt8 :: (directive args next reordered t).2.2 <:+ t := by
  unfold directive
  have hflags := flags_suffix {} t
  generalize flags {} t = read at hflags ⊢
  obtain ⟨shape, t₁⟩ := read
  have hfirst := (readIndex_suffix args.length { next, reordered } t₁).trans hflags
  dsimp only at hfirst ⊢
  generalize readIndex args.length { next, reordered } t₁ = read at hfirst ⊢
  obtain ⟨c₁, t₂⟩ := read
  dsimp only at hfirst ⊢
  obtain ⟨hwidth, hrest₃⟩ := readWidth_spec shape c₁ t₂
  generalize readWidth shape c₁ t₂ = read at hwidth hrest₃ ⊢
  obtain ⟨widthNote, shape₃, c₃, t₃⟩ := read
  dsimp only at hwidth hrest₃ ⊢
  obtain ⟨hprecision, hrest₄⟩ := readPrecision_spec args.length shape₃ c₃ t₃
  generalize readPrecision args.length shape₃ c₃ t₃ = read at hprecision hrest₄ ⊢
  obtain ⟨precisionNote, shape₄, c₄, t₄⟩ := read
  dsimp only at hprecision hrest₄ ⊢
  have hrest₅ : (if c₄.fresh = true then (c₄, t₄) else readIndex args.length c₄ t₄).2 <:+ t₄ := by
    split
    · exact List.suffix_refl _
    · exact readIndex_suffix _ _ _
  generalize (if c₄.fresh = true then (c₄, t₄) else readIndex args.length c₄ t₄) = read at hrest₅ ⊢
  obtain ⟨c, rest⟩ := read
  dsimp only at hrest₅ ⊢
  have hrest : rest <:+ t := ((hrest₅.trans hrest₄).trans hrest₃).trans hfirst
  have hdrop : ∀ n, rest.drop n <:+ t := fun n => (List.drop_suffix n rest).trans hrest
  have hnotes : bares (widthNote ++ precisionNote) = 0 := by
    have := bares_append_le widthNote precisionNote
    omega
  generalize widthNote ++ precisionNote = notes at hnotes ⊢
  have hwritten : ∀ {t}, bares t = 0 → bares (notes ++ t) = 0 := by
    intro t ht
    have := bares_append_le notes t
    omega
  split
  · exact .inl ⟨hwritten (by decide), List.nil_suffix⟩
  · rename_i hne
    split
    · rename_i hletter
      refine .inr ⟨notes, rfl, hnotes, ?_⟩
      rw [Text.percent_drop (by simpa using hne) (beq_iff_eq.mp hletter)]
      exact hrest
    · rename_i hletter
      have hplain := Text.percent_notMem_encodeRune (mt beq_iff_eq.mpr hletter)
      split
      · refine .inl ⟨?_, hdrop _⟩
        simp only [List.append_assoc]
        refine hwritten (bares_note ?_)
        rw [List.mem_append]
        exact not_or.mpr ⟨hplain, by decide⟩
      · split
        · refine .inl ⟨?_, hdrop _⟩
          simp only [List.append_assoc]
          refine hwritten (bares_note ?_)
          rw [List.mem_append]
          exact not_or.mpr ⟨hplain, by decide⟩
        · rename_i arg hget
          refine .inl ⟨?_, hdrop _⟩
          exact hwritten (bares_argument (hargs arg (List.mem_of_getElem? hget)) hplain _)

theorem rest_suffix {args : List Text} (hargs : ∀ arg ∈ args, IsNamed arg) (next : Nat)
    (reordered : Bool) (t : Text) : (directive args next reordered t).2.2 <:+ t := by
  rcases directive_spec hargs next reordered t with ⟨-, hrest⟩ | ⟨_, -, -, hrest⟩
  · exact hrest
  · exact (List.suffix_cons _ _).trans hrest

/-! ## Patterns that come out as they are -/

variable {args : List Text} {next : Nat}

theorem fillFrom_keep {plain : Text} (hplain : '%'.toUInt8 ∉ plain) (args : List Text)
    (fuel next : Nat) (reordered : Bool) (rest : Text) :
    fillFrom args (fuel + 1) next reordered (plain ++ rest) =
      plain ++ fillFrom args (fuel + 1) next reordered rest := by
  have hdrop : (plain ++ rest).drop (plain ++ rest.takeWhile (· != '%'.toUInt8)).length =
      rest.drop (rest.takeWhile (· != '%'.toUInt8)).length := by
    rw [List.length_append, List.drop_length_add_append]
  rw [fillFrom, fillFrom]
  simp only [takeWhile_plain hplain, hdrop]
  split
  · split
    · simp only [List.append_assoc]
    · rfl
  · simp only [List.append_assoc]

theorem fillFrom_percent (args : List Text) (fuel next : Nat) (reordered : Bool) (q : Text) :
    fillFrom args (fuel + 1) next reordered ('%'.toUInt8 :: q) =
      (directive args next reordered q).1 ++
        fillFrom args fuel (directive args next reordered q).2.1.next
          (directive args next reordered q).2.1.reordered (directive args next reordered q).2.2 := by
  rw [fillFrom]
  rfl

/-- At the end the arguments that were not asked for are noted. -/
theorem fillFrom_nil (args : List Text) (fuel next : Nat) (reordered : Bool) :
    fillFrom args (fuel + 1) next reordered [] =
      if !reordered && next < args.length then
        Text.ofString "%!(EXTRA " ++
          Text.join ", " ((args.drop next).map fun a => "string=" ++ a) ++ ")"
      else [] := rfl

theorem bares_fillFrom_nil (hargs : ∀ arg ∈ args, IsNamed arg) (fuel next : Nat)
    (reordered : Bool) : bares (fillFrom args (fuel + 1) next reordered []) = 0 := by
  rw [fillFrom_nil]
  split
  · have hjoin : '%'.toUInt8 ∉
        Text.join ", " ((args.drop next).map fun a => Text.ofString "string=" ++ a) := by
      refine percent_notMem_join (by decide) fun p hp => ?_
      obtain ⟨arg, harg, rfl⟩ := List.mem_map.mp hp
      rw [List.mem_append]
      exact not_or.mpr ⟨by decide, percent_notMem (hargs arg (List.mem_of_mem_drop harg))⟩
    show bares (Text.ofString "%!" ++ (Text.ofString "(EXTRA " ++ _ ++ Text.ofString ")")) = 0
    refine bares_note ?_
    simp only [List.mem_append, not_or]
    exact ⟨⟨by decide, hjoin⟩, by decide⟩
  · rfl

/-- What is written for a percent sign, and what follows, shows no more percent signs than what stands
behind the sign, if that holds of what follows. -/
theorem bares_directive_append_le (hargs : ∀ arg ∈ args, IsNamed arg) (next : Nat)
    (reordered : Bool) (q : Text) {filled : Text}
    (hfilled : bares filled ≤ bares (directive args next reordered q).2.2)
    (hmark : (directive args next reordered q).2.2.head? = some '!'.toUInt8 →
      filled.head? = some '!'.toUInt8) :
    bares ((directive args next reordered q).1 ++ filled) ≤ bares q := by
  rcases directive_spec hargs next reordered q with
    ⟨hwritten, hrest⟩ | ⟨notes, hwritten, hnotes, hrest⟩
  · have hparts := bares_append_le (directive args next reordered q).1 filled
    have hbehind := bares_suffix_le hrest
    omega
  · rw [hwritten, List.append_assoc]
    have hparts := bares_append_le notes ('%'.toUInt8 :: filled)
    have hbehind := bares_suffix_le hrest
    rw [bares_cons] at hbehind
    rw [bares_cons] at hparts
    refine hparts.trans ?_
    rw [hnotes, Nat.zero_add]
    refine Nat.le_trans (Nat.add_le_add ?_ hfilled) hbehind
    by_cases hhead : filled.head? = some '!'.toUInt8
    · rw [if_neg fun h => h.2 hhead]
      exact Nat.zero_le _
    · rw [if_pos ⟨rfl, hhead⟩, if_pos ⟨rfl, mt hmark hhead⟩]

theorem head?_fillFrom {fuel : Nat} {t : Text} {b : UInt8} (hfuel : t.length < fuel)
    (hb : b ≠ '%'.toUInt8) (h : t.head? = some b) (next : Nat) (reordered : Bool) :
    (fillFrom args fuel next reordered t).head? = some b := by
  obtain ⟨fuel, rfl⟩ : ∃ n, fuel = n + 1 := ⟨fuel - 1, by omega⟩
  obtain ⟨rest, rfl⟩ := List.head?_eq_some_iff.mp h
  have hplain : '%'.toUInt8 ∉ ([b] : Text) := by simpa using hb.symm
  have hkept := fillFrom_keep hplain args fuel next reordered rest
  rw [List.singleton_append] at hkept
  rw [hkept]
  rfl

/-- What is filled in shows no more percent signs than the pattern. -/
theorem bares_fillFrom_le (hargs : ∀ arg ∈ args, IsNamed arg) {fuel : Nat} {t : Text}
    (hfuel : t.length < fuel) (next : Nat) (reordered : Bool) :
    bares (fillFrom args fuel next reordered t) ≤ bares t := by
  induction fuel generalizing t next reordered with
  | zero => exact absurd hfuel (Nat.not_lt_zero _)
  | succ fuel ih =>
    by_cases hpercent : '%'.toUInt8 ∈ t
    · obtain ⟨plain, q, rfl, hplain⟩ := List.eq_append_cons_of_mem hpercent
      rw [fillFrom_keep hplain, bares_plain_append hplain, bares_plain_append hplain,
        fillFrom_percent]
      have hshorter : (directive args next reordered q).2.2.length < fuel := by
        have hle := (rest_suffix hargs next reordered q).length_le
        rw [List.length_append, List.length_cons] at hfuel
        omega
      refine (bares_directive_append_le hargs next reordered q (ih hshorter _ _) fun hhead =>
        head?_fillFrom hshorter (by decide) hhead _ _).trans ?_
      rw [bares_cons]
      omega
    · have hkept := fillFrom_keep hpercent args fuel next reordered []
      rw [List.append_nil] at hkept
      rw [hkept, bares_plain_append hpercent, bares_fillFrom_nil hargs]
      exact Nat.zero_le _

/-- A missing argument is noted by what asked for it. -/
theorem directive_mark (hnext : args.length ≤ next) (rest : Text) :
    directive args next false ('!'.toUInt8 :: rest) =
      (Text.ofString "%!!(MISSING)", { next }, rest) := by
  have hread : directive args next false ('!'.toUInt8 :: rest) =
      match args[next]? with
      | none => (Text.ofString "%!!(MISSING)", { next }, rest)
      | some arg => (argument {} "!" arg, { next := next + 1 }, rest) := rfl
  rw [hread, List.getElem?_eq_none hnext]

/-- No text is the end of such a note followed by what is filled in for the text. -/
theorem ne_note_append {fuel : Nat} (args : List Text) (next : Nat) (r : Text) :
    r ≠ Text.ofString "!(MISSING)" ++ fillFrom args (fuel + 1) next false r := by
  induction hlength : r.length using Nat.strongRecOn generalizing r with
  | ind n ih =>
    intro h
    obtain ⟨r', rfl⟩ : ∃ r', r = Text.ofString "!(MISSING)" ++ r' := ⟨_, h⟩
    rw [fillFrom_keep (by decide)] at h
    refine ih r'.length ?_ r' rfl (List.append_cancel_left h)
    rw [← hlength, List.length_append, show (Text.ofString "!(MISSING)").length = 10 from rfl]
    omega

/-- Behind the last argument a text is filled in as it is exactly if no percent sign stands in it. -/
theorem fillFrom_eq_self_iff (hargs : ∀ arg ∈ args, IsNamed arg) (hnext : args.length ≤ next)
    {fuel : Nat} {t : Text} (hfuel : t.length < fuel) :
    fillFrom args fuel next false t = t ↔ '%'.toUInt8 ∉ t := by
  obtain ⟨fuel, rfl⟩ : ∃ n, fuel = n + 1 := ⟨fuel - 1, by omega⟩
  constructor
  · intro hsame hpercent
    obtain ⟨plain, q, rfl, hplain⟩ := List.eq_append_cons_of_mem hpercent
    rw [List.length_append, List.length_cons] at hfuel
    rw [fillFrom_keep hplain, fillFrom_percent] at hsame
    have hbehind := List.append_cancel_left hsame
    by_cases hhead : q.head? = some '!'.toUInt8
    · -- the note for the missing argument would have to be there already
      obtain ⟨r, rfl⟩ := List.head?_eq_some_iff.mp hhead
      rw [directive_mark hnext] at hbehind
      rw [List.length_cons] at hfuel
      obtain ⟨fuel, rfl⟩ : ∃ n, fuel = n + 1 := ⟨fuel - 1, by omega⟩
      have hnote := @List.append_cancel_left UInt8 (Text.ofString "%!") _ _ hbehind
      exact ne_note_append args next r hnote.symm
    · have hshorter : (directive args next false q).2.2.length < fuel := by
        have hle := (rest_suffix hargs next false q).length_le
        omega
      have hle : bares ('%'.toUInt8 :: q) ≤ bares q := by
        rw [← hbehind]
        exact bares_directive_append_le hargs next false q (bares_fillFrom_le hargs hshorter _ _)
          fun hmark => head?_fillFrom hshorter (by decide) hmark _ _
      rw [bares_cons, if_pos ⟨rfl, hhead⟩] at hle
      omega
  · intro hplain
    have hkept := fillFrom_keep hplain args fuel next false []
    have hend : fillFrom args (fuel + 1) next false [] = [] := by
      rw [fillFrom_nil, if_neg]
      simpa using hnext
    rwa [List.append_nil, hend, List.append_nil] at hkept

/-- A pattern of a call is filled in up to its second argument; no argument is left for what follows. -/
theorem fill_call {method : Text} (hmethod : '%'.toUInt8 ∉ method) (target arg rest : Text) :
    ∃ fuel, rest.length < fuel ∧ fill ("%s." ++ method ++ "(%s" ++ rest) [target, arg] =
      target ++ "." ++ method ++ "(" ++ arg ++ fillFrom [target, arg] fuel 2 false rest := by
  have hpattern : Text.ofString "%s." ++ method ++ Text.ofString "(%s" ++ rest =
      [] ++ '%'.toUInt8 :: 's'.toUInt8 :: (Text.ofString "." ++ method ++ Text.ofString "(" ++
        '%'.toUInt8 :: 's'.toUInt8 :: rest) := by
    simp only [List.append_assoc]
    rfl
  have hplain : '%'.toUInt8 ∉ Text.ofString "." ++ method ++ Text.ofString "(" := by
    simp only [List.mem_append, not_or]
    exact ⟨⟨by decide, hmethod⟩, by decide⟩
  unfold fill
  generalize hlength : (Text.ofString "%s." ++ method ++ Text.ofString "(%s" ++ rest).length = n
  obtain ⟨fuel, rfl⟩ : ∃ fuel, n = fuel + 1 := ⟨n - 1, by
    rw [hpattern] at hlength
    simp only [List.nil_append, List.length_cons] at hlength
    omega⟩
  refine ⟨fuel, ?_, ?_⟩
  · rw [hpattern] at hlength
    simp only [List.nil_append, List.length_cons, List.length_append] at hlength
    omega
  · rw [hpattern, fillFrom_directive (by simp) rfl, fillFrom_directive hplain rfl]
    simp only [List.nil_append, List.append_assoc]

/-- A pattern that calls a method with its second argument and a text in front of the closing bracket
becomes the call with just that text exactly if no percent sign stands in the text. -/
theorem fill_call_iff {method target arg : Text} (hmethod : '%'.toUInt8 ∉ method)
    (htarget : IsNamed target) (harg : IsNamed arg) (x : Text) :
    fill ("%s." ++ method ++ "(%s, " ++ x ++ ")") [target, arg] =
      target ++ "." ++ method ++ "(" ++ arg ++ ", " ++ x ++ ")" ↔ '%'.toUInt8 ∉ x := by
  have hargs : ∀ name ∈ [target, arg], IsNamed name := by
    simpa using ⟨htarget, harg⟩
  have hcomma : Text.ofString "(%s, " = Text.ofString "(%s" ++ Text.ofString ", " := rfl
  obtain ⟨fuel, hfuel, hfill⟩ := fill_call hmethod target arg (Text.ofString ", " ++ x ++ ")")
  have hpercent : '%'.toUInt8 ∉ Text.ofString ", " ++ x ++ ")" ↔ '%'.toUInt8 ∉ x := by
    simp only [List.mem_append, not_or]
    exact ⟨fun h => h.1.2, fun h => ⟨⟨by decide, h⟩, by decide⟩⟩
  rw [← hpercent, ← fillFrom_eq_self_iff hargs (Nat.le_refl 2) hfuel]
  simp only [hcomma, List.append_assoc] at hfill ⊢
  rw [hfill]
  simp only [List.append_cancel_left_eq]

/-- A pattern that calls a method with its second argument in front becomes such a call. -/
theorem fill_argument {method tail : Text} {b : UInt8} (hmethod : '%'.toUInt8 ∉ method)
    (hb : b ≠ '%'.toUInt8) (target arg : Text) :
    ∃ rest, fill ("%s." ++ method ++ "(%s" ++ b :: tail) [target, arg] =
      target ++ "." ++ method ++ "(" ++ arg ++ b :: rest := by
  have hlast : '%'.toUInt8 ∉ [b] := by simpa using hb.symm
  obtain ⟨fuel, hfuel, hfill⟩ := fill_call hmethod target arg (b :: tail)
  obtain ⟨fuel, rfl⟩ : ∃ n, fuel = n + 1 := ⟨fuel - 1, by omega⟩
  have hkept := fillFrom_keep hlast [target, arg] fuel 2 false tail
  rw [List.singleton_append] at hkept
  rw [hfill, hkept]
  exact ⟨_, rfl⟩

end Pattern

end ViewBinder
