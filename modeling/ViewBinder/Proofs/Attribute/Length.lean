-- Lengths. A length is a number and a unit with white space around and between them. The two compete
-- for letters, since an exponent and some units begin with the same one: an exponent needs digits
-- behind its mark, and nothing of a unit or of white space is a digit, so there is one way only to
-- read a length.
import ViewBinder.Proofs.Attribute.Braces
import ViewBinder.Proofs.Attribute.NumberRun

namespace ViewBinder

namespace Attribute

/-! ## What lengths are made of -/

/-- A letter of a unit as the table of units has it. -/
def smallLetter (b : UInt8) : UInt8 := if Text.isUpperByte b then b + 32 else b

/-- The constant for a unit, in whatever case its letters are; a length without one is in pixels. -/
def IsUnit (u ident : Text) : Prop := u = [] ∧ ident = "UnitPX" ∨ (u.map smallLetter, ident) ∈ units

/-- The value is a number and a unit, with white space around and between. -/
inductive IsLength : Text → Text → Text → Prop
  | mk {before n between u after : Text} : before.all isGap = true → IsNumber n →
      between.all isGap = true → after.all isGap = true →
      IsLength (before ++ (n ++ (between ++ (u ++ after)))) n u

theorem quiet_of_gap : ∀ b : UInt8, isGap b = true →
    isQuietByte b = true ∧ isUnitByte b = false ∧ Number.isExponentMark b = false := by
  refine Text.forall_byte ?_
  decide

theorem quiet_of_unit : ∀ b : UInt8, isUnitByte b = true →
    isQuietByte b = true ∧ isGap b = false ∧ b < 0x80 ∧ Text.isSpace b.toNat = false := by
  refine Text.forall_byte ?_
  decide

/-! ## The bytes of numbers and units -/

theorem bytes_of_isNumber {n : Text} (h : IsNumber n) : n ≠ [] ∧ ∀ b ∈ n,
    isGap b = false ∧ b ≠ Segment.openBrace ∧ b < 0x80 ∧ Text.isSpace b.toNat = false := by
  have hbytes : ∀ b : UInt8, (Text.isDigitByte b || isSignByte b || Number.isExponentMark b ||
      b == '.'.toUInt8) = true → isGap b = false ∧ b ≠ Segment.openBrace ∧ b < 0x80 ∧
        Text.isSpace b.toNat = false := by
    refine Text.forall_byte ?_
    decide
  have hsigns : ∀ {sign : Text}, IsSign sign → ∀ b ∈ sign, isSignByte b = true := by
    intro sign hsign b hb
    cases hsign with
    | none => cases hb
    | some hc => rwa [List.mem_singleton.mp hb]
  obtain ⟨hsign, hwhole, hpoint, hne, hdigits, hexponent⟩ := h
  rename_i sign whole point digits exponent
  refine ⟨by simp [hne], fun b hb => hbytes b ?_⟩
  simp only [Bool.or_eq_true, beq_iff_eq]
  simp only [List.mem_append] at hb
  rcases hb with hb | hb | hb | hb | hb
  · exact .inl (.inl (.inr (hsigns hsign b hb)))
  · exact .inl (.inl (.inl (List.all_eq_true.mp hwhole b hb)))
  · rcases hpoint with rfl | rfl
    · cases hb
    · exact .inr (List.mem_singleton.mp hb)
  · exact .inl (.inl (.inl (List.all_eq_true.mp hdigits b hb)))
  · cases hexponent with
    | none => cases hb
    | some hmark hsign' _ hdigits' =>
      simp only [List.mem_cons, List.mem_append] at hb
      rcases hb with rfl | hb | hb
      · exact .inl (.inr hmark)
      · exact .inl (.inl (.inr (hsigns hsign' b hb)))
      · exact .inl (.inl (.inl (List.all_eq_true.mp hdigits' b hb)))

theorem trim_of_isNumber {n : Text} (h : IsNumber n) : Text.trim n = n :=
  Text.trim_of_dark fun b hb => ((bytes_of_isNumber h).2 b hb).2.2

theorem trim_of_unit {u : Text} (h : u.all isUnitByte = true) : Text.trim u = u :=
  Text.trim_of_dark fun b hb => (quiet_of_unit b (List.all_eq_true.mp h b hb)).2.2

/-- In lower case the letters of a unit are small. -/
theorem toLower_of_unit {u : Text} (h : u.all isUnitByte = true) :
    Text.toLower u = u.map smallLetter := by
  have hletter : ∀ b : UInt8, isUnitByte b = true →
      Text.encodeRune (Text.lowerCode b.toNat) = [smallLetter b] := by
    refine Text.forall_byte ?_
    decide
  have hascii : ∀ b ∈ u, b < 0x80 := fun b hb =>
    (quiet_of_unit b (List.all_eq_true.mp h b hb)).2.2.1
  unfold Text.toLower
  rw [Text.runes_ascii u hascii, List.flatMap_map]
  induction u with
  | nil => rfl
  | cons b u ih =>
    simp only [List.all_cons, Bool.and_eq_true] at h
    rw [List.flatMap_cons, ih h.2 fun c hc => hascii c (List.mem_cons_of_mem b hc), hletter b h.1]
    rfl

theorem lookup_units_iff {name ident : Text} :
    units.lookup name = some ident ↔ (name, ident) ∈ units := by
  constructor
  · intro h
    obtain ⟨before, after, hunits, -⟩ := List.lookup_eq_some_iff.mp h
    rw [hunits]
    exact List.mem_append_right before List.mem_cons_self
  · intro h
    have hfirst : ∀ entry ∈ units, units.lookup entry.1 = some entry.2 := by decide
    exact hfirst _ h

/-- A unit is made of letters of units, so it is none of what numbers are made of. -/
theorem bytes_of_isUnit {u ident : Text} (h : IsUnit u ident) : u.all isUnitByte = true := by
  have hsmall : ∀ b : UInt8, isUnitByte (smallLetter b) = true → isUnitByte b = true := by
    refine Text.forall_byte ?_
    decide
  have hnames : ∀ entry ∈ units, entry.1.all isUnitByte = true := by decide
  rcases h with ⟨rfl, -⟩ | h
  · rfl
  · have hall := hnames _ h
    rw [List.all_map] at hall
    exact List.all_eq_true.mpr fun b hb => hsmall b (List.all_eq_true.mp hall b hb)

/-! ## The parts of a length -/

/-- The text stands in braces, which close at its end. -/
def IsBraced (x : Text) : Prop :=
  ∃ inner, x = Segment.openBrace :: (inner ++ [Segment.closeBrace]) ∧ Segment.closeBrace ∉ inner

theorem braces?_eq_none {t : Text} (h : ∀ b ∈ t.head?, b ≠ Segment.openBrace) :
    braces? t = none := by
  have hopen : Text.ofString "\x7b" = [Segment.openBrace] := rfl
  cases t with
  | nil => rfl
  | cons b t =>
    have hb : (Segment.openBrace == b) = false := beq_eq_false_iff_ne.mpr (Ne.symm (h b rfl))
    unfold braces?
    rw [hopen, Text.startsWith_one, hb]
    simp

theorem isBraced_of_braces? {t x rest : Text} (h : braces? t = some (x, rest)) :
    IsBraced x ∧ t = x ++ rest := by
  have hopen : Text.ofString "\x7b" = [Segment.openBrace] := rfl
  unfold braces? at h
  cases t with
  | nil => cases h
  | cons b t =>
    rw [hopen, Text.startsWith_one] at h
    split at h
    · rename_i hb
      obtain rfl := beq_iff_eq.mp hb
      obtain ⟨n, hn, hparts⟩ := Option.map_eq_some_iff.mp h
      obtain ⟨rfl, rfl⟩ := Prod.mk.inj hparts
      obtain ⟨hlt, hat, hbefore⟩ := List.idxOf?_eq_some_iff.mp hn
      cases n with
      | zero =>
        have hsame : Segment.openBrace = Segment.closeBrace := hat
        exact absurd hsame (by decide)
      | succ n =>
        have hlt : n < t.length := Nat.lt_of_succ_lt_succ hlt
        refine ⟨⟨t.take n, ?_, fun hmem => ?_⟩, (List.take_append_drop _ _).symm⟩
        · have hlast : t[n] = Segment.closeBrace := hat
          rw [List.take_succ_cons, ← hlast, List.take_append_getElem]
        · obtain ⟨j, hj, hfound⟩ := List.mem_take_iff_getElem.mp hmem
          refine hbefore (j + 1) (by omega) ?_
          simpa using hfound
    · cases h

/-- What stands for the number at the front, and the rest. -/
def numberPart? (t : Text) : Option (Text × Text) := braces? t <|> numberRun? t

/-- What stands for the unit at the front, and the rest. -/
def unitPart (t : Text) : Text × Text :=
  match braces? t with
  | some parts => parts
  | none => (t.takeWhile isUnitByte, t.dropWhile isUnitByte)

theorem lengthParts?_eq (value : Text) : lengthParts? value =
    (numberPart? (value.dropWhile isGap)).bind fun parts =>
      let unit := unitPart (parts.2.dropWhile isGap)
      if (unit.2.dropWhile isGap).isEmpty then some (parts.1, unit.1) else none := rfl

theorem shape_of_numberPart? {t n rest : Text} (h : numberPart? t = some (n, rest)) :
    (IsNumber n ∨ IsBraced n) ∧ t = n ++ rest := by
  unfold numberPart? at h
  cases hbraces : braces? t with
  | some parts =>
    rw [hbraces] at h
    obtain rfl : parts = (n, rest) := Option.some.inj h
    exact (isBraced_of_braces? hbraces).imp_left .inr
  | none =>
    rw [hbraces] at h
    exact (isNumber_of_numberRun? h).imp_left .inl

theorem shape_of_unitPart (t : Text) :
    ((unitPart t).1.all isUnitByte = true ∨ IsBraced (unitPart t).1) ∧
      t = (unitPart t).1 ++ (unitPart t).2 := by
  unfold unitPart
  split
  · rename_i parts hbraces
    exact (isBraced_of_braces? hbraces).imp_left .inr
  · exact ⟨.inl List.all_takeWhile, List.takeWhile_append_dropWhile.symm⟩

theorem quiet_append {between u after : Text} (hbetween : between.all isGap = true)
    (hu : u.all isUnitByte = true) (hafter : after.all isGap = true) :
    (between ++ (u ++ after)).all isQuietByte = true := by
  have hgaps : ∀ t : Text, t.all isGap = true → t.all isQuietByte = true := fun t ht =>
    List.all_eq_true.mpr fun b hb => (quiet_of_gap b (List.all_eq_true.mp ht b hb)).1
  have hunit : u.all isQuietByte = true :=
    List.all_eq_true.mpr fun b hb => (quiet_of_unit b (List.all_eq_true.mp hu b hb)).1
  rw [List.all_append, List.all_append, hgaps between hbetween, hunit, hgaps after hafter]
  rfl

/-- Behind white space stand the letters of the unit, and then white space up to the end. -/
theorem unit_of_rest {between u after : Text} (hbetween : between.all isGap = true)
    (hu : u.all isUnitByte = true) (hafter : after.all isGap = true) :
    let rest := (between ++ (u ++ after)).dropWhile isGap
    rest.takeWhile isUnitByte = u ∧ (rest.dropWhile isUnitByte).dropWhile isGap = [] := by
  have hdrop : (between ++ (u ++ after)).dropWhile isGap = (u ++ after).dropWhile isGap :=
    List.dropWhile_append_of_pos (List.all_eq_true.mp hbetween)
  have hnone : after.dropWhile isGap = [] :=
    List.dropWhile_eq_nil_iff.mpr (List.all_eq_true.mp hafter)
  rw [hdrop]
  cases u with
  | nil =>
    rw [List.nil_append, hnone]
    exact ⟨rfl, rfl⟩
  | cons b u =>
    have hb : isGap b = false := (quiet_of_unit b (List.all_eq_true.mp hu b List.mem_cons_self)).2.1
    have hend : ∀ c ∈ after.head?, isUnitByte c = false := fun c hc =>
      (quiet_of_gap c (List.all_eq_true.mp hafter c (List.mem_of_mem_head? hc))).2.1
    have hself : (b :: u ++ after).dropWhile isGap = b :: u ++ after :=
      dropWhile_eq_self fun c hc => by
        obtain rfl := Option.some.inj hc
        exact hb
    dsimp only
    rw [hself, takeWhile_run hu hend, dropWhile_run hu hend]
    exact ⟨rfl, hnone⟩

/-- A number with a unit, and white space where it may stand, is taken apart. -/
theorem lengthParts?_of_isLength {value n u : Text} (h : IsLength value n u)
    (hu : u.all isUnitByte = true) : lengthParts? value = some (n, u) := by
  obtain ⟨hbefore, hn, hbetween, hafter⟩ := h
  rename_i before between after
  obtain ⟨hne, hbytes⟩ := bytes_of_isNumber hn
  have hquiet := quiet_append hbetween hu hafter
  obtain ⟨hunit, hend⟩ := unit_of_rest hbetween hu hafter
  have hhead : ∀ b ∈ (n ++ (between ++ (u ++ after))).head?, b ∈ n := by
    intro b hb
    cases n with
    | nil => exact absurd rfl hne
    | cons c n =>
      obtain rfl := Option.some.inj hb
      exact List.mem_cons_self
  have hnumber : numberPart? (n ++ (between ++ (u ++ after))) = some (n, between ++ (u ++ after)) := by
    unfold numberPart?
    rw [braces?_eq_none fun b hb => (hbytes b (hhead b hb)).2.1]
    exact numberRun?_append hn hquiet
  have hplain : braces? ((between ++ (u ++ after)).dropWhile isGap) = none := by
    refine braces?_eq_none fun b hb => (bytes_of_quiet ?_).2.2.2
    have hmem := (List.dropWhile_sublist isGap).subset (List.mem_of_mem_head? hb)
    exact List.all_eq_true.mp hquiet b hmem
  rw [lengthParts?_eq, dropWhile_run hbefore fun b hb => (hbytes b (hhead b hb)).1, hnumber]
  unfold unitPart
  rw [Option.bind_some, hplain]
  dsimp only
  rw [hend, hunit]
  rfl

example : lengthParts? " 1e1Em " = some (Text.ofString "1e1", Text.ofString "Em") := by decide

/-- What is taken apart is a number or something in braces, with a unit or something in braces behind
it. -/
theorem parts_of_lengthParts? {value n u : Text} (h : lengthParts? value = some (n, u)) :
    (∃ before between after : Text, before.all isGap = true ∧ between.all isGap = true ∧
      after.all isGap = true ∧ value = before ++ (n ++ (between ++ (u ++ after)))) ∧
    (IsNumber n ∨ IsBraced n) ∧ (u.all isUnitByte = true ∨ IsBraced u) := by
  rw [lengthParts?_eq] at h
  obtain ⟨⟨number, rest⟩, hnumber, h⟩ := Option.bind_eq_some_iff.mp h
  dsimp only at h
  obtain ⟨hn, hfront⟩ := shape_of_numberPart? hnumber
  obtain ⟨hu, hback⟩ := shape_of_unitPart (rest.dropWhile isGap)
  split at h
  · rename_i hend
    obtain ⟨rfl, rfl⟩ := Prod.mk.inj (Option.some.inj h)
    have hafter := List.dropWhile_eq_nil_iff.mp (List.isEmpty_iff.mp hend)
    refine ⟨⟨value.takeWhile isGap, rest.takeWhile isGap, _, List.all_takeWhile,
      List.all_takeWhile, List.all_eq_true.mpr hafter, ?_⟩, hn, hu⟩
    rw [← hback, List.takeWhile_append_dropWhile, ← hfront, List.takeWhile_append_dropWhile]
  · cases h

/-! ## What is made of a length -/

variable {d d' : Draft} {e : Nat} {value expr : Text} {float unit : TypeId}

/-- The constant for the letters of a unit is looked up in lower case. -/
theorem isUnit_iff {u ident : Text} (h : u.all isUnitByte = true) :
    IsUnit u ident ↔
      (if u.isEmpty then some (Text.ofString "UnitPX") else units.lookup (Text.toLower u)) =
        some ident := by
  have hnames : ∀ entry ∈ units, entry.1 ≠ [] := by decide
  unfold IsUnit
  rw [toLower_of_unit h]
  cases u with
  | nil =>
    constructor
    · rintro (⟨-, rfl⟩ | hmem)
      · rfl
      · exact absurd rfl (hnames _ hmem)
    · intro hident
      exact .inl ⟨rfl, (Option.some.inj hident).symm⟩
  | cons b u => simp [lookup_units_iff]

theorem isSingleReference_of_unit {u : Text} (h : u.all isUnitByte = true) :
    Segment.isSingleReference u = false := by
  have hclose : isUnitByte Segment.closeBrace = false := by decide
  by_contra hsingle
  rw [Bool.not_eq_false] at hsingle
  have hmem := Segment.closeBrace_mem hsingle
  rw [trim_of_unit h] at hmem
  rw [List.all_eq_true.mp h _ hmem] at hclose
  cases hclose

theorem parse_numeric_of_literal {n literal : Text} (hn : IsNumber n)
    (h : Number.literal? (d.catalog.decl float).name n = some literal) :
    (parse (.numeric float) e n).runOn d = (.ok literal, d) := by
  have hfull : (Text.trim n).isEmpty = false := by
    rw [trim_of_isNumber hn, List.isEmpty_eq_false_iff]
    exact (bytes_of_isNumber hn).1
  unfold parse
  rw [Work.runOn_bind, Work.runOn_get]
  simp only [hfull, h]
  rfl

/-- A length is made into the literal of its number and the constant of its unit. -/
theorem parse_length_of_isLength {n u literal ident : Text} (h : IsLength value n u)
    (hliteral : Number.literal? (d.catalog.decl float).name n = some literal)
    (hident : IsUnit u ident) :
    (parse (.length (.numeric float) unit) e value).runOn d =
      (.ok (literal ++ ", " ++ (d.imports.qualify (d.catalog.decl unit) ident).1),
        { d with imports := (d.imports.qualify (d.catalog.decl unit) ident).2 }) := by
  have hu := bytes_of_isUnit hident
  have hn : IsNumber n := by
    obtain ⟨-, hn, -, -⟩ := h
    exact hn
  have hlookup := (isUnit_iff hu).mp hident
  unfold parse
  rw [Work.runOn_bind, Work.runOn_get]
  simp only [lengthParts?_of_isLength h hu, trim_of_unit hu, isSingleReference_of_unit hu]
  rw [Work.runOn_bind, parse_numeric_of_literal hn hliteral]
  dsimp only
  split at hlookup
  · rename_i hempty
    obtain rfl := Option.some.inj hlookup
    simp only [hempty]
    rfl
  · rename_i hfull
    simp only [hfull, hlookup]
    rfl

theorem openBrace_notMem_gaps {t : Text} (h : t.all isGap = true) : Segment.openBrace ∉ t := by
  intro hmem
  have hquiet := (quiet_of_gap _ (List.all_eq_true.mp h _ hmem)).1
  exact (bytes_of_quiet hquiet).2.2.2 rfl

theorem hasReference_of_notMem {t : Text} (h : Segment.openBrace ∉ t) :
    Segment.hasReference t = false := by
  by_cases hnil : t = []
  · rw [hnil]
    rfl
  · unfold Segment.hasReference
    rw [Segment.split_literal hnil h]
    rfl

theorem openBrace_notMem_number {n : Text} (h : IsNumber n) : Segment.openBrace ∉ n := by
  intro hmem
  exact ((bytes_of_isNumber h).2 _ hmem).2.1 rfl

/-- No reference stands in a length. -/
theorem hasReference_of_isLength {n u : Text} (h : IsLength value n u)
    (hu : u.all isUnitByte = true) : Segment.hasReference value = false := by
  obtain ⟨hbefore, hn, hbetween, hafter⟩ := h
  refine hasReference_of_notMem ?_
  simp only [List.mem_append, not_or]
  refine ⟨openBrace_notMem_gaps hbefore, openBrace_notMem_number hn,
    openBrace_notMem_gaps hbetween, fun hmem => ?_, openBrace_notMem_gaps hafter⟩
  exact (bytes_of_quiet (quiet_of_unit _ (List.all_eq_true.mp hu _ hmem)).1).2.2.2 rfl

/-- What is read as one reference has single braces. -/
theorem hasReference_of_isSingleReference {front x back : Text}
    (hfront : Segment.openBrace ∉ front) (hx : IsBraced x)
    (h : Segment.isSingleReference x = true) : Segment.hasReference (front ++ (x ++ back)) = true := by
  obtain ⟨inner, rfl, hclose⟩ := hx
  have hopen : inner.head? ≠ some Segment.openBrace := by
    intro hdouble
    obtain ⟨more, rfl⟩ := List.head?_eq_some_iff.mp hdouble
    unfold Segment.isSingleReference at h
    rw [Text.trim_enclosed (by decide) (by decide) (by decide) (by decide), List.cons_append,
      Segment.split_double] at h
    split at h
    · rename_i path hsplit
      exact Segment.addByte_ne_reference _ _ _ hsplit
    · cases h
  have hread := Segment.hasReference_append_braced hfront hclose hopen back
  simpa using hread

/-- The name of no unit begins with a brace, whatever its case. -/
theorem lookup_units_braced {x : Text} (h : IsBraced x) : units.lookup (Text.toLower x) = none := by
  obtain ⟨inner, rfl, -⟩ := h
  have hnames : ∀ entry ∈ units, entry.1.head? ≠ some Segment.openBrace := by decide
  have hascii : Segment.openBrace < 0x80 := by decide
  rw [List.lookup_eq_none_iff]
  intro entry hentry
  rw [bne_iff_ne]
  intro hname
  refine hnames entry hentry ?_
  unfold Text.toLower at hname
  rw [← hname, Text.runes_ascii_cons hascii]
  rfl

/-- A number is given by its literal or by a reference. -/
theorem parse_numeric_ok {x : Text}
    (h : (parse (.numeric float) e x).runOn d = (.ok expr, d')) :
    (∃ literal, Number.literal? (d.catalog.decl float).name x = some literal) ∨
      Segment.isSingleReference x = true := by
  unfold parse at h
  obtain ⟨_, _, hget, h⟩ := Work.bind_ok h
  cases hget
  dsimp only at h
  split at h
  · cases h
  · split at h
    · rename_i literal hliteral
      exact .inl ⟨literal, hliteral⟩
    · exact .inr (isSingleReference_of_ok h)

/-- Without a reference in the value, what is accepted for the number is one that has a literal. -/
theorem isNumber_of_parse {before n rest : Text} (hbefore : before.all isGap = true)
    (hplain : Segment.hasReference (before ++ (n ++ rest)) = false) (hn : IsNumber n ∨ IsBraced n)
    (h : (parse (.numeric float) e n).runOn d = (.ok expr, d')) :
    IsNumber n ∧ ∃ literal, Number.literal? (d.catalog.decl float).name n = some literal := by
  rcases hn with hn | hbraced
  · rcases parse_numeric_ok h with hliteral | hsingle
    · exact ⟨hn, hliteral⟩
    · have hnone := Segment.isSingleReference_of_plain
        (hasReference_of_notMem (openBrace_notMem_number hn))
      rw [hsingle] at hnone
      cases hnone
  · exfalso
    rcases parse_numeric_ok h with ⟨literal, hliteral⟩ | hsingle
    · obtain ⟨inner, rfl, -⟩ := hbraced
      rw [literal?_brace] at hliteral
      cases hliteral
    · rw [hasReference_of_isSingleReference (openBrace_notMem_gaps hbefore) hbraced hsingle] at hplain
      cases hplain

/-- Without a reference in the value, nothing in braces stands for a unit. -/
theorem not_unit_of_braced {front u back : Text} (hfront : Segment.openBrace ∉ front)
    (hplain : Segment.hasReference (front ++ (u ++ back)) = false) (hbraced : IsBraced u) :
    (Text.trim u).isEmpty = false ∧ Segment.isSingleReference (Text.trim u) = false ∧
      units.lookup (Text.toLower (Text.trim u)) = none := by
  have htrim : Text.trim u = u := by
    obtain ⟨inner, rfl, -⟩ := hbraced
    exact Text.trim_enclosed (by decide) (by decide) (by decide) (by decide) inner
  rw [htrim]
  refine ⟨?_, ?_, lookup_units_braced hbraced⟩
  · obtain ⟨inner, rfl, -⟩ := hbraced
    rfl
  · by_contra hsingle
    rw [Bool.not_eq_false] at hsingle
    rw [hasReference_of_isSingleReference hfront hbraced hsingle] at hplain
    cases hplain

/-- What is accepted without a reference is a length. -/
theorem isLength_of_parse (hplain : Segment.hasReference value = false)
    (h : (parse (.length (.numeric float) unit) e value).runOn d = (.ok expr, d')) :
    ∃ n u literal ident, IsLength value n u ∧
      Number.literal? (d.catalog.decl float).name n = some literal ∧ IsUnit u ident := by
  unfold parse at h
  obtain ⟨_, _, hget, h⟩ := Work.bind_ok h
  cases hget
  dsimp only at h
  split at h
  · cases h
  · rename_i n u hparts
    obtain ⟨⟨before, between, after, hbefore, hbetween, hafter, rfl⟩, hn, hu⟩ :=
      parts_of_lengthParts? hparts
    obtain ⟨number, d₁, hnumber, h⟩ := Work.bind_ok h
    obtain ⟨hn, literal, hliteral⟩ := isNumber_of_parse hbefore hplain hn hnumber
    rcases hu with hu | hbraced
    · have hident : ∃ ident, IsUnit u ident := by
        simp only [isUnit_iff hu]
        rw [trim_of_unit hu, isSingleReference_of_unit hu] at h
        by_cases hempty : u.isEmpty = true
        · exact ⟨_, if_pos hempty⟩
        · cases hlookup : units.lookup (Text.toLower u) with
          | some ident => exact ⟨ident, if_neg hempty⟩
          | none =>
            rw [if_neg hempty, hlookup] at h
            cases h
      obtain ⟨ident, hident⟩ := hident
      exact ⟨n, u, literal, ident, .mk hbefore hn hbetween hafter, hliteral, hident⟩
    · have hfront : Segment.openBrace ∉ before ++ (n ++ between) := by
        simp only [List.mem_append, not_or]
        exact ⟨openBrace_notMem_gaps hbefore, openBrace_notMem_number hn,
          openBrace_notMem_gaps hbetween⟩
      have hshape : before ++ (n ++ (between ++ (u ++ after))) =
          before ++ (n ++ between) ++ (u ++ after) := by simp
      obtain ⟨hfull, hnone, hlookup⟩ := not_unit_of_braced hfront (hshape ▸ hplain) hbraced
      simp only [hfull, hnone, hlookup] at h
      cases h

/-- A value without references is accepted as a length exactly if it is a number that has a literal
and a unit, in letters of any case, with white space around and between; it is made into that literal
and the constant of the unit. A value is such a length in one way only. -/
theorem lengths_are_numbers_with_units :
    (Segment.hasReference value = false ∧
        (parse (.length (.numeric float) unit) e value).runOn d = (.ok expr, d') ↔
      ∃ n u literal ident, IsLength value n u ∧
        Number.literal? (d.catalog.decl float).name n = some literal ∧ IsUnit u ident ∧
        expr = literal ++ ", " ++ (d.imports.qualify (d.catalog.decl unit) ident).1 ∧
        d' = { d with imports := (d.imports.qualify (d.catalog.decl unit) ident).2 }) ∧
    ∀ n u ident n' u' ident', IsLength value n u → IsUnit u ident → IsLength value n' u' →
      IsUnit u' ident' → n = n' ∧ u = u' ∧ ident = ident' := by
  refine ⟨⟨?_, ?_⟩, ?_⟩
  · rintro ⟨hplain, hparse⟩
    obtain ⟨n, u, literal, ident, hlength, hliteral, hident⟩ := isLength_of_parse hplain hparse
    rw [parse_length_of_isLength hlength hliteral hident] at hparse
    obtain ⟨hexpr, hstate⟩ := Prod.mk.inj hparse
    exact ⟨n, u, literal, ident, hlength, hliteral, hident, (Except.ok.inj hexpr).symm, hstate.symm⟩
  · rintro ⟨n, u, literal, ident, hlength, hliteral, hident, rfl, rfl⟩
    exact ⟨hasReference_of_isLength hlength (bytes_of_isUnit hident),
      parse_length_of_isLength hlength hliteral hident⟩
  · intro n u ident n' u' ident' hlength hident hlength' hident'
    have hparts := lengthParts?_of_isLength hlength (bytes_of_isUnit hident)
    rw [lengthParts?_of_isLength hlength' (bytes_of_isUnit hident')] at hparts
    obtain ⟨rfl, rfl⟩ := Prod.mk.inj (Option.some.inj hparts)
    have hu := bytes_of_isUnit hident
    have hsame := (isUnit_iff hu).mp hident
    rw [(isUnit_iff hu).mp hident'] at hsame
    exact ⟨rfl, rfl, (Option.some.inj hsame).symm⟩

end Attribute

end ViewBinder
