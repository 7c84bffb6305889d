-- Selectors with other class names. The parts of a selector are found by readers that look for
-- quotes, brackets and blanks, and no such byte is part of a name. So a selector with other names
-- behind its dots falls apart where the first one does.
import Mathlib.Data.List.TakeWhile
import ViewBinder.Proofs.Resource.Stylesheet

namespace ViewBinder

namespace Stylesheet

/-! ## Texts alike -/

/-- The texts are the same but for names behind dots. -/
inductive Alike : Text → Text → Prop
  | nil : Alike [] []
  | byte {t u : Text} (b : UInt8) : Alike t u → Alike (b :: t) (b :: u)
  | name {t u name new : Text} : name.all isNameByte = true → new.all isNameByte = true →
      Alike t u → Alike ('.'.toUInt8 :: (name ++ t)) ('.'.toUInt8 :: (new ++ u))

namespace Alike

variable {t u : Text} {p : UInt8 → Bool}

theorem refl (t : Text) : Alike t t := by
  induction t with
  | nil => exact .nil
  | cons b t ih => exact .byte b ih

theorem append {t' u' : Text} (h : Alike t u) (h' : Alike t' u') : Alike (t ++ t') (u ++ u') := by
  induction h with
  | nil => exact h'
  | byte b _ ih => exact .byte b ih
  | name hname hnew _ ih =>
    simp only [List.cons_append, List.append_assoc]
    exact .name hname hnew ih

theorem head? (h : Alike t u) : u.head? = t.head? := by
  cases h with
  | nil => rfl
  | byte b _ => rfl
  | name _ _ _ => rfl

/-- Only behind a dot the texts may differ at once. -/
theorem tail (h : Alike t u) (hdot : t.head? ≠ some '.'.toUInt8) : Alike t.tail u.tail := by
  cases h with
  | nil => exact .nil
  | byte _ h => exact h
  | name _ _ _ => exact absurd rfl hdot

theorem takeWhile_eq_nil_iff (p : UInt8 → Bool) (h : Alike t u) :
    u.takeWhile p = [] ↔ t.takeWhile p = [] := by
  rw [ViewBinder.takeWhile_eq_nil_iff, ViewBinder.takeWhile_eq_nil_iff, h.head?]

/-- What is left behind a run is alike, if dots and all that names are made of pass. -/
theorem dropWhile (h : Alike t u) (hdot : p '.'.toUInt8 = true)
    (hname : ∀ b, isNameByte b = true → p b = true) :
    Alike (t.dropWhile p) (u.dropWhile p) := by
  have hpass : ∀ name : Text, name.all isNameByte = true → ∀ b ∈ name, p b = true :=
    fun name hall b hb => hname b (List.all_eq_true.mp hall b hb)
  induction h with
  | nil => exact .nil
  | @byte t u b h ih =>
    by_cases hb : p b = true
    · rw [List.dropWhile_cons_of_pos hb, List.dropWhile_cons_of_pos hb]
      exact ih
    · rw [List.dropWhile_cons_of_neg hb, List.dropWhile_cons_of_neg hb]
      exact .byte b h
  | @name t u name new hold hnew _ ih =>
    rw [List.dropWhile_cons_of_pos hdot, List.dropWhile_cons_of_pos hdot,
      List.dropWhile_append_of_pos (hpass name hold), List.dropWhile_append_of_pos (hpass new hnew)]
    exact ih

end Alike

/-! ## Values of tests -/

def isQuote (b : UInt8) : Bool := b == '\"'.toUInt8 || b == '\''.toUInt8

/-- A byte of a value without quotes. -/
def isPlainByte (b : UInt8) : Bool := b != ']'.toUInt8 && !isSpaceByte b

theorem bytes_of_name : ∀ b : UInt8, isNameByte b = true →
    isTestByte b = true ∧ isPlainByte b = true := by
  refine Text.forall_byte ?_
  decide

theorem bytes_of_quote : ∀ b : UInt8, isQuote b = true →
    b ≠ '.'.toUInt8 ∧ isNameByte b = false := by
  refine Text.forall_byte ?_
  decide

theorem startsWith_bracket {t : Text} :
    Text.startsWith t "]" = true ↔ t.head? = some ']'.toUInt8 :=
  Text.startsWith_one_iff

/-- A value in quotes ends at the second quote, and a bracket stands behind it. -/
theorem quotedSize?_eq (q : UInt8) (t : Text) : quotedSize? q t =
    if t.head? = some q ∧ (t.tail.dropWhile (· != q)).tail.head? = some ']'.toUInt8 then
      some ((t.tail.takeWhile (· != q)).length + 2)
    else none := by
  cases t with
  | nil => rfl
  | cons b t =>
    by_cases hb : b = q
    · subst hb
      by_cases hmem : b ∈ t
      · obtain ⟨v, rest, rfl, hv⟩ := List.eq_append_cons_of_mem hmem
        have hrun : v.all (· != b) = true :=
          List.all_eq_true.mpr fun a ha => bne_iff_ne.mpr (ne_of_mem_of_not_mem ha hv)
        have hsecond : (v ++ b :: rest).idxOf? b = some v.length := by
          rw [List.idxOf?_eq_some_iff]
          refine ⟨by simp, by simp, fun i hi => ?_⟩
          rw [List.getElem_append_left hi]
          exact ne_of_mem_of_not_mem (List.getElem_mem hi) hv
        have hbehind : (v ++ b :: rest).drop (v.length + 1) = rest := by
          simp
        rw [List.tail_cons, takeWhile_run hrun (by simp), dropWhile_run hrun (by simp)]
        simp only [quotedSize?, hsecond, hbehind, beq_self_eq_true, if_true, startsWith_bracket,
          List.head?_cons, List.tail_cons, true_and]
      · have hnil : t.dropWhile (· != b) = [] :=
          List.dropWhile_eq_nil_iff.mpr fun a ha => bne_iff_ne.mpr (ne_of_mem_of_not_mem ha hmem)
        have hsecond : t.idxOf? b = none := List.idxOf?_eq_none_iff.mpr hmem
        rw [List.tail_cons, hnil]
        simp [quotedSize?, hsecond]
    · simp [quotedSize?, hb]

theorem plainSize?_eq (t : Text) : plainSize? t =
    if t.takeWhile isPlainByte ≠ [] ∧ (t.dropWhile isPlainByte).head? = some ']'.toUInt8 then
      some (t.takeWhile isPlainByte).length
    else none := by
  unfold plainSize?
  dsimp only
  rw [show (fun b => b != ']'.toUInt8 && !isSpaceByte b) = isPlainByte from rfl, drop_takeWhile]
  simp only [Bool.and_eq_true, Bool.not_eq_true', List.isEmpty_eq_false_iff, startsWith_bracket]

/-- The size of a value of any kind. -/
def valueSize? (t : Text) : Option Nat :=
  quotedSize? '\"'.toUInt8 t <|> quotedSize? '\''.toUInt8 t <|> plainSize? t

theorem valueSize?_eq (t : Text) : valueSize? t =
    (quotedSize? '\"'.toUInt8 t).or ((quotedSize? '\''.toUInt8 t).or (plainSize? t)) := by
  simp only [valueSize?, Option.orElse_eq_orElse, Option.orElse_eq_or]

/-- What stands behind the bracket of a value in quotes does not matter. -/
theorem quotedSize?_stays {q : UInt8} {t : Text} {n : Nat} (h : quotedSize? q t = some n) :
    ∃ v rest : Text, t = v ++ ']'.toUInt8 :: rest ∧ v.length = n ∧
      ∀ rest' : Text, quotedSize? q (v ++ ']'.toUInt8 :: rest') = some n := by
  rw [quotedSize?_eq, Option.ite_none_right_eq_some] at h
  obtain ⟨⟨hopen, hclose⟩, hsize⟩ := h
  obtain ⟨t, rfl⟩ := List.head?_eq_some_iff.mp hopen
  have hstop := head?_dropWhile (· != q) t
  have ht := List.takeWhile_append_dropWhile (p := (· != q)) (l := t)
  have hrun : (t.takeWhile (· != q)).all (· != q) = true := List.all_takeWhile
  rw [List.tail_cons] at hclose hsize
  generalize t.takeWhile (· != q) = run at *
  generalize t.dropWhile (· != q) = behind at *
  obtain ⟨rest, hrest⟩ := List.head?_eq_some_iff.mp hclose
  cases behind with
  | nil => cases hrest
  | cons b behind =>
    obtain rfl : b = q := by simpa using hstop b rfl
    obtain rfl : behind = ']'.toUInt8 :: rest := hrest
    refine ⟨b :: (run ++ [b]), rest, by simp [← ht], by simpa using hsize, fun rest' => ?_⟩
    have hshape : b :: (run ++ [b]) ++ ']'.toUInt8 :: rest' =
        b :: (run ++ b :: ']'.toUInt8 :: rest') := by
      simp
    rw [hshape, quotedSize?_eq, List.tail_cons, takeWhile_run hrun (by simp),
      dropWhile_run hrun (by simp), if_pos ⟨rfl, rfl⟩, hsize]

theorem plainSize?_stays {t : Text} {n : Nat} (h : plainSize? t = some n) :
    ∃ v rest : Text, t = v ++ ']'.toUInt8 :: rest ∧ v.length = n ∧
      ∀ rest' : Text, plainSize? (v ++ ']'.toUInt8 :: rest') = some n := by
  have hbracket : ∀ rest' : Text, ∀ b ∈ (']'.toUInt8 :: rest').head?, isPlainByte b = false :=
    head?_stops rfl
  rw [plainSize?_eq, Option.ite_none_right_eq_some] at h
  obtain ⟨⟨hne, hclose⟩, hsize⟩ := h
  obtain ⟨rest, hrest⟩ := List.head?_eq_some_iff.mp hclose
  refine ⟨t.takeWhile isPlainByte, rest, ?_, Option.some.inj hsize, fun rest' => ?_⟩
  · rw [← hrest, List.takeWhile_append_dropWhile]
  · have hrun : (t.takeWhile isPlainByte).all isPlainByte = true := List.all_takeWhile
    rw [plainSize?_eq, takeWhile_run hrun (hbracket rest'), dropWhile_run hrun (hbracket rest'),
      if_pos ⟨hne, rfl⟩, hsize]

namespace Alike

variable {t u : Text}

/-- A value in quotes takes what stands behind it to its bracket, so whether there is one is seen in
every text that is alike. -/
theorem quotedSize?_eq_none {q : UInt8} (hq : isQuote q = true) (h : Alike t u)
    (hnone : quotedSize? q t = none) : quotedSize? q u = none := by
  obtain ⟨hdot, hname⟩ := bytes_of_quote q hq
  have hnames : ∀ b, isNameByte b = true → (b != q) = true := by
    intro b hb
    refine bne_iff_ne.mpr fun heq => ?_
    rw [heq, hname] at hb
    cases hb
  rw [quotedSize?_eq, ite_eq_right_iff] at hnone ⊢
  rintro ⟨hopen, hclose⟩
  rw [h.head?] at hopen
  have hinside : Alike t.tail u.tail :=
    h.tail (by rw [hopen]; exact fun heq => hdot (Option.some.inj heq))
  have hend := hinside.dropWhile (p := (· != q)) (bne_iff_ne.mpr hdot.symm) hnames
  have hquote : (t.tail.dropWhile (· != q)).head? ≠ some '.'.toUInt8 := by
    intro heq
    have hstop := ViewBinder.head?_dropWhile (· != q) t.tail _ heq
    exact hdot.symm (by simpa using hstop)
  rw [(hend.tail hquote).head?] at hclose
  cases hnone ⟨hopen, hclose⟩

theorem plainSize?_eq_none (h : Alike t u) (hnone : plainSize? t = none) : plainSize? u = none := by
  have hbehind := h.dropWhile (p := isPlainByte) (by decide) fun b hb => (bytes_of_name b hb).2
  rw [plainSize?_eq, ite_eq_right_iff] at hnone ⊢
  rw [ne_eq, h.takeWhile_eq_nil_iff, hbehind.head?]
  exact fun hvalue => nomatch hnone hvalue

theorem valueSize?_eq_none (h : Alike t u) (hnone : valueSize? t = none) : valueSize? u = none := by
  rw [valueSize?_eq, Option.or_eq_none_iff, Option.or_eq_none_iff] at hnone ⊢
  exact ⟨h.quotedSize?_eq_none rfl hnone.1, h.quotedSize?_eq_none rfl hnone.2.1,
    h.plainSize?_eq_none hnone.2.2⟩

end Alike

/-- The bracket of a value stays where it is when the text behind it becomes another that is alike. -/
theorem valueSize?_stays {t : Text} {n : Nat} (h : valueSize? t = some n) :
    ∃ v rest : Text, t = v ++ ']'.toUInt8 :: rest ∧ v.length = n ∧
      ∀ rest' : Text, Alike rest rest' → valueSize? (v ++ ']'.toUInt8 :: rest') = some n := by
  rw [valueSize?_eq] at h
  cases hdouble : quotedSize? '\"'.toUInt8 t with
  | some size =>
    rw [hdouble, Option.some_or] at h
    obtain ⟨v, rest, ht, hsize, hstays⟩ := quotedSize?_stays (hdouble.trans h)
    refine ⟨v, rest, ht, hsize, fun rest' _ => ?_⟩
    rw [valueSize?_eq, hstays rest', Option.some_or]
  | none =>
    rw [hdouble, Option.none_or] at h
    cases hsingle : quotedSize? '\''.toUInt8 t with
    | some size =>
      rw [hsingle, Option.some_or] at h
      obtain ⟨v, rest, rfl, hsize, hstays⟩ := quotedSize?_stays (hsingle.trans h)
      refine ⟨v, rest, rfl, hsize, fun rest' halike => ?_⟩
      have hall := (Alike.refl v).append (.byte ']'.toUInt8 halike)
      rw [valueSize?_eq, hall.quotedSize?_eq_none rfl hdouble, hstays rest', Option.none_or,
        Option.some_or]
    | none =>
      rw [hsingle, Option.none_or] at h
      obtain ⟨v, rest, rfl, hsize, hstays⟩ := plainSize?_stays h
      refine ⟨v, rest, rfl, hsize, fun rest' halike => ?_⟩
      have hall := (Alike.refl v).append (.byte ']'.toUInt8 halike)
      rw [valueSize?_eq, hall.quotedSize?_eq_none rfl hdouble, hall.quotedSize?_eq_none rfl hsingle,
        hstays rest', Option.none_or, Option.none_or]

/-! ## Tests -/

theorem testSize?_bracket (t : Text) : testSize? ('['.toUInt8 :: t) =
    if t.takeWhile isTestByte = [] then none
    else if (t.dropWhile isTestByte).head? = some ']'.toUInt8 then
      some ((t.takeWhile isTestByte).length + 2)
    else if (t.dropWhile isTestByte).head? = some '='.toUInt8 then
      (valueSize? (t.dropWhile isTestByte).tail).map (· + (t.takeWhile isTestByte).length + 3)
    else none := by
  have hopen : Text.startsWith ('['.toUInt8 :: t) "[" = true := Text.startsWith_one_iff.mpr rfl
  have hequals : ∀ t : Text, Text.startsWith t "=" = true ↔ t.head? = some '='.toUInt8 :=
    fun t => Text.startsWith_one_iff
  unfold testSize? valueSize?
  simp only [hopen, if_true, List.drop_succ_cons, List.drop_zero, drop_takeWhile,
    startsWith_bracket, hequals, List.isEmpty_iff, List.drop_one]

theorem bracket_of_testSize? {t : Text} {size : Nat} (h : testSize? t = some size) :
    t.head? = some '['.toUInt8 := by
  unfold testSize? at h
  split at h
  · rename_i hopen
    exact Text.startsWith_one_iff.mp hopen
  · cases h

theorem Alike.testSize?_eq_none {t u : Text} (h : Alike t u) (hnone : testSize? t = none) :
    testSize? u = none := by
  by_contra hsome
  obtain ⟨size, hsize⟩ := Option.ne_none_iff_exists'.mp hsome
  have hopen := bracket_of_testSize? hsize
  obtain ⟨u, rfl⟩ := List.head?_eq_some_iff.mp hopen
  have ht : t.head? = some '['.toUInt8 := by rw [← h.head?, hopen]
  obtain ⟨t, rfl⟩ := List.head?_eq_some_iff.mp ht
  have hinside : Alike t u := h.tail (by rw [ht]; decide)
  have hbehind := hinside.dropWhile (p := isTestByte) rfl fun b hb => (bytes_of_name b hb).1
  refine hsome ?_
  rw [testSize?_bracket] at hnone ⊢
  rw [hbehind.head?]
  by_cases hname : t.takeWhile isTestByte = []
  · rw [if_pos ((hinside.takeWhile_eq_nil_iff _).mpr hname)]
  · rw [if_neg hname] at hnone
    rw [if_neg fun hnil => hname ((hinside.takeWhile_eq_nil_iff _).mp hnil)]
    split at hnone
    · cases hnone
    · split at hnone
      · rename_i hclose hequals
        rw [if_neg hclose, if_pos hequals, Option.map_eq_none_iff]
        refine (hbehind.tail ?_).valueSize?_eq_none (Option.map_eq_none_iff.mp hnone)
        rw [hequals]
        decide
      · rename_i hclose hequals
        rw [if_neg hclose, if_neg hequals]

theorem testSize?_bare {name : Text} (rest : Text) (hne : name ≠ [])
    (hname : name.all isTestByte = true) :
    testSize? ('['.toUInt8 :: (name ++ ']'.toUInt8 :: rest)) = some (name.length + 2) := by
  have hend : ∀ b ∈ (']'.toUInt8 :: rest).head?, isTestByte b = false := head?_stops rfl rest
  rw [testSize?_bracket, takeWhile_run hname hend, dropWhile_run hname hend, if_neg hne]
  exact if_pos rfl

theorem testSize?_valued {name : Text} (value : Text) (hne : name ≠ [])
    (hname : name.all isTestByte = true) :
    testSize? ('['.toUInt8 :: (name ++ '='.toUInt8 :: value)) =
      (valueSize? value).map (· + name.length + 3) := by
  have hend : ∀ b ∈ ('='.toUInt8 :: value).head?, isTestByte b = false := head?_stops rfl value
  have hopen : ('='.toUInt8 :: value).head? ≠ some ']'.toUInt8 := by
    rw [List.head?_cons]
    decide
  rw [testSize?_bracket, takeWhile_run hname hend, dropWhile_run hname hend, if_neg hne, if_neg hopen]
  exact if_pos rfl

/-- A test stays where it is when the text behind it becomes another that is alike. -/
theorem testSize?_stays {t : Text} {size : Nat} (h : testSize? t = some size) :
    ∃ test rest : Text, t = '['.toUInt8 :: (test ++ rest) ∧ size = test.length + 1 ∧
      ∀ rest' : Text, Alike rest rest' →
        testSize? ('['.toUInt8 :: (test ++ rest')) = some size := by
  have hopen := bracket_of_testSize? h
  obtain ⟨t, rfl⟩ := List.head?_eq_some_iff.mp hopen
  rw [testSize?_bracket] at h
  have hname : (t.takeWhile isTestByte).all isTestByte = true := List.all_takeWhile
  have ht := List.takeWhile_append_dropWhile (p := isTestByte) (l := t)
  generalize t.takeWhile isTestByte = name at *
  generalize t.dropWhile isTestByte = behind at *
  split at h
  · cases h
  · rename_i hne
    split at h
    · rename_i hclose
      obtain ⟨rest, rfl⟩ := List.head?_eq_some_iff.mp hclose
      refine ⟨name ++ [']'.toUInt8], rest, by simp [← ht], by simpa using h.symm, ?_⟩
      intro rest' _
      rw [List.append_assoc, List.singleton_append, testSize?_bare rest' hne hname, h]
    · split at h
      · rename_i hequals
        obtain ⟨value, rfl⟩ := List.head?_eq_some_iff.mp hequals
        obtain ⟨n, hvalue, rfl⟩ := Option.map_eq_some_iff.mp h
        obtain ⟨v, rest, hshape, hsize, hstays⟩ := valueSize?_stays hvalue
        obtain rfl : value = v ++ ']'.toUInt8 :: rest := hshape
        refine ⟨name ++ '='.toUInt8 :: (v ++ [']'.toUInt8]), rest, by simp [← ht], ?_, ?_⟩
        · simp only [List.length_append, List.length_cons, List.length_nil]
          omega
        · intro rest' halike
          have hshape' : name ++ '='.toUInt8 :: (v ++ [']'.toUInt8]) ++ rest' =
              name ++ '='.toUInt8 :: (v ++ ']'.toUInt8 :: rest') := by
            simp
          rw [hshape', testSize?_valued _ hne hname, hstays rest' halike]
          rfl
      · cases h

/-! ## Parts -/

theorem parts_of_partAt {b : UInt8} {front tail : Text} {p : Part}
    (hpart : partAt b (front ++ tail) = p) (htext : p.text = b :: front) :
    parts (b :: (front ++ tail)) = p :: parts tail := by
  show partAt b _ :: partsFrom ((partAt b _).text.length - 1) _ = _
  rw [partsFrom_eq_drop, hpart, htext, List.length_cons, Nat.add_sub_cancel, List.drop_left]

theorem partAt_eq (b : UInt8) (rest : Text) : partAt b rest =
    if b = '.'.toUInt8 ∧ rest.takeWhile isNameByte ≠ [] then .className (rest.takeWhile isNameByte)
    else if b = '#'.toUInt8 ∧ rest.takeWhile isNameByte ≠ [] then
      .other (b :: rest.takeWhile isNameByte)
    else if isNameByte b = true then .other (b :: rest.takeWhile isNameByte)
    else match testSize? (b :: rest) with
      | some size => .other ((b :: rest).take size)
      | none => .other [b] := by
  unfold partAt
  dsimp only
  cases testSize? (b :: rest) with
  | none => simp only [Bool.and_eq_true, beq_iff_eq, Bool.not_eq_true', List.isEmpty_eq_false_iff]
  | some size =>
    simp only [Bool.and_eq_true, beq_iff_eq, Bool.not_eq_true', List.isEmpty_eq_false_iff]

/-- The new names are names. -/
def AreNames (names : List (Text × Text)) : Prop :=
  ∀ entry ∈ names, entry.2 ≠ [] ∧ entry.2.all isNameByte = true

instance (names : List (Text × Text)) : Decidable (AreNames names) :=
  inferInstanceAs (Decidable (∀ entry ∈ names, _))

theorem AreNames.newName {names : List (Text × Text)} (hnames : AreNames names) {name : Text}
    (hne : name ≠ []) (hname : name.all isNameByte = true) :
    (names.lookup name).getD name ≠ [] ∧
      ((names.lookup name).getD name).all isNameByte = true := by
  cases hlookup : names.lookup name with
  | none => exact ⟨hne, hname⟩
  | some new =>
    obtain ⟨before, after, rfl, -⟩ := List.lookup_eq_some_iff.mp hlookup
    exact hnames (name, new) (by simp)

/-- The part at the front stays the part at the front under its new name, and when the text behind
it becomes another that is alike. -/
theorem partAt_stays {names : List (Text × Text)} (hnames : AreNames names) (b : UInt8)
    (rest : Text) : ∃ tail : Text, b :: rest = (partAt b rest).text ++ tail ∧
      ∀ tail' : Text, Alike tail tail' →
        parts (((partAt b rest).renamed names).text ++ tail') =
          (partAt b rest).renamed names :: parts tail' := by
  have hrest := List.takeWhile_append_dropWhile (p := isNameByte) (l := rest)
  have hrun : (rest.takeWhile isNameByte).all isNameByte = true := List.all_takeWhile
  have hstop : ∀ {name tail' : Text}, name.all isNameByte = true →
      Alike (rest.dropWhile isNameByte) tail' → (name ++ tail').takeWhile isNameByte = name := by
    intro name tail' hname halike
    refine takeWhile_run hname ?_
    rw [halike.head?]
    exact head?_dropWhile isNameByte rest
  rw [partAt_eq b rest]
  split
  · rename_i hclass
    obtain ⟨rfl, hne⟩ := hclass
    obtain ⟨hnew, hall⟩ := hnames.newName hne hrun
    refine ⟨rest.dropWhile isNameByte, congrArg _ hrest.symm, fun tail' halike => ?_⟩
    refine parts_of_partAt ?_ rfl
    rw [partAt_eq, hstop hall halike]
    exact if_pos ⟨rfl, hnew⟩
  · rename_i hclass
    split
    · rename_i hid
      refine ⟨rest.dropWhile isNameByte, congrArg _ hrest.symm, fun tail' halike => ?_⟩
      refine parts_of_partAt ?_ rfl
      rw [partAt_eq, hstop hrun halike, if_neg hclass, if_pos hid]
      rfl
    · rename_i hid
      split
      · rename_i hb
        refine ⟨rest.dropWhile isNameByte, congrArg _ hrest.symm, fun tail' halike => ?_⟩
        refine parts_of_partAt ?_ rfl
        rw [partAt_eq, hstop hrun halike, if_neg hclass, if_neg hid, if_pos hb]
        rfl
      · rename_i hb
        cases htest : testSize? (b :: rest) with
        | some size =>
          obtain ⟨test, behind, hshape, rfl, hstays⟩ := testSize?_stays htest
          obtain ⟨rfl, rfl⟩ := List.cons.inj hshape
          have htake : ∀ t : Text, ('['.toUInt8 :: (test ++ t)).take (test.length + 1) =
              '['.toUInt8 :: test := by
            simp
          dsimp only
          rw [htake]
          refine ⟨behind, rfl, fun tail' halike => ?_⟩
          refine parts_of_partAt ?_ rfl
          rw [partAt_eq, if_neg fun h => absurd h.1 (by decide),
            if_neg fun h => absurd h.1 (by decide), if_neg hb, hstays tail' halike]
          dsimp only
          rw [htake]
          rfl
        | none =>
          refine ⟨rest, rfl, fun tail' halike => ?_⟩
          show parts (b :: ([] ++ tail')) = .other [b] :: parts tail'
          refine parts_of_partAt ?_ rfl
          have hname : tail'.takeWhile isNameByte ≠ [] ↔ rest.takeWhile isNameByte ≠ [] :=
            not_congr (halike.takeWhile_eq_nil_iff _)
          have htest' := (Alike.byte b halike).testSize?_eq_none htest
          rw [List.nil_append, partAt_eq, if_neg fun h => hclass ⟨h.1, hname.mp h.2⟩,
            if_neg fun h => hid ⟨h.1, hname.mp h.2⟩, if_neg hb, htest']

/-! ## Selectors -/

section Renamed

variable {names : List (Text × Text)}

theorem renameSelector_eq (names : List (Text × Text)) (t : Text) :
    renameSelector names t = (parts t).flatMap fun part => (part.renamed names).text := by
  refine List.flatMap_congr fun part _ => ?_
  cases part <;> rfl

theorem alike_renameSelector (hnames : AreNames names) (t : Text) :
    Alike t (renameSelector names t) := by
  have hparts : ∀ ps : List Part,
      (∀ name, .className name ∈ ps → name ≠ [] ∧ name.all isNameByte = true) →
        Alike (ps.flatMap Part.text) (ps.flatMap fun part => (part.renamed names).text) := by
    intro ps hps
    induction ps with
    | nil => exact .nil
    | cons part ps ih =>
      have hrest := ih fun name hname => hps name (List.mem_cons_of_mem _ hname)
      cases part with
      | className name =>
        obtain ⟨hne, hall⟩ := hps name List.mem_cons_self
        exact .name hall (hnames.newName hne hall).2 hrest
      | other t => exact (Alike.refl t).append hrest
  have halike := hparts (parts t) fun name hname => name_of_mem_parts hname
  rwa [text_parts, ← renameSelector_eq] at halike

/-- A renamed selector has the parts of the selector under their new names. -/
theorem parts_renameSelector (hnames : AreNames names) (t : Text) :
    parts (renameSelector names t) = (parts t).map (Part.renamed names) := by
  induction hlength : t.length using Nat.strongRecOn generalizing t with
  | ind n ih =>
    cases t with
    | nil => rfl
    | cons b rest =>
      obtain ⟨front, tail, htext, hrest, hparts⟩ := parts_cons b rest
      obtain ⟨tail₂, hshape, hstays⟩ := partAt_stays hnames b rest
      obtain rfl : tail = tail₂ := by
        rw [htext, hrest, List.cons_append] at hshape
        exact List.append_cancel_left (List.cons.inj hshape).2
      have hshorter : tail.length < n := by
        rw [← hlength, hrest, List.length_cons, List.length_append]
        omega
      rw [renameSelector_eq, hparts, List.flatMap_cons, ← renameSelector_eq,
        hstays _ (alike_renameSelector hnames tail), ih _ hshorter tail rfl, List.map_cons]

end Renamed

end Stylesheet

end ViewBinder
