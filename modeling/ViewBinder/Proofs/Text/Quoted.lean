-- The laws of quoting. Quoting goes rune by rune and no rune reaches over a byte of ASCII, so a
-- text is quoted in parts wherever such a byte begins. Bytes that stand for themselves are found in
-- the quoted text exactly where they stand in the text, and no byte of it can be taken for the end of
-- the literal.
import ViewBinder.Proofs.Text.Identifier
import ViewBinder.Text.Utf8

namespace ViewBinder.Text

/-! ## Runes and bytes of ASCII -/

theorem within_ascii {low high a : UInt8} (hlow : 0x80 ≤ low) (ha : a < 0x80) :
    within low high a = false := by
  have hnot : ¬ low ≤ a := fun hle =>
    absurd (UInt8.le_trans hlow hle) (UInt8.not_le.mpr ha)
  simp [within, hnot]

/-- What a text begins with does not depend on the bytes from an ASCII byte on. -/
theorem decodeHead_append (c : UInt8) (t : Text) {a : UInt8} (ha : a < 0x80) (r : Text) :
    decodeHead (c :: t ++ a :: r) = decodeHead (c :: t) := by
  have htail : isTail a = false := within_ascii (UInt8.le_refl _) ha
  have hsecond : within (if c = 0xE0 then 0xA0 else 0x80) (if c = 0xED then 0x9F else 0xBF) a =
      false := within_ascii (by split <;> decide) ha
  have hsecond' : within (if c = 0xF0 then 0x90 else 0x80) (if c = 0xF4 then 0x8F else 0xBF) a =
      false := within_ascii (by split <;> decide) ha
  match t with
  | [] => cases r with
    | nil => simp [decodeHead, htail]
    | cons d r => cases r <;> simp [decodeHead, htail, hsecond, hsecond']
  | [b] => cases r <;> simp [decodeHead, htail]
  | [b, d] => simp [decodeHead, htail]
  | b :: d :: e :: t => simp [decodeHead]

theorem decodeHead_size (c : UInt8) (t : Text) :
    0 < (decodeHead (c :: t)).2 ∧ (decodeHead (c :: t)).2 ≤ (c :: t).length := by
  simp only [decodeHead]
  repeat' split
  all_goals simp

theorem runesFrom_eq_drop (skip : Nat) (t : Text) : runesFrom skip t = runes (t.drop skip) := by
  induction t generalizing skip with
  | nil => cases skip <;> rfl
  | cons b rest ih =>
    cases skip with
    | zero => rfl
    | succ skip =>
      rw [List.drop_succ_cons, ← ih skip]
      rfl

/-- The first rune of a text. -/
def headRune (t : Text) : Rune := ⟨(decodeHead t).1, t.take (decodeHead t).2⟩

theorem runes_cons (c : UInt8) (t : Text) :
    runes (c :: t) = headRune (c :: t) :: runes ((c :: t).drop (decodeHead (c :: t)).2) := by
  obtain ⟨k, hk⟩ : ∃ k, (decodeHead (c :: t)).2 = k + 1 :=
    Nat.exists_eq_add_one.mpr (decodeHead_size c t).1
  have hstep : runes (c :: t) = headRune (c :: t) :: runesFrom ((decodeHead (c :: t)).2 - 1) t :=
    rfl
  rw [hstep, runesFrom_eq_drop, hk, List.drop_succ_cons, Nat.add_sub_cancel]

/-- A text is read in parts where an ASCII byte begins. -/
theorem runes_append (l : Text) {a : UInt8} (ha : a < 0x80) (r : Text) :
    runes (l ++ a :: r) = runes l ++ runes (a :: r) := by
  -- a rune takes several bytes at once, so the induction is on the length
  induction hlen : l.length using Nat.strongRecOn generalizing l with
  | _ n ih =>
    cases l with
    | nil => rfl
    | cons c l =>
      obtain ⟨hpos, hle⟩ := decodeHead_size c l
      have hhead := decodeHead_append c l ha r
      have hrune : headRune (c :: l ++ a :: r) = headRune (c :: l) := by
        unfold headRune
        rw [hhead, List.take_append_of_le_length hle]
      have hrest := ih ((c :: l).drop (decodeHead (c :: l)).2).length
        (by rw [List.length_drop]; omega) _ rfl
      calc runes (c :: l ++ a :: r)
          = headRune (c :: l) :: runes ((c :: l).drop (decodeHead (c :: l)).2 ++ a :: r) := by
            rw [← List.drop_append_of_le_length hle, ← hhead, ← hrune]
            exact runes_cons c (l ++ a :: r)
        _ = runes (c :: l) ++ runes (a :: r) := by
            rw [hrest, runes_cons c l]
            rfl

/-! ## What stands between the quotes -/

/-- What stands between the quotes of a literal. -/
def quoteBody (t : Text) : Text := t.runes.flatMap quoteRune

theorem quote_eq (t : Text) : quote t = "\"" ++ quoteBody t ++ "\"" := rfl

/-- The byte stands for itself in a literal. -/
def isPlainByte (b : UInt8) : Bool := b < 0x80 && quoteRune ⟨b.toNat, [b]⟩ == [b]

theorem ascii_of_isPlainByte {b : UInt8} (h : isPlainByte b = true) : b < 0x80 :=
  of_decide_eq_true (Bool.and_eq_true_iff.mp h).1

theorem quoteBody_append (l : Text) {a : UInt8} (ha : a < 0x80) (r : Text) :
    quoteBody (l ++ a :: r) = quoteBody l ++ quoteBody (a :: r) := by
  unfold quoteBody
  rw [runes_append l ha, List.flatMap_append]

theorem quoteBody_cons (c : UInt8) (t : Text) :
    quoteBody (c :: t) = quoteRune (headRune (c :: t)) ++
      quoteBody ((c :: t).drop (decodeHead (c :: t)).2) := by
  unfold quoteBody
  rw [runes_cons, List.flatMap_cons]

theorem headRune_ascii {c : UInt8} (hc : c < 0x80) (t : Text) :
    headRune (c :: t) = ⟨c.toNat, [c]⟩ := by
  unfold headRune
  rw [decodeHead_ascii c t hc]
  rfl

/-- A rune is a byte of ASCII, or no byte of it is. -/
theorem headRune_ascii_or_not (c : UInt8) (t : Text) :
    headRune (c :: t) = ⟨c.toNat, [c]⟩ ∨ ∀ b ∈ (headRune (c :: t)).bytes, 0x80 ≤ b := by
  by_cases hc : c < 0x80
  · exact .inl (headRune_ascii hc t)
  · refine .inr ?_
    have hfirst : 0x80 ≤ c := UInt8.not_lt.mp hc
    have htail : ∀ {b : UInt8}, isTail b = true → 0x80 ≤ b := by
      intro b hb
      unfold isTail within at hb
      exact of_decide_eq_true (Bool.and_eq_true_iff.mp hb).1
    have hsecond : ∀ {low high b : UInt8}, 0x80 ≤ low → within low high b = true → 0x80 ≤ b := by
      intro low high b hlow hb
      unfold within at hb
      exact UInt8.le_trans hlow (of_decide_eq_true (Bool.and_eq_true_iff.mp hb).1)
    have hthree : ∀ {low high b d : UInt8}, 0x80 ≤ low → (within low high b && isTail d) = true →
        0x80 ≤ b ∧ 0x80 ≤ d := fun hlow h =>
      (Bool.and_eq_true_iff.mp h).imp (hsecond hlow) htail
    have hfour : ∀ {low high b d e : UInt8}, 0x80 ≤ low →
        (within low high b && isTail d && isTail e) = true → 0x80 ≤ b ∧ 0x80 ≤ d ∧ 0x80 ≤ e :=
      fun hlow h => and_assoc.mp ((Bool.and_eq_true_iff.mp h).imp (hthree hlow) htail)
    unfold headRune decodeHead
    simp only [hc, if_false]
    repeat' split
    all_goals
      simp only [List.take_succ_cons, List.take_zero, List.mem_cons, List.not_mem_nil, or_false,
        forall_eq_or_imp, forall_eq]
      first
        | exact hfirst
        | (rename_i h; exact ⟨hfirst, htail h⟩)
        | (rename_i h; exact ⟨hfirst, hthree (by decide) h⟩)
        | (rename_i h; exact ⟨hfirst, hfour (by decide) h⟩)

theorem toNat_of_within {low high b : UInt8} (h : within low high b = true) :
    low.toNat ≤ b.toNat ∧ b.toNat ≤ high.toNat := by
  unfold within at h
  simpa [UInt8.le_iff_toNat_le] using h

/-- The second byte of a longer character, which is higher behind the lowest first byte. -/
theorem toNat_of_second {c first last low high b : UInt8}
    (h : within (if c == first then low else 0x80) (if c == last then high else 0xBF) b = true)
    (hlow : 0x80 ≤ low.toNat) (hhigh : high.toNat ≤ 0xBF) :
    0x80 ≤ b.toNat ∧ b.toNat ≤ 0xBF ∧ (c.toNat = first.toNat → low.toNat ≤ b.toNat) := by
  obtain ⟨hmin, hmax⟩ := toNat_of_within h
  refine ⟨le_trans ?_ hmin, hmax.trans ?_, fun heq => ?_⟩
  · split
    · exact hlow
    · decide
  · split
    · exact hhigh
    · decide
  · rwa [UInt8.toNat_inj.mp heq, beq_self_eq_true, if_pos rfl] at hmin

/-- A character of several bytes is none of ASCII. -/
theorem code_of_high {c : UInt8} (hc : ¬ c < 0x80) (t : Text) : 0x80 ≤ (headRune (c :: t)).code := by
  have hlost : 0x80 ≤ replacement := by decide
  unfold headRune decodeHead
  simp only [hc, if_false, tailBits]
  split
  · rename_i hfirst
    have hlow : 0xC2 ≤ c.toNat := (toNat_of_within hfirst).1
    have hhigh : c.toNat ≤ 0xDF := (toNat_of_within hfirst).2
    repeat' split
    all_goals first | exact hlost | skip
    show 0x80 ≤ c.toNat % 32 * 64 + _
    omega
  · split
    · rename_i hfirst
      have hlow : 0xE0 ≤ c.toNat := (toNat_of_within hfirst).1
      have hhigh : c.toNat ≤ 0xEF := (toNat_of_within hfirst).2
      split
      · rename_i b d rest
        by_cases hand : (within (if c == 0xE0 then 0xA0 else 0x80)
          (if c == 0xED then 0x9F else 0xBF) b && isTail d) = true
        · obtain ⟨hmin, hmax, hlead⟩ := toNat_of_second (Bool.and_eq_true_iff.mp hand).1
            (by decide) (by decide)
          have hlead : c.toNat = 0xE0 → 0xA0 ≤ b.toNat := hlead
          rw [if_pos hand]
          show 0x80 ≤ (c.toNat % 16 * 64 + b.toNat % 64) * 64 + _
          omega
        · rw [if_neg hand]
          exact hlost
      · exact hlost
    · split
      · rename_i hfirst
        have hlow : 0xF0 ≤ c.toNat := (toNat_of_within hfirst).1
        have hhigh : c.toNat ≤ 0xF4 := (toNat_of_within hfirst).2
        split
        · rename_i b d e rest
          by_cases hand : (within (if c == 0xF0 then 0x90 else 0x80)
            (if c == 0xF4 then 0x8F else 0xBF) b && isTail d && isTail e) = true
          · obtain ⟨hmin, hmax, hlead⟩ := toNat_of_second
              (Bool.and_eq_true_iff.mp (Bool.and_eq_true_iff.mp hand).1).1 (by decide) (by decide)
            have hlead : c.toNat = 0xF0 → 0x90 ≤ b.toNat := hlead
            rw [if_pos hand]
            show 0x80 ≤ ((c.toNat % 8 * 64 + b.toNat % 64) * 64 + _) * 64 + _
            omega
          · rw [if_neg hand]
            exact hlost
        · exact hlost
      · exact hlost

theorem quoteBody_ascii {c : UInt8} (hc : c < 0x80) (t : Text) :
    quoteBody (c :: t) = quoteRune ⟨c.toNat, [c]⟩ ++ quoteBody t := by
  rw [quoteBody_cons, headRune_ascii hc, decodeHead_ascii c t hc]
  rfl

/-- Plain bytes stand for themselves, whatever comes behind them. -/
theorem quoteBody_plain {p : Text} (hp : p.all isPlainByte = true) (r : Text) :
    quoteBody (p ++ r) = p ++ quoteBody r := by
  induction p with
  | nil => rfl
  | cons b p ih =>
    simp only [List.all_cons, Bool.and_eq_true, isPlainByte, decide_eq_true_eq, beq_iff_eq] at hp
    obtain ⟨⟨hascii, hself⟩, hrest⟩ := hp
    rw [List.cons_append, quoteBody_ascii hascii, hself, ih hrest]
    rfl

theorem quote_plain {t : Text} (h : t.all isPlainByte = true) : quote t = "\"" ++ t ++ "\"" := by
  have hbody := quoteBody_plain h []
  rw [List.append_nil] at hbody
  rw [quote_eq, hbody]
  exact congrArg _ (congrArg (· ++ _) (List.append_nil t))

/-! ## Plain bytes in a literal -/

/-- What stands for a rune is an escape or the rune itself. -/
theorem quoteRune_escape_or_self (r : Rune) :
    (∃ t, quoteRune r = '\\'.toUInt8 :: t) ∨ quoteRune r = r.bytes := by
  unfold quoteRune
  repeat' split
  all_goals first | exact .inr rfl | exact .inl ⟨_, rfl⟩

theorem headRune_bytes (c : UInt8) (t : Text) : ∃ more, (headRune (c :: t)).bytes = c :: more := by
  obtain ⟨k, hk⟩ : ∃ k, (decodeHead (c :: t)).2 = k + 1 :=
    Nat.exists_eq_add_one.mpr (decodeHead_size c t).1
  refine ⟨t.take k, ?_⟩
  unfold headRune
  rw [hk, List.take_succ_cons]

/-- A byte of ASCII in a literal that is no backslash stands for itself when a rune begins
there. -/
theorem quoteBody_eq_cons {l y : Text} {b : UInt8} (hb : b < 0x80) (hslash : b ≠ '\\'.toUInt8)
    (h : quoteBody l = b :: y) : ∃ l', l = b :: l' ∧ quoteBody l' = y := by
  cases l with
  | nil => cases h
  | cons c l =>
    rw [quoteBody_cons] at h
    rcases quoteRune_escape_or_self (headRune (c :: l)) with ⟨t, hescape⟩ | hself
    · rw [hescape] at h
      exact absurd (List.cons.inj h).1.symm hslash
    · obtain ⟨more, hmore⟩ := headRune_bytes c l
      rw [hself, hmore] at h
      obtain ⟨rfl, -⟩ := List.cons.inj h
      rw [headRune_ascii hb] at hself hmore
      rw [← hmore, decodeHead_ascii c l hb] at h
      exact ⟨l, rfl, (List.cons.inj h).2⟩

theorem quoteBody_eq_append {l p y : Text} (hascii : ∀ b ∈ p, b < 0x80)
    (hslash : '\\'.toUInt8 ∉ p) (h : quoteBody l = p ++ y) : p <+: l := by
  induction p generalizing l with
  | nil => exact List.nil_prefix
  | cons b p ih =>
    obtain ⟨hb, hp⟩ := List.forall_mem_cons.mp hascii
    obtain ⟨hne, hrest⟩ := not_or.mp fun hor => hslash (List.mem_cons.mpr hor)
    obtain ⟨l, rfl, hl⟩ := quoteBody_eq_cons hb (Ne.symm hne) h
    exact List.cons_prefix_cons.mpr ⟨rfl, ih hp hrest hl⟩

/-! ## Dashes in a literal -/

theorem hexOf_noDash (width n : Nat) : '-'.toUInt8 ∉ hexOf width n := by
  induction width generalizing n with
  | zero => exact List.not_mem_nil
  | succ width ih =>
    have hdigits : ∀ k < 16, '-'.toUInt8 ≠ hexDigit k := by decide
    intro hmem
    rcases List.mem_append.mp hmem with hmem | hmem
    · exact ih (n / 16) hmem
    · exact hdigits _ (Nat.mod_lt n (by decide)) (List.mem_singleton.mp hmem)

theorem dash_of_quoteRune {r : Rune} (h : '-'.toUInt8 ∈ quoteRune r) : '-'.toUInt8 ∈ r.bytes := by
  have hescape : ∀ {e t : Text}, '-'.toUInt8 ∉ e → '-'.toUInt8 ∉ t → '-'.toUInt8 ∉ e ++ t :=
    fun he ht hmem => (List.mem_append.mp hmem).elim he ht
  have hshort : ∀ {c : Char}, shortEscape? r.code = some c → '-'.toUInt8 ∉ [c.toUInt8] := by
    intro c hc
    unfold shortEscape? at hc
    split at hc <;> cases hc <;> decide
  unfold quoteRune at h
  split at h
  · rcases List.mem_append.mp h with h | h
    · exact absurd h (by decide)
    · obtain ⟨b, -, hb⟩ := List.mem_flatMap.mp h
      exact absurd hb (hexOf_noDash 2 _)
  · split at h
    · exact (List.mem_append.mp h).resolve_left (by decide)
    · split at h
      · exact h
      · split at h
        · rename_i hc
          exact absurd h (hescape (by decide) (hshort hc))
        · split at h
          · exact absurd h (hescape (by decide) (hexOf_noDash _ _))
          · split at h <;> exact absurd h (hescape (by decide) (hexOf_noDash _ _))

/-- A rune with a dash in it is the dash. -/
theorem headRune_dash {c : UInt8} {t : Text} (h : '-'.toUInt8 ∈ (headRune (c :: t)).bytes) :
    c = '-'.toUInt8 := by
  obtain ⟨l, r, hbytes⟩ := List.append_of_mem h
  have hshape : c :: t = l ++ '-'.toUInt8 :: (r ++ (c :: t).drop (decodeHead (c :: t)).2) := by
    rw [← List.cons_append, ← List.append_assoc, ← hbytes]
    exact (List.take_append_drop _ _).symm
  cases l with
  | nil => exact (List.cons.inj hshape).1
  | cons c' l =>
    obtain ⟨rfl, -⟩ := List.cons.inj hshape
    -- the dash is behind what is read of the rune
    have hsize := (decodeHead_size c l).2
    rw [← decodeHead_append c l (a := '-'.toUInt8) (by decide), ← hshape] at hsize
    have hlength := congrArg List.length hbytes
    unfold headRune at hlength
    rw [List.length_take, List.length_append, List.length_cons (a := '-'.toUInt8)] at hlength
    omega

/-- A literal is cut at a dash only where the text has one. -/
theorem quoteBody_dash {l x y : Text} (h : quoteBody l = x ++ '-'.toUInt8 :: y) :
    ∃ l₁ l₂, l = l₁ ++ l₂ ∧ quoteBody l₂ = '-'.toUInt8 :: y := by
  induction hlen : l.length using Nat.strongRecOn generalizing l x with
  | _ n ih =>
    cases l with
    | nil => cases x <;> cases h
    | cons c l =>
      rw [quoteBody_cons] at h
      obtain ⟨hpos, hle⟩ := decodeHead_size c l
      -- the dash is behind the first rune
      have hbehind : ∀ x' : Text, quoteBody ((c :: l).drop (decodeHead (c :: l)).2) =
          x' ++ '-'.toUInt8 :: y →
          ∃ l₁ l₂, c :: l = l₁ ++ l₂ ∧ quoteBody l₂ = '-'.toUInt8 :: y := by
        intro x' hrest
        obtain ⟨l₁, l₂, hl, hl₂⟩ := ih _ (by rw [List.length_drop]; omega) hrest rfl
        refine ⟨(c :: l).take (decodeHead (c :: l)).2 ++ l₁, l₂, ?_, hl₂⟩
        rw [List.append_assoc, ← hl, List.take_append_drop]
      rcases List.append_eq_append_iff.mp h with ⟨x', rfl, hrest⟩ | ⟨z, hrune, hrest⟩
      · exact hbehind x' hrest
      · cases z with
        | nil => exact hbehind [] hrest.symm
        | cons d z =>
          obtain ⟨rfl, -⟩ := List.cons.inj hrest
          obtain rfl : c = '-'.toUInt8 := headRune_dash (dash_of_quoteRune (by
            rw [hrune]
            exact List.mem_append_right _ List.mem_cons_self))
          have hself : quoteRune (headRune ('-'.toUInt8 :: l)) = ['-'.toUInt8] := by
            rw [headRune_ascii (by decide)]
            decide
          rw [hself] at hrune h
          obtain rfl : x = [] := by
            cases x with
            | nil => rfl
            | cons _ x => cases x <;> cases hrune
          refine ⟨[], '-'.toUInt8 :: l, rfl, ?_⟩
          rw [quoteBody_cons, hself]
          exact h

/-- Plain bytes that begin with a dash are in a literal only if they are in the text. -/
theorem infix_of_quoteBody {p l : Text} (hplain : ('-'.toUInt8 :: p).all isPlainByte = true)
    (h : '-'.toUInt8 :: p <:+: quoteBody l) : '-'.toUInt8 :: p <:+: l := by
  have hbytes := List.all_eq_true.mp hplain
  obtain ⟨x, y, hxy⟩ := h
  rw [List.append_assoc] at hxy
  obtain ⟨l₁, l₂, rfl, hl₂⟩ := quoteBody_dash hxy.symm
  have hslash : '\\'.toUInt8 ∉ '-'.toUInt8 :: p := fun hmem =>
    absurd (hbytes _ hmem) (by decide)
  have hascii : ∀ b ∈ '-'.toUInt8 :: p, b < 0x80 := fun b hb => by
    have := hbytes b hb
    simp only [isPlainByte, Bool.and_eq_true, decide_eq_true_eq] at this
    exact this.1
  obtain ⟨more, rfl⟩ := quoteBody_eq_append hascii hslash hl₂
  exact ⟨l₁, more, by rw [List.append_assoc]⟩

end ViewBinder.Text

/-! ## Text in a literal -/

namespace ViewBinder.Code

/-- The byte means itself in a literal. -/
def IsCalm (b : UInt8) : Prop := b ≠ '\\'.toUInt8 ∧ b ≠ '\"'.toUInt8

/-- Text that stands in a literal. -/
inductive InLiteral : Text → Prop
  | nil : InLiteral []
  | calm {b : UInt8} {t : Text} : IsCalm b → InLiteral t → InLiteral (b :: t)
  | escape {b : UInt8} {t : Text} : InLiteral t → InLiteral ('\\'.toUInt8 :: b :: t)

theorem InLiteral.append {t u : Text} (ht : InLiteral t) (hu : InLiteral u) :
    InLiteral (t ++ u) := by
  induction ht with
  | nil => exact hu
  | calm hb _ ih => exact .calm hb ih
  | escape _ ih => exact .escape ih

theorem inLiteral_of_calm {t : Text} (h : ∀ b ∈ t, IsCalm b) : InLiteral t := by
  induction t with
  | nil => exact .nil
  | cons b t ih =>
    obtain ⟨hb, ht⟩ := List.forall_mem_cons.mp h
    exact .calm hb (ih ht)

theorem isCalm_hexOf (width n : Nat) : ∀ b ∈ Text.hexOf width n, IsCalm b := by
  have hdigits : ∀ k < 16, Text.hexDigit k ≠ '\\'.toUInt8 ∧ Text.hexDigit k ≠ '\"'.toUInt8 := by
    decide
  induction width generalizing n with
  | zero => exact fun b hb => absurd hb List.not_mem_nil
  | succ width ih =>
    intro b hb
    rcases List.mem_append.mp hb with hb | hb
    · exact ih _ b hb
    · rw [List.mem_singleton.mp hb]
      exact hdigits _ (Nat.mod_lt n (by decide))

theorem isCalm_high {b : UInt8} (h : 0x80 ≤ b) : IsCalm b := by
  constructor <;> rintro rfl <;> exact absurd h (by decide)

/-- What stands for a rune is no end of the literal. -/
theorem inLiteral_quoteRune (c : UInt8) (t : Text) :
    InLiteral (Text.quoteRune (Text.headRune (c :: t))) := by
  have hbytes := Text.headRune_ascii_or_not c t
  obtain ⟨more, hmore⟩ := Text.headRune_bytes c t
  generalize Text.headRune (c :: t) = r at hbytes hmore
  have htail : ∀ b ∈ more, IsCalm b := by
    intro b hb
    rcases hbytes with hself | hhigh
    · rw [hself] at hmore
      rw [← (List.cons.inj hmore).2] at hb
      exact absurd hb List.not_mem_nil
    · exact isCalm_high (hhigh b (hmore ▸ List.mem_cons_of_mem c hb))
  unfold Text.quoteRune
  split
  · refine .escape (inLiteral_of_calm fun b hb => ?_)
    obtain ⟨d, -, hb⟩ := List.mem_flatMap.mp hb
    exact isCalm_hexOf 2 _ b hb
  · split
    · rw [hmore]
      exact .escape (inLiteral_of_calm htail)
    · rename_i hcode
      split
      · refine inLiteral_of_calm fun b hb => ?_
        rcases hbytes with hself | hhigh
        · rw [hself] at hb hcode
          rw [List.mem_singleton.mp hb]
          constructor <;> rintro rfl <;> exact hcode (by decide)
        · exact isCalm_high (hhigh b hb)
      · split
        · exact .escape .nil
        · split
          · exact .escape (inLiteral_of_calm (isCalm_hexOf _ _))
          · split <;> exact .escape (inLiteral_of_calm (isCalm_hexOf _ _))

/-- Quoted text stands in its literal. -/
theorem inLiteral_quoteBody (t : Text) : InLiteral (Text.quoteBody t) := by
  induction hlen : t.length using Nat.strongRecOn generalizing t with
  | _ n ih =>
    cases t with
    | nil => exact .nil
    | cons c t =>
      obtain ⟨hpos, -⟩ := Text.decodeHead_size c t
      rw [Text.quoteBody_cons]
      have hrest : InLiteral (Text.quoteBody ((c :: t).drop (Text.decodeHead (c :: t)).2)) := by
        refine ih _ ?_ _ rfl
        rw [List.length_drop, ← hlen, List.length_cons]
        omega
      exact (inLiteral_quoteRune c t).append hrest

end ViewBinder.Code
