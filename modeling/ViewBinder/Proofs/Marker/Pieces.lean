-- How a text falls into runs and markers. A marker is read whole wherever it begins, and a text
-- falls apart at every byte that no marker holds.
import Mathlib.Data.List.Basic
import ViewBinder.Marker

namespace ViewBinder

/-! ## Numbers -/

namespace Text

theorem isDigitByte_toUInt8 {c : Char} (h : c.isDigit) :
    isDigitByte c.toUInt8 = true ∧ c.toUInt8.toNat = c.toNat := by
  simp only [Char.isDigit, Bool.and_eq_true, decide_eq_true_eq] at h
  have hlow : 48 ≤ c.val.toNat := h.1
  have hhigh : c.val.toNat ≤ 57 := h.2
  have hval : c.toUInt8.toNat = c.toNat := by
    simp only [Char.toUInt8, Char.toNat, UInt32.toNat_toUInt8]
    omega
  refine ⟨?_, hval⟩
  simp only [isDigitByte, Bool.and_eq_true, decide_eq_true_eq, UInt8.le_iff_toNat_le, hval]
  exact ⟨hlow, hhigh⟩

/-- The digits of a number are digits, and there is one at least. -/
theorem isDigitByte_ofNat (n : Nat) : ofNat n ≠ [] ∧ (ofNat n).all isDigitByte = true := by
  unfold ofNat
  constructor
  · simp [Nat.toDigits_ne_nil]
  · simp only [List.all_map, List.all_eq_true, Function.comp_apply]
    intro c hc
    exact (isDigitByte_toUInt8 (Nat.isDigit_of_mem_toDigits (by decide) (by decide) hc)).1

theorem foldl_digits (cs : List Char) (h : ∀ c ∈ cs, c.isDigit) (n : Nat) :
    (cs.map Char.toUInt8).foldl (fun n b => n * 10 + (b.toNat - 48)) n =
      Nat.ofDigitChars 10 cs n := by
  induction cs generalizing n with
  | nil => simp
  | cons c cs ih =>
    have hc := (isDigitByte_toUInt8 (h c List.mem_cons_self)).2
    simp only [List.map_cons, List.foldl_cons, Nat.ofDigitChars_cons]
    rw [ih (fun c hc => h c (List.mem_cons_of_mem _ hc)), hc, Nat.mul_comm n 10]
    rfl

/-- The digits of a number are read back as the number. -/
theorem digitsValue_ofNat (n : Nat) : digitsValue (ofNat n) = n := by
  have hdigits : ∀ c ∈ Nat.toDigits 10 n, c.isDigit := fun c hc =>
    Nat.isDigit_of_mem_toDigits (by decide) (by decide) hc
  unfold digitsValue ofNat
  rw [foldl_digits _ hdigits, Nat.ofDigitChars_ten_toDigits]

end Text

namespace Marker

/-! ## Markers in front -/

theorem takeWhile_back (rest : Text) : List.takeWhile Text.isDigitByte (back ++ rest) = [] := rfl

theorem dropWhile_back (rest : Text) :
    List.dropWhile Text.isDigitByte (back ++ rest) = back ++ rest := rfl

theorem digits?_marker {digits : Text} (hne : digits ≠ [])
    (hdigits : digits.all Text.isDigitByte = true) (rest : Text) :
    digits? (front ++ digits ++ back ++ rest) = some digits := by
  have hall : ∀ b ∈ digits, Text.isDigitByte b = true := List.all_eq_true.mp hdigits
  have htake : List.takeWhile Text.isDigitByte (digits ++ (back ++ rest)) = digits := by
    rw [List.takeWhile_append_of_pos hall, takeWhile_back, List.append_nil]
  have hdrop : List.dropWhile Text.isDigitByte (digits ++ (back ++ rest)) = back ++ rest := by
    rw [List.dropWhile_append_of_pos hall, dropWhile_back]
  have hfront : Text.startsWith (front ++ (digits ++ (back ++ rest))) front = true :=
    List.isPrefixOf_iff_prefix.mpr (List.prefix_append _ _)
  have hback : Text.startsWith (back ++ rest) back = true :=
    List.isPrefixOf_iff_prefix.mpr (List.prefix_append _ _)
  unfold digits?
  simp only [List.append_assoc, hfront, List.drop_left, htake, hdrop, hback, if_true]
  simp [hne]

theorem eq_of_digits? {t digits : Text} (h : digits? t = some digits) :
    digits ≠ [] ∧ digits.all Text.isDigitByte = true ∧
      ∃ rest, t = front ++ digits ++ back ++ rest := by
  unfold digits? at h
  split at h
  · rename_i hfront
    simp only at h
    split at h
    · rename_i hfound
      cases h
      simp only [Bool.and_eq_true, Bool.not_eq_true', List.isEmpty_eq_false_iff] at hfound
      obtain ⟨hne, hback⟩ := hfound
      obtain ⟨behind, rfl⟩ := List.isPrefixOf_iff_prefix.mp hfront
      rw [List.drop_left] at hne hback ⊢
      obtain ⟨rest, hrest⟩ := List.isPrefixOf_iff_prefix.mp hback
      refine ⟨hne, List.all_takeWhile, rest, ?_⟩
      rw [List.append_assoc, List.append_assoc, hrest, List.takeWhile_append_dropWhile]
    · cases h
  · cases h

theorem piecesFrom_eq_drop (skip : Nat) (t : Text) :
    piecesFrom skip t = pieces (t.drop skip) := by
  induction t generalizing skip with
  | nil => cases skip <;> rfl
  | cons b rest ih =>
    cases skip with
    | zero => rfl
    | succ skip =>
      rw [List.drop_succ_cons, ← ih skip]
      rfl

theorem pieces_nil : pieces [] = [] := rfl

theorem pieces_cons (b : UInt8) (rest : Text) (h : digits? (b :: rest) = none) :
    pieces (b :: rest) = addByte b (pieces rest) := by
  show piecesFrom 0 (b :: rest) = _
  rw [piecesFrom, h]
  rfl

theorem pieces_marker {digits : Text} (hne : digits ≠ [])
    (hdigits : digits.all Text.isDigitByte = true) (rest : Text) :
    pieces (front ++ digits ++ back ++ rest) = .marker digits :: pieces rest := by
  have hdigits := digits?_marker hne hdigits rest
  obtain ⟨b, behind, hfront⟩ : ∃ b behind, front = b :: behind := ⟨_, _, rfl⟩
  rw [hfront, List.cons_append, List.cons_append, List.cons_append] at hdigits ⊢
  show piecesFrom 0 (b :: (behind ++ digits ++ back ++ rest)) = _
  rw [piecesFrom, hdigits]
  simp only
  rw [piecesFrom_eq_drop]
  have hdrop : front.length + digits.length + back.length - 1 =
      (behind ++ digits ++ back).length := by
    rw [hfront]
    simp
    omega
  rw [hdrop, List.drop_left]

/-! ## Bytes that no marker holds -/

/-- No marker holds the byte. -/
def breaks (b : UInt8) : Bool := !Text.isDigitByte b && !List.contains (front ++ back) b

theorem prefix_of_append {b : UInt8} {p l r : Text} (h : p <+: l ++ b :: r) (hb : b ∉ p) :
    p <+: l := by
  induction p generalizing l with
  | nil => exact List.nil_prefix
  | cons a p ih =>
    cases l with
    | nil =>
      obtain ⟨heq, -⟩ := List.cons_prefix_cons.mp h
      exact absurd (heq ▸ List.mem_cons_self) hb
    | cons c l =>
      obtain ⟨rfl, hrest⟩ := List.cons_prefix_cons.mp h
      exact List.cons_prefix_cons.mpr ⟨rfl, ih hrest fun hmem => hb (List.mem_cons_of_mem _ hmem)⟩

theorem notMem_of_breaks {b : UInt8} (hb : breaks b = true) {digits : Text}
    (hdigits : digits.all Text.isDigitByte = true) : b ∉ front ++ digits ++ back := by
  simp only [breaks, Bool.and_eq_true, Bool.not_eq_true', List.contains_eq_mem,
    decide_eq_false_iff_not, List.mem_append, not_or] at hb
  obtain ⟨hdigit, hfront, hback⟩ := hb
  simp only [List.mem_append, not_or]
  refine ⟨⟨hfront, fun hmem => ?_⟩, hback⟩
  rw [List.all_eq_true.mp hdigits b hmem] at hdigit
  cases hdigit

/-- A marker in front of a text ends before a byte that no marker holds. -/
theorem digits?_append {b : UInt8} (hb : breaks b = true) (l r : Text) :
    digits? (l ++ b :: r) = digits? l := by
  cases hl : digits? l with
  | some digits =>
    obtain ⟨hne, hdigits, rest, rfl⟩ := eq_of_digits? hl
    rw [List.append_assoc]
    exact digits?_marker hne hdigits _
  | none =>
    cases hboth : digits? (l ++ b :: r) with
    | none => rfl
    | some digits =>
      obtain ⟨hne, hdigits, rest, heq⟩ := eq_of_digits? hboth
      have hprefix : front ++ digits ++ back <+: l ++ b :: r := ⟨rest, heq.symm⟩
      obtain ⟨rest, rfl⟩ := prefix_of_append hprefix (notMem_of_breaks hb hdigits)
      rw [digits?_marker hne hdigits] at hl
      cases hl

/-! ## Reading from left to right -/

/-- The pieces of a text, read from left to right. A marker is read whole, and a run goes up to the
next marker: at none of its bytes does the text go on with one. -/
inductive Scans : Text → List Piece → Prop
  | nil : Scans [] []
  | marker {digits rest : Text} {ps : List Piece} : digits ≠ [] →
      digits.all Text.isDigitByte = true → Scans rest ps →
      Scans (front ++ digits ++ back ++ rest) (.marker digits :: ps)
  | plain {run rest : Text} {ps : List Piece} : run ≠ [] →
      (∀ s, s ≠ [] → s <:+ run → digits? (s ++ rest) = none) →
      (∀ p ∈ ps.head?, p.isMarker = true) → Scans rest ps → Scans (run ++ rest) (.plain run :: ps)

theorem scans_addByte {b : UInt8} {rest : Text} {ps : List Piece}
    (hnone : digits? (b :: rest) = none) (h : Scans rest ps) :
    Scans (b :: rest) (addByte b ps) := by
  -- a byte alone is a run of its own
  have hsingle : (∀ p ∈ ps.head?, p.isMarker = true) → Scans ([b] ++ rest) (.plain [b] :: ps) := by
    refine fun hhead => .plain (List.cons_ne_nil _ _) (fun s hne hs => ?_) hhead h
    rcases List.suffix_cons_iff.mp hs with rfl | hs
    · exact hnone
    · exact absurd (List.suffix_nil.mp hs) hne
  cases h with
  | nil => exact hsingle fun p hp => by cases hp
  | marker hne hdigits hrest =>
    refine hsingle fun p hp => ?_
    cases hp
    rfl
  | @plain run rest ps hne hrun hhead hrest =>
    refine .plain (List.cons_ne_nil b run) (fun s hsne hs => ?_) hhead hrest
    rcases List.suffix_cons_iff.mp hs with rfl | hs
    · exact hnone
    · exact hrun s hsne hs

/-- The pieces of a text are what is read from left to right. -/
theorem pieces_scans (t : Text) : Scans t (pieces t) := by
  -- a marker takes several bytes at once, so the induction is on the length
  induction hlen : t.length using Nat.strongRecOn generalizing t with
  | _ n ih =>
    cases hfront : digits? t with
    | some digits =>
      obtain ⟨hne, hdigits, rest, rfl⟩ := eq_of_digits? hfront
      rw [pieces_marker hne hdigits]
      refine .marker hne hdigits (ih rest.length ?_ rest rfl)
      have hfull : 0 < front.length := by decide
      rw [← hlen, List.length_append, List.length_append, List.length_append]
      omega
    | none =>
      cases t with
      | nil => exact .nil
      | cons b rest =>
        rw [pieces_cons b rest hfront]
        refine scans_addByte hfront (ih rest.length ?_ rest rfl)
        rw [← hlen]
        exact Nat.lt_succ_self _

/-- The texts of the pieces, one after the other, are the text. -/
theorem Scans.text {t : Text} {ps : List Piece} (h : Scans t ps) :
    (ps.map Piece.text).flatten = t := by
  induction h with
  | nil => rfl
  | marker _ _ _ ih => rw [List.map_cons, List.flatten_cons, ih, Piece.text]
  | plain _ _ _ _ ih => rw [List.map_cons, List.flatten_cons, ih, Piece.text]

/-- A text holds a marker if one begins somewhere in it. -/
theorem occursIn_eq_false {t : Text} :
    occursIn t = false ↔ ∀ s, s <:+ t → digits? s = none := by
  constructor
  · intro h
    induction t with
    | nil =>
      intro s hs
      rw [List.suffix_nil.mp hs]
      rfl
    | cons b rest ih =>
      have hnone : digits? (b :: rest) = none := by
        cases hdigits : digits? (b :: rest) with
        | none => rfl
        | some digits =>
          obtain ⟨hne, hall, behind, heq⟩ := eq_of_digits? hdigits
          unfold occursIn at h
          rw [heq, pieces_marker hne hall] at h
          cases h
      have hrest : occursIn rest = false := by
        unfold occursIn at h ⊢
        rw [pieces_cons b rest hnone] at h
        cases hpieces : pieces rest with
        | nil => rfl
        | cons p ps =>
          rw [hpieces] at h
          cases p with
          | plain run => exact h
          | marker digits => exact h
      intro s hs
      rcases List.suffix_cons_iff.mp hs with rfl | hs
      · exact hnone
      · exact ih hrest s hs
  · intro h
    have hscans := pieces_scans t
    unfold occursIn
    generalize pieces t = ps at hscans
    induction hscans with
    | nil => rfl
    | @marker digits rest ps hne hdigits _ _ =>
      have hnone := h _ (List.suffix_refl _)
      rw [digits?_marker hne hdigits] at hnone
      cases hnone
    | plain _ _ _ _ ih => exact ih fun s hs => h s (hs.trans (List.suffix_append _ _))

/-- The number of a marker can be read if it is not too large. -/
theorem id?_text_of_le {n : Nat} (h : n ≤ maxId) : id? (text n) = some n := by
  obtain ⟨hne, hdigits⟩ := Text.isDigitByte_ofNat n
  have hpieces := pieces_marker hne hdigits []
  rw [List.append_nil, pieces_nil] at hpieces
  unfold id?
  rw [show text n = front ++ Text.ofNat n ++ back from rfl, hpieces]
  simp [Text.digitsValue_ofNat, h]

end Marker

end ViewBinder
