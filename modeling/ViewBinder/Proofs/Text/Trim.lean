-- Texts without the blanks at their ends. Trimming drops whole runes, so what is cut off holds no
-- byte of ASCII but blanks, and a text stays as it is exactly if no blank stands at its ends.
import Mathlib.Data.List.Flatten
import ViewBinder.Proofs.Text.Quoted

namespace ViewBinder.Text

/-! ## The runes of a text -/

theorem ofRunes_runes (t : Text) : ofRunes (runes t) = t := by
  -- a rune takes several bytes at once, so the induction is on the length
  induction hlen : t.length using Nat.strongRecOn generalizing t with
  | _ n ih =>
    cases t with
    | nil => rfl
    | cons c t =>
      obtain ⟨hpos, hle⟩ := decodeHead_size c t
      have hrest := ih ((c :: t).drop (decodeHead (c :: t)).2).length
        (by rw [List.length_drop]; omega) _ rfl
      rw [runes_cons]
      unfold ofRunes at hrest ⊢
      rw [List.flatMap_cons, hrest]
      exact List.take_append_drop _ _

theorem runes_ascii_cons {a : UInt8} (ha : a < 0x80) (t : Text) :
    runes (a :: t) = ⟨a.toNat, [a]⟩ :: runes t := by
  rw [runes_cons, headRune_ascii ha, decodeHead_ascii a t ha]
  rfl

theorem mem_runes {t : Text} {r : Rune} (h : r ∈ runes t) :
    ∃ c rest, r = headRune (c :: rest) := by
  induction hlen : t.length using Nat.strongRecOn generalizing t with
  | _ n ih =>
    cases t with
    | nil => cases h
    | cons c t =>
      rw [runes_cons] at h
      rcases List.mem_cons.mp h with rfl | h
      · exact ⟨c, t, rfl⟩
      · obtain ⟨hpos, -⟩ := decodeHead_size c t
        exact ih _ (by rw [List.length_drop, ← hlen, List.length_cons] at *; omega) h rfl

theorem length_pos_of_mem_runes {t : Text} {r : Rune} (h : r ∈ runes t) : 0 < r.bytes.length := by
  obtain ⟨c, rest, rfl⟩ := mem_runes h
  obtain ⟨more, hmore⟩ := headRune_bytes c rest
  simp [hmore]

/-- A byte of ASCII in a blank is a blank. -/
theorem isSpace_of_mem_blank {t : Text} {r : Rune} (h : r ∈ runes t) (hr : isSpace r.code = true) :
    ∀ b ∈ r.bytes, b < 0x80 → isSpace b.toNat = true := by
  intro b hb hascii
  obtain ⟨c, rest, rfl⟩ := mem_runes h
  rcases headRune_ascii_or_not c rest with hself | hhigh
  · rw [hself] at hr hb
    rwa [List.mem_singleton.mp hb]
  · exact absurd (hhigh b hb) (UInt8.not_le.mpr hascii)

/-! ## Blanks at the ends -/

/-- The runes without the blanks behind them. -/
def dropBlanksBehind (rs : List Rune) : List Rune := (dropBlanks rs.reverse).reverse

theorem dropBlanksBehind_cons {r : Rune} (hdark : isSpace r.code = false) (rs : List Rune) :
    dropBlanksBehind (r :: rs) = r :: dropBlanksBehind rs := by
  unfold dropBlanksBehind dropBlanks
  rw [List.reverse_cons, List.dropWhile_append]
  by_cases hnil : (rs.reverse.dropWhile fun r => isSpace r.code) = []
  · simp [hnil, hdark]
  · simp [hnil]

/-- A text that begins with no blank still does without the blanks behind it. -/
theorem trim_cons {a : UInt8} (ha : a < 0x80) (hdark : isSpace a.toNat = false) (t : Text) :
    trim (a :: t) = a :: ofRunes (dropBlanksBehind (runes t)) := by
  have hfront : dropBlanks (runes (a :: t)) = ⟨a.toNat, [a]⟩ :: runes t := by
    rw [runes_ascii_cons ha]
    unfold dropBlanks
    rw [List.dropWhile_cons_of_neg]
    simp [hdark]
  unfold trim
  rw [hfront]
  show ofRunes (dropBlanksBehind _) = _
  rw [dropBlanksBehind_cons hdark]
  rfl

/-- A text that begins and ends with no blank has none to lose. -/
theorem trim_enclosed {a b : UInt8} (ha : a < 0x80) (hb : b < 0x80)
    (hadark : isSpace a.toNat = false) (hbdark : isSpace b.toNat = false) (t : Text) :
    trim (a :: (t ++ [b])) = a :: (t ++ [b]) := by
  have hlast : runes (t ++ [b]) = runes t ++ [⟨b.toNat, [b]⟩] := by
    rw [runes_append t hb, runes_ascii_cons hb]
    rfl
  have hkeep : dropBlanksBehind (runes (t ++ [b])) = runes (t ++ [b]) := by
    unfold dropBlanksBehind dropBlanks
    rw [hlast, List.reverse_append, List.reverse_singleton, List.singleton_append,
      List.dropWhile_cons_of_neg (by simp [hbdark])]
    simp
  rw [trim_cons ha hadark, hkeep, ofRunes_runes]

theorem trim_cons_subset (t : Text) : ofRunes (dropBlanksBehind (runes t)) ⊆ t := by
  intro b hb
  obtain ⟨r, hr, hb⟩ := List.mem_flatMap.mp hb
  have hmem : r ∈ runes t :=
    List.mem_reverse.mp ((List.dropWhile_suffix _).subset (List.mem_reverse.mp hr))
  rw [← ofRunes_runes t]
  exact List.mem_flatMap.mpr ⟨r, hmem, hb⟩

/-- What trimming cuts off holds no byte of ASCII but blanks. -/
theorem trim_cut (t : Text) :
    ∃ x y, t = x ++ trim t ++ y ∧ ∀ b ∈ x ++ y, b < 0x80 → isSpace b.toNat = true := by
  have hspaces : ∀ (rs : List Rune), ∀ r ∈ rs.takeWhile fun r => isSpace r.code,
      isSpace r.code = true := fun rs r hr =>
    List.all_eq_true.mp (List.all_takeWhile (l := rs)) r hr
  have hbytes : ∀ rs : List Rune, (∀ r ∈ rs, r ∈ runes t ∧ isSpace r.code = true) →
      ∀ b ∈ ofRunes rs, b < 0x80 → isSpace b.toNat = true := by
    intro rs hrs b hb
    obtain ⟨r, hr, hb⟩ := List.mem_flatMap.mp hb
    exact isSpace_of_mem_blank (hrs r hr).1 (hrs r hr).2 b hb
  have hfront : runes t = (runes t).takeWhile (fun r => isSpace r.code) ++ dropBlanks (runes t) :=
    (List.takeWhile_append_dropWhile).symm
  have hback : dropBlanks (runes t) =
      (dropBlanks (dropBlanks (runes t)).reverse).reverse ++
        ((dropBlanks (runes t)).reverse.takeWhile fun r => isSpace r.code).reverse := by
    rw [← List.reverse_append]
    unfold dropBlanks
    rw [List.takeWhile_append_dropWhile, List.reverse_reverse]
  refine ⟨ofRunes ((runes t).takeWhile fun r => isSpace r.code),
    ofRunes ((dropBlanks (runes t)).reverse.takeWhile fun r => isSpace r.code).reverse, ?_, ?_⟩
  · unfold trim ofRunes
    rw [List.append_assoc, ← List.flatMap_append, ← hback, ← List.flatMap_append, ← hfront]
    exact (ofRunes_runes t).symm
  · intro b hb
    rcases List.mem_append.mp hb with hb | hb
    · exact hbytes _ (fun r hr => ⟨(List.takeWhile_prefix _).subset hr, hspaces _ r hr⟩) b hb
    · refine hbytes _ (fun r hr => ?_) b hb
      rw [List.mem_reverse] at hr
      refine ⟨?_, hspaces _ r hr⟩
      have hmem := List.mem_reverse.mp ((List.takeWhile_prefix _).subset hr)
      rw [hfront]
      exact List.mem_append_right _ hmem

theorem length_trim_le (t : Text) : (trim t).length ≤ t.length := by
  obtain ⟨x, y, ht, -⟩ := trim_cut t
  have hlength := congrArg List.length ht
  simp only [List.length_append] at hlength
  omega

/-- The text neither begins nor ends with a blank. -/
structure IsTrim (t : Text) : Prop where
  front : ∀ r ∈ t.runes.head?, isSpace r.code = false
  back : ∀ r ∈ t.runes.getLast?, isSpace r.code = false

theorem dropBlanks_sublist (rs : List Rune) : (dropBlanks rs).Sublist rs := List.dropWhile_sublist _

/-- Blanks go at the front only if one stands there. -/
theorem dropBlanks_eq_self_iff (rs : List Rune) :
    dropBlanks rs = rs ↔ ∀ r ∈ rs.head?, isSpace r.code = false := by
  unfold dropBlanks
  cases rs with
  | nil => simp
  | cons r rs =>
    by_cases hr : isSpace r.code = true
    · have hshort : (rs.dropWhile fun r => isSpace r.code).length ≤ rs.length :=
        (List.dropWhile_sublist _).length_le
      have hne : rs.dropWhile (fun r => isSpace r.code) ≠ r :: rs := by
        intro heq
        rw [heq, List.length_cons] at hshort
        omega
      simp [hr, hne]
    · simp [hr]

/-- Runes that are left of those of a text, and that are the whole text, are all of them. -/
theorem eq_runes_of_sublist {t : Text} {rs : List Rune} (h : rs.Sublist t.runes)
    (ht : ofRunes rs = t) : rs = t.runes := by
  have hbytes := congrArg List.length (ht.trans (ofRunes_runes t).symm)
  unfold ofRunes at hbytes
  have hpos : ∀ r ∈ t.runes, 0 < r.bytes.length := fun r hr => length_pos_of_mem_runes hr
  clear ht
  generalize t.runes = all at h hbytes hpos
  induction h with
  | slnil => rfl
  | @cons rs all r hsub ih =>
    -- the rune that is missing has bytes
    have hle := (hsub.flatMap (·.bytes)).length_le
    have hr := hpos r List.mem_cons_self
    rw [List.flatMap_cons, List.length_append] at hbytes
    omega
  | @cons_cons rs all r _ ih =>
    simp only [List.flatMap_cons, List.length_append, Nat.add_left_cancel_iff] at hbytes
    rw [ih hbytes fun r hr => hpos r (List.mem_cons_of_mem _ hr)]

/-- A text stays what it is when it is trimmed exactly if no blank stands at its ends. -/
theorem trim_eq_self_iff (t : Text) : trim t = t ↔ t.IsTrim := by
  have hreverse : ∀ rs : List Rune, (dropBlanks rs.reverse).reverse = rs ↔
      ∀ r ∈ rs.getLast?, isSpace r.code = false := by
    intro rs
    rw [List.reverse_eq_iff, dropBlanks_eq_self_iff, List.head?_reverse]
  unfold trim
  constructor
  · intro h
    have hfront := dropBlanks_sublist t.runes
    have hback := (dropBlanks_sublist (dropBlanks t.runes).reverse).reverse
    rw [List.reverse_reverse] at hback
    have hall := eq_runes_of_sublist (hback.trans hfront) h
    have hlength := hback.length_le
    rw [hall] at hlength
    have hkept : dropBlanks t.runes = t.runes := hfront.eq_of_length_le hlength
    rw [hkept] at hall
    exact ⟨(dropBlanks_eq_self_iff _).mp hkept, (hreverse _).mp hall⟩
  · rintro ⟨hfront, hback⟩
    rw [(dropBlanks_eq_self_iff _).mpr hfront, (hreverse _).mpr hback, ofRunes_runes]

/-- A text in which no blank stands has none to lose. -/
theorem trim_of_dark {t : Text} (h : ∀ b ∈ t, b < 0x80 ∧ isSpace b.toNat = false) :
    trim t = t := by
  have hdark : ∀ r ∈ t.runes, isSpace r.code = false := by
    rw [runes_ascii t fun b hb => (h b hb).1]
    intro r hr
    obtain ⟨b, hb, rfl⟩ := List.mem_map.mp hr
    exact (h b hb).2
  exact (trim_eq_self_iff t).mpr ⟨fun r hr => hdark r (List.mem_of_mem_head? hr),
    fun r hr => hdark r (List.mem_of_getLast? hr)⟩

end ViewBinder.Text
