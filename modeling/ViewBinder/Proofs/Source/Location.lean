-- Places in a source file are exact. The line of an offset counts the newlines before it and the
-- column counts the bytes behind the last of them, so no two offsets share a position. The context
-- of an offset is the longest text on either side that keeps to its limits on bytes and newlines.
import Mathlib.Data.List.DropRight
import Mathlib.Data.List.GetD
import Mathlib.Data.List.Infix
import ViewBinder.Source.Location

namespace ViewBinder

/-! ## Searching by halves -/

/-- Where a test fails up to a cut and holds from there on, the search ends at the cut. -/
theorem leastIndex_eq {test : Nat → Bool} {cut fuel low high : Nat} (hfuel : high - low ≤ fuel)
    (hlow : low ≤ cut) (hhigh : cut ≤ high) (hbefore : ∀ i < cut, test i = false)
    (hafter : ∀ i, cut ≤ i → i < high → test i = true) :
    leastIndex test fuel low high = cut := by
  -- the cut stays inside the range, whichever half is kept
  fun_induction leastIndex test fuel low high with
  | case1 low high => omega
  | case2 fuel low high hrange middle htest ih =>
    have hcut : cut ≤ middle := by
      by_contra hlt
      rw [hbefore middle (not_le.mp hlt)] at htest
      exact Bool.false_ne_true htest
    exact ih (by omega) hlow hcut fun i hi hmiddle => hafter i hi (by omega)
  | case3 fuel low high hrange middle htest ih =>
    have hcut : middle < cut := by
      by_contra hle
      exact htest (hafter middle (not_lt.mp hle) (by omega))
    exact ih (by omega) hcut hhigh hafter
  | case4 fuel low high hrange => omega

/-- Among numbers of which the front ones do not pass a limit and the others do, the search finds
where the others begin. -/
theorem leastIndex_append {front back : List Nat} {limit : Nat} (hfront : ∀ n ∈ front, n ≤ limit)
    (hback : ∀ n ∈ back, limit < n) :
    leastIndex (fun i => limit < (front ++ back).getD i 0) (front ++ back).length 0
      (front ++ back).length = front.length := by
  have hcut : front.length ≤ (front ++ back).length := by
    rw [List.length_append]
    exact Nat.le_add_right _ _
  apply leastIndex_eq (Nat.sub_le _ _) (Nat.zero_le _) hcut
  · intro i hi
    rw [List.getD_append _ _ _ _ hi, List.getD_eq_getElem _ _ hi, decide_eq_false_iff_not, not_lt]
    exact hfront _ (List.getElem_mem hi)
  · intro i hi hlength
    rw [List.length_append] at hlength
    have hrest : i - front.length < back.length := by omega
    rw [List.getD_append_right _ _ _ _ hi, List.getD_eq_getElem _ _ hrest, decide_eq_true_eq]
    exact hback _ (List.getElem_mem hrest)

/-! ## Where lines begin -/

theorem lineStartsFrom_append (offset : Nat) (s t : Text) :
    lineStartsFrom offset (s ++ t) =
      lineStartsFrom offset s ++ lineStartsFrom (offset + s.length) t := by
  fun_induction lineStartsFrom offset s with
  | case1 offset => rfl
  | case2 offset b rest hnewline ih =>
    rw [List.cons_append, lineStartsFrom, if_pos hnewline, ih, List.length_cons, List.cons_append]
    congr 3
    omega
  | case3 offset b rest hnewline ih =>
    rw [List.cons_append, lineStartsFrom, if_neg hnewline, ih, List.length_cons]
    congr 2
    omega

theorem length_lineStartsFrom (offset : Nat) (t : Text) :
    (lineStartsFrom offset t).length = t.count newline := by
  fun_induction lineStartsFrom offset t with
  | case1 offset => rfl
  | case2 offset b rest hnewline ih => rw [List.length_cons, ih, List.count_cons, if_pos hnewline]
  | case3 offset b rest hnewline ih => rw [ih, List.count_cons, if_neg hnewline, Nat.add_zero]

/-- A line begins behind a byte of the text. -/
theorem lineStartsFrom_bounds {offset n : Nat} {t : Text} (h : n ∈ lineStartsFrom offset t) :
    offset < n ∧ n ≤ offset + t.length := by
  fun_induction lineStartsFrom offset t with
  | case1 offset => exact absurd h List.not_mem_nil
  | case2 offset b rest hnewline ih =>
    rw [List.length_cons]
    rcases List.mem_cons.mp h with rfl | hrest
    · omega
    · have hbounds := ih hrest
      omega
  | case3 offset b rest hnewline ih =>
    rw [List.length_cons]
    have hbounds := ih h
    omega

theorem length_lineStarts (t : Text) : (lineStarts t).length = 1 + t.count newline := by
  rw [lineStarts, List.length_cons, length_lineStartsFrom, Nat.add_comm]

theorem lineStarts_append (s t : Text) :
    lineStarts (s ++ t) = lineStarts s ++ lineStartsFrom s.length t := by
  rw [lineStarts, lineStartsFrom_append, Nat.zero_add, ← List.cons_append, ← lineStarts]

/-- The last line of a text begins behind its last newline, and is all that stands there. -/
theorem last_lineStart (t : Text) :
    (lineStarts t).getD (t.count newline) 0 + (t.rtakeWhile (· != newline)).length = t.length := by
  induction t using List.reverseRecOn with
  | nil => rfl
  | append_singleton t b ih =>
    have hcount : t.count newline < (lineStarts t).length := by
      rw [length_lineStarts]
      omega
    rw [lineStarts_append, List.count_append, List.length_append, List.length_singleton]
    by_cases hb : b = newline
    · -- the newline begins an empty line
      subst hb
      rw [List.count_singleton_self, List.rtakeWhile_concat_neg _ _ _ (by decide),
        List.getD_append_right _ _ _ _ (by rw [length_lineStarts]; omega), length_lineStarts,
        Nat.add_comm 1, Nat.sub_self]
      rfl
    · rw [List.count_singleton, if_neg (by simpa using hb), Nat.add_zero,
        List.rtakeWhile_concat_pos _ _ _ (by simpa using hb), List.length_append,
        List.length_singleton, List.getD_append _ _ _ _ hcount, ← Nat.add_assoc, ih]

/-! ## Positions -/

section Positions

variable {source : Text} {offset : Nat}

/-- The lines that begin up to an offset are those of the text before it. -/
theorem lineStarts_split (h : offset ≤ source.length) :
    lineStarts source =
      lineStarts (source.take offset) ++ lineStartsFrom offset (source.drop offset) := by
  have hsplit := lineStarts_append (source.take offset) (source.drop offset)
  rwa [List.take_append_drop, List.length_take_of_le h] at hsplit

theorem leastIndex_lineStarts (h : offset ≤ source.length) :
    leastIndex (fun i => offset < (lineStarts source).getD i 0) (lineStarts source).length 0
      (lineStarts source).length = 1 + (source.take offset).count newline := by
  rw [lineStarts_split h, ← length_lineStarts]
  apply leastIndex_append
  · intro n hn
    rcases List.mem_cons.mp hn with rfl | hrest
    · exact Nat.zero_le _
    · have hbound := (lineStartsFrom_bounds hrest).2
      rwa [Nat.zero_add, List.length_take_of_le h] at hbound
  · exact fun n hn => (lineStartsFrom_bounds hn).1

/-- The line of an offset begins as many bytes before it as stand behind the last newline. -/
theorem lineStart_of_offset (h : offset ≤ source.length) :
    (lineStarts source).getD ((source.take offset).count newline) 0 +
      ((source.take offset).rtakeWhile (· != newline)).length = offset := by
  have hlast := last_lineStart (source.take offset)
  rw [List.length_take_of_le h] at hlast
  have hcount : (source.take offset).count newline < (lineStarts (source.take offset)).length := by
    rw [length_lineStarts]
    omega
  rw [lineStarts_split h, List.getD_append _ _ _ _ hcount, hlast]

theorem positionIn_eq (h : offset ≤ source.length) :
    positionIn (lineStarts source) offset =
      (1 + (source.take offset).count newline,
        1 + ((source.take offset).rtakeWhile (· != newline)).length) := by
  have hstart := lineStart_of_offset h
  unfold positionIn
  rw [leastIndex_lineStarts h, Nat.add_sub_cancel_left]
  exact Prod.ext (Nat.add_comm _ _) (by dsimp only; omega)

end Positions

/-- The line of an offset is one more than the newlines before it, and its column one more than the
bytes between the last of these newlines, or the start of the source, and the offset. No other
offset of the source has this position. -/
theorem positions_are_exact {source : Text} {offset : Nat} (h : offset ≤ source.length) :
    positionIn (lineStarts source) offset =
        (1 + (source.take offset).count newline,
          1 + ((source.take offset).rtakeWhile (· != newline)).length) ∧
      ∀ other ≤ source.length,
        positionIn (lineStarts source) other = positionIn (lineStarts source) offset →
        other = offset := by
  refine ⟨positionIn_eq h, fun other hother hsame => ?_⟩
  rw [positionIn_eq h, positionIn_eq hother, Prod.mk.injEq] at hsame
  obtain ⟨hline, hcolumn⟩ := hsame
  -- the line gives the start of the line, and the column the way from there
  have hstart := lineStart_of_offset h
  have hstart' := lineStart_of_offset hother
  rw [Nat.add_left_cancel hline, Nat.add_left_cancel hcolumn, hstart] at hstart'
  exact hstart'.symm

/-- An offset behind two newlines in a row is alone at the start of the third line. -/
theorem position_behind_two_newlines :
    4 ≤ (Text.ofString "ab\n\nc").length ∧
      positionIn (lineStarts "ab\n\nc") 4 = (3, 1) ∧
      ∀ other ≤ 5, positionIn (lineStarts "ab\n\nc") other = (3, 1) → other = 4 := by
  obtain ⟨hposition, halone⟩ := @positions_are_exact "ab\n\nc" 4 (by decide)
  have hvalue : positionIn (lineStarts "ab\n\nc") 4 = (3, 1) := hposition.trans (by decide)
  refine ⟨by decide, hvalue, fun other hother hsame => ?_⟩
  exact halone other hother (hsame.trans hvalue.symm)

/-! ## Limits of a context -/

/-- A text with at most `maxChars` bytes and fewer than `maxLines` newlines. -/
structure Fits (maxChars maxLines : Nat) (t : Text) : Prop where
  chars : t.length ≤ maxChars
  lines : t.count newline < maxLines

/-- The longest text of a kind that fits. -/
structure IsLongest (maxChars maxLines : Nat) (kind : Text → Prop) (t : Text) : Prop where
  ofKind : kind t
  fits : Fits maxChars maxLines t
  longest : ∀ s, kind s → Fits maxChars maxLines s → s.length ≤ t.length

/-- What a context has taken in so far: it fits, with `room` bytes to go and `seen` newlines
passed. -/
structure Taken (maxChars maxLines room seen : Nat) (t : Text) : Prop where
  chars : t.length + room = maxChars
  newlines : t.count newline = seen
  lines : seen < maxLines

section Limits

variable {maxChars maxLines room seen : Nat} {b : UInt8} {t u s : Text}

theorem Taken.fits (h : Taken maxChars maxLines room seen t) : Fits maxChars maxLines t :=
  ⟨h.chars ▸ Nat.le_add_right _ _, h.newlines ▸ h.lines⟩

theorem Taken.chars_of_perm (h : Taken maxChars maxLines (room + 1) seen t)
    (hu : u.Perm (b :: t)) : u.length + room = maxChars := by
  rw [hu.length_eq, List.length_cons, ← h.chars]
  omega

/-- Taking in a byte on either side that is no newline. -/
theorem Taken.byte (h : Taken maxChars maxLines (room + 1) seen t) (hu : u.Perm (b :: t))
    (hb : b ≠ newline) : Taken maxChars maxLines room seen u where
  chars := h.chars_of_perm hu
  newlines := by rw [hu.count_eq, List.count_cons_of_ne hb, h.newlines]
  lines := h.lines

/-- Taking in a newline on either side. -/
theorem Taken.line (h : Taken maxChars maxLines (room + 1) seen t)
    (hu : u.Perm (newline :: t)) (hmore : seen + 1 ≠ maxLines) :
    Taken maxChars maxLines room (seen + 1) u where
  chars := h.chars_of_perm hu
  newlines := by rw [hu.count_eq, List.count_cons_self, h.newlines]
  lines := lt_of_le_of_ne h.lines hmore

/-- When there is no room left, nothing longer fits. -/
theorem Taken.full (h : Taken maxChars maxLines 0 seen t) (hs : Fits maxChars maxLines s) :
    s.length ≤ t.length := by
  rw [← Nat.add_zero t.length, h.chars]
  exact hs.chars

/-- With one more newline than the lines allow, a text does not fit. -/
theorem Taken.last (h : Taken maxChars maxLines room seen t) (hlast : seen + 1 = maxLines)
    (hu : u.Perm (newline :: t)) (hs : u.Sublist s) : ¬ Fits maxChars maxLines s := by
  intro hfits
  have hcount := hs.count_le newline
  rw [hu.count_eq, List.count_cons_self, h.newlines, hlast] at hcount
  exact absurd hfits.lines (not_lt.mpr hcount)

end Limits

namespace Location

section Context

variable {content : Text} {maxChars maxLines room seen offset : Nat}

/-! ## The context before an offset -/

/-- The text from a place before the offset up to the offset. -/
theorem drop_before {start : Nat} (hstart : start < offset) (hoffset : offset ≤ content.length)
    {b : UInt8} (hb : content[start]? = some b) :
    (content.take offset).drop start = b :: (content.take offset).drop (start + 1) := by
  have hlength : start < (content.take offset).length := by
    rwa [List.length_take_of_le hoffset]
  rw [List.drop_eq_getElem_cons hlength]
  congr 1
  rw [← List.getElem?_take_of_lt hstart, List.getElem?_eq_getElem hlength] at hb
  exact Option.some.inj hb

theorem contextStart_longest (hoffset : offset ≤ content.length) {start : Nat}
    (hstart : start ≤ offset)
    (h : Taken maxChars maxLines room seen ((content.take offset).drop start)) :
    IsLongest maxChars maxLines (· <:+ content.take offset)
      ((content.take offset).drop (contextStart content maxLines room seen start)) := by
  -- each step takes in the byte in front of what was taken in before
  fun_induction contextStart content maxLines room seen start with
  | case1 seen start => exact ⟨List.drop_suffix _ _, h.fits, fun s _ hs => h.full hs⟩
  | case2 room seen =>
    exact ⟨List.drop_suffix _ _, h.fits, fun s hs _ => hs.length_le⟩
  | case3 room seen start hnewline hlast =>
    have hbefore := drop_before hstart hoffset (by simpa using hnewline)
    refine ⟨List.drop_suffix _ _, h.fits, fun s hs hfits => ?_⟩
    by_contra hlonger
    have hsub : (content.take offset).drop start <:+ s :=
      List.suffix_of_suffix_length_le (List.drop_suffix _ _) hs
        (by rw [hbefore, List.length_cons]; omega)
    exact h.last (by simpa using hlast) (.of_eq hbefore) hsub.sublist hfits
  | case4 room seen start hnewline hmore ih =>
    have hbefore := drop_before hstart hoffset (by simpa using hnewline)
    exact ih (Nat.le_of_succ_le hstart) (h.line (.of_eq hbefore) (by simpa using hmore))
  | case5 room seen start hother ih =>
    have hlength : start < content.length := by omega
    have hbyte := List.getElem?_eq_getElem hlength
    have hbefore := drop_before hstart hoffset hbyte
    rw [hbyte] at hother
    exact ih (Nat.le_of_succ_le hstart) (h.byte (.of_eq hbefore) (by simpa using hother))

/-! ## The context from an offset on -/

/-- The text from the offset up to a place behind it. -/
theorem perm_behind {stop : Nat} (hstop : offset ≤ stop) {b : UInt8}
    (hb : content[stop]? = some b) :
    ((content.take (stop + 1)).drop offset).Perm (b :: (content.take stop).drop offset) := by
  obtain ⟨hlength, rfl⟩ := List.getElem?_eq_some_iff.mp hb
  have hfront : offset ≤ (content.take stop).length := by
    rwa [List.length_take_of_le hlength.le]
  rw [List.take_succ_eq_append_getElem hlength, List.drop_append_of_le_length hfront]
  exact List.perm_append_singleton _ _

theorem prefix_behind (stop : Nat) :
    (content.take stop).drop offset <+: content.drop offset := by
  rw [List.drop_take]
  exact List.take_prefix _ _

theorem contextStop_longest {stop : Nat} (hstop : offset ≤ stop)
    (h : Taken maxChars maxLines room seen ((content.take stop).drop offset)) :
    IsLongest maxChars maxLines (· <+: content.drop offset)
      ((content.take (contextStop content maxLines room seen stop)).drop offset) := by
  -- each step takes in the byte behind what was taken in before
  fun_induction contextStop content maxLines room seen stop with
  | case1 seen stop => exact ⟨prefix_behind _, h.fits, fun s _ hs => h.full hs⟩
  | case2 room seen stop hend =>
    refine ⟨prefix_behind _, h.fits, fun s hs _ => ?_⟩
    rw [List.take_of_length_le (List.getElem?_eq_none_iff.mp hend)]
    exact hs.length_le
  | case3 room seen stop b hb hnewline hlast =>
    rw [beq_iff_eq] at hnewline hlast
    subst hnewline
    have hbehind := perm_behind hstop hb
    refine ⟨prefix_behind _, h.fits, fun s hs hfits => ?_⟩
    by_contra hlonger
    have hsub : (content.take (stop + 1)).drop offset <+: s :=
      List.prefix_of_prefix_length_le (prefix_behind _) hs
        (by rw [hbehind.length_eq, List.length_cons]; omega)
    exact h.last hlast hbehind hsub.sublist hfits
  | case4 room seen stop b hb hnewline hmore ih =>
    rw [beq_iff_eq] at hnewline hmore
    subst hnewline
    exact ih (Nat.le_succ_of_le hstop) (h.line (perm_behind hstop hb) hmore)
  | case5 room seen stop b hb hother ih =>
    rw [beq_iff_eq] at hother
    exact ih (Nat.le_succ_of_le hstop) (h.byte (perm_behind hstop hb) hother)

/-! ## The context of a location -/

theorem contextAt_longest (content : Text) (offset maxChars : Nat) (hlines : 1 ≤ maxLines) :
    IsLongest maxChars maxLines (· <:+ content.take (min offset content.length))
        (contextAt content offset maxChars maxLines).1 ∧
      IsLongest maxChars maxLines (· <+: content.drop (min offset content.length))
        (contextAt content offset maxChars maxLines).2 := by
  have hoffset : min offset content.length ≤ content.length := Nat.min_le_right _ _
  -- both loops begin at the offset, with nothing taken in
  have hbegin : Taken maxChars maxLines maxChars 0
      ((content.take (min offset content.length)).drop (min offset content.length)) := by
    rw [List.drop_of_length_le (List.length_take_le _ _)]
    exact ⟨Nat.zero_add _, rfl, hlines⟩
  exact ⟨contextStart_longest hoffset le_rfl hbegin, contextStop_longest le_rfl hbegin⟩

end Context

/-- A location in a file with some content has a context: the longest text before its offset and
the longest from its offset on with at most `maxChars` bytes and fewer than `maxLines` newlines.
Together they are one piece of the content. An offset past the end is the end. -/
theorem contexts_are_maximal {l : Location} {f : SourceFile} {maxLines : Nat}
    (hfile : l.file = some f) (hcontent : f.content ≠ []) (hoffset : 0 ≤ l.offset)
    (maxChars : Nat) (hlines : 1 ≤ maxLines) :
    let offset := min l.offset.toNat f.content.length
    ∃ before after, l.context? maxChars maxLines = some (before, after) ∧
      IsLongest maxChars maxLines (· <:+ f.content.take offset) before ∧
      IsLongest maxChars maxLines (· <+: f.content.drop offset) after ∧
      before ++ after <:+: f.content := by
  intro offset
  have hshown : (l.offset < 0 || f.content.isEmpty) = false := by
    rw [Bool.or_eq_false_iff, decide_eq_false_iff_not, Int.not_lt, List.isEmpty_eq_false_iff]
    exact ⟨hoffset, hcontent⟩
  obtain ⟨hbefore, hafter⟩ := contextAt_longest f.content l.offset.toNat maxChars hlines
  refine ⟨_, _, ?_, hbefore, hafter, ?_⟩
  · rw [context?, hfile]
    exact if_neg (Bool.eq_false_iff.mp hshown)
  · obtain ⟨front, hfront⟩ := hbefore.ofKind
    obtain ⟨back, hback⟩ := hafter.ofKind
    refine ⟨front, back, ?_⟩
    rw [← List.append_assoc, hfront, List.append_assoc, hback, List.take_append_drop]

/-- In the middle of a line of which two bytes may be shown on either side. -/
def inLine : Location := ⟨some ⟨"one\ntwo\nthree", "lines.ui.xml"⟩, 5, 2, 2⟩

/-- Before the offset, the newline is the second byte, so both limits end the context there. -/
theorem context_in_line :
    (inLine.file = some ⟨"one\ntwo\nthree", "lines.ui.xml"⟩ ∧
        Text.ofString "one\ntwo\nthree" ≠ [] ∧ 0 ≤ inLine.offset ∧ 1 ≤ 1) ∧
      inLine.context? 2 1 = some (Text.ofString "t", Text.ofString "wo") ∧
      IsLongest 2 1 (· <:+ Text.ofString "one\nt") "t" ∧
      IsLongest 2 1 (· <+: Text.ofString "wo\nthree") "wo" := by
  have hshown : inLine.context? 2 1 = some (Text.ofString "t", Text.ofString "wo") := by decide
  obtain ⟨before, after, hcontext, hbefore, hafter, -⟩ :=
    @contexts_are_maximal inLine _ 1 rfl (by decide) (by decide) 2 le_rfl
  rw [hshown] at hcontext
  cases hcontext
  exact ⟨⟨rfl, by decide, by decide, le_rfl⟩, hshown, hbefore, hafter⟩

end Location

end ViewBinder
