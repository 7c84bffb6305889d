-- Statements of a program stand on lines of their own. No marker reaches over the end of a line, so
-- what a program stands for holds what each of its statements stands for.
import ViewBinder.Program.Basic
import ViewBinder.Proofs.Marker.Expand

namespace ViewBinder

/-! ## Lines -/

namespace Lines

variable {ls : Lines} {t part : Text}

/-- A finished line. -/
def Holds (ls : Lines) (t : Text) : Prop := ∃ l ∈ ls.above, l.text = t

/-- Nothing was added to the last line yet. -/
def Fresh (ls : Lines) : Prop := ls.current.text = []

theorem fresh_println (ls : Lines) (part : Text) : (ls.println part).Fresh := rfl

theorem Fresh.shift (h : ls.Fresh) (n : Int) : (ls.shift n).Fresh := by
  unfold Fresh Lines.shift
  simp only
  split
  · exact h
  · exact h

theorem Fresh.blank (h : ls.Fresh) : ls.blank.Fresh := by
  unfold Lines.blank
  split
  · split
    · exact h
    · exact fresh_println _ _
  · exact fresh_println _ _

theorem Fresh.printAll (h : ls.Fresh) (parts : List Text) : (ls.printAll parts).Fresh := by
  induction parts generalizing ls with
  | nil => exact h
  | cons part rest ih => exact ih (fresh_println ls part)

theorem Holds.println (h : ls.Holds t) (part : Text) : (ls.println part).Holds t := by
  obtain ⟨l, hl, hlt⟩ := h
  exact ⟨l, List.mem_cons_of_mem _ hl, hlt⟩

theorem Holds.shift (h : ls.Holds t) (n : Int) : (ls.shift n).Holds t := h

theorem Holds.blank (h : ls.Holds t) : ls.blank.Holds t := by
  unfold Lines.blank
  split
  · split
    · exact h
    · exact h.println []
  · exact h.println []

theorem Holds.printAll (h : ls.Holds t) (parts : List Text) : (ls.printAll parts).Holds t := by
  induction parts generalizing ls with
  | nil => exact h
  | cons part rest ih => exact ih (h.println part)

theorem Fresh.holds_println (h : ls.Fresh) (part : Text) : (ls.println part).Holds part := by
  refine ⟨_, List.mem_cons_self, ?_⟩
  show ls.current.text ++ part = part
  rw [h, List.nil_append]

theorem Fresh.holds_printAll (h : ls.Fresh) {parts : List Text} (ht : t ∈ parts) :
    (ls.printAll parts).Holds t := by
  induction parts generalizing ls with
  | nil => cases ht
  | cons part rest ih =>
    rcases List.mem_cons.mp ht with rfl | hrest
    · exact (h.holds_println t).printAll rest
    · exact ih (fresh_println ls part) hrest

end Lines

namespace Program

open Lines (Holds Fresh)

/-- Every line of every part is there. -/
theorem holds_addParts {ls : Lines} (h : ls.Fresh) {parts : List (List Text)} {part : List Text}
    {t : Text} (hpart : part ∈ parts) (ht : t ∈ part) : (addParts ls parts).Holds t := by
  have hkeep : ∀ (rest : List (List Text)) (ls : Lines), ls.Holds t →
      (rest.foldl (fun ls part => ls.blank.printAll part) ls).Holds t := by
    intro rest
    induction rest with
    | nil => exact fun _ h => h
    | cons next rest ih => exact fun ls h => ih _ (h.blank.printAll next)
  have hfind : ∀ (rest : List (List Text)) (ls : Lines), ls.Fresh → part ∈ rest →
      (rest.foldl (fun ls part => ls.blank.printAll part) ls).Holds t := by
    intro rest
    induction rest with
    | nil => exact fun _ _ hmem => by cases hmem
    | cons next rest ih =>
      intro ls hfresh hmem
      rcases List.mem_cons.mp hmem with rfl | hmem
      · exact hkeep rest _ (hfresh.blank.holds_printAll ht)
      · exact ih _ (hfresh.blank.printAll next) hmem
  cases parts with
  | nil => cases hpart
  | cons first rest =>
    rcases List.mem_cons.mp hpart with rfl | hrest
    · exact hkeep rest _ (h.holds_printAll ht)
    · exact hfind rest _ (h.printAll first) hrest

/-- A statement stands in a part of the body. -/
theorem mem_bodyParts {p : Program} {line : Text} (h : line ∈ p.statements) :
    ∃ part ∈ p.bodyParts, line ∈ part := by
  have hpart : ∃ part ∈ [p.construct, p.attach, p.detach, p.trailing], line ∈ part := by
    unfold statements at h
    simpa [or_assoc] using h
  obtain ⟨part, hpart, hline⟩ := hpart
  refine ⟨part, List.mem_filter.mpr ⟨?_, by simpa using List.ne_nil_of_mem hline⟩, hline⟩
  exact List.mem_cons_of_mem _ (List.mem_append_left [p.unused.map discardLine] hpart)

/-- The lines of a program before they are written. -/
theorem render_eq {p : Program} {line : Text} (h : line ∈ p.statements) :
    ∃ ls : Lines, ls.Holds line ∧ p.render = ls.dropEmptyLast.render ++ Text.ofString "\n" := by
  obtain ⟨part, hpart, hline⟩ := mem_bodyParts h
  unfold render
  refine ⟨_, ?_, rfl⟩
  have hextra : ∀ (extra : List Text) (ls : Lines), ls.Holds line →
      (extra.foldl (fun ls extra => ls.blank.println extra) ls).Holds line := by
    intro extra
    induction extra with
    | nil => exact fun _ h => h
    | cons next rest ih => exact fun ls h => ih _ (h.blank.println next)
  refine hextra _ _ (Holds.println (Holds.shift (Holds.println ?_ _) _) _)
  exact holds_addParts (Fresh.shift (Lines.fresh_println _ _) _) hpart hline

end Program

/-! ## Weaving -/

namespace Markers

variable {m : Markers} {w : Text}

theorem expands_join {parts : List Text} {part : Text}
    (h : m.Expands (Text.join "\n" parts) w) (hpart : part ∈ parts) :
    ∃ v, m.Expands part v ∧ v <:+: w := by
  induction parts generalizing w with
  | nil => cases hpart
  | cons first rest ih =>
    cases rest with
    | nil =>
      rw [List.mem_singleton.mp hpart]
      exact ⟨w, by simpa [Text.join] using h, List.infix_refl _⟩
    | cons second rest =>
      have hjoin : Text.join "\n" (first :: second :: rest) =
          first ++ '\n'.toUInt8 :: Text.join "\n" (second :: rest) := rfl
      rw [hjoin, expands_append_break (by decide)] at h
      obtain ⟨v, u, hv, hu, rfl⟩ := h
      rcases List.mem_cons.mp hpart with rfl | hrest
      · exact ⟨v, hv, (List.prefix_append _ _).isInfix⟩
      · obtain ⟨v', hv', hinfix⟩ := ih hu hrest
        refine ⟨v', hv', hinfix.trans ?_⟩
        exact ((List.suffix_cons _ _).trans (List.suffix_append _ _)).isInfix

theorem expands_lineText {l : Line} (h : m.Expands (Lines.lineText l) w) :
    ∃ v, m.Expands l.text v ∧ v <:+: w := by
  unfold Lines.lineText at h
  split at h
  · rename_i hempty
    rw [List.isEmpty_iff.mp hempty]
    exact ⟨w, h, List.infix_refl _⟩
  · -- tabs fall off one by one
    generalize l.indent.toNat = n at h
    induction n generalizing w with
    | zero => exact ⟨w, h, List.infix_refl _⟩
    | succ n ih =>
      rw [List.replicate_succ, List.cons_append] at h
      obtain ⟨v, u, -, hu, rfl⟩ := (expands_append_break (by decide) [] _ _).mp h
      obtain ⟨v', hv', hinfix⟩ := ih hu
      refine ⟨v', hv', hinfix.trans ?_⟩
      exact ((List.suffix_cons _ _).trans (List.suffix_append _ _)).isInfix

/-- What a program stands for holds what each of its statements stands for. -/
theorem expands_statement {p : Program} {line : Text} (h : m.Expands p.render w)
    (hline : line ∈ p.statements) : ∃ v, m.Expands line v ∧ v <:+: w := by
  obtain ⟨ls, ⟨l, hl, rfl⟩, hrender⟩ := Program.render_eq hline
  rw [hrender, show Text.ofString "\n" = '\n'.toUInt8 :: [] from rfl,
    expands_append_break (by decide)] at h
  obtain ⟨v, u, hv, -, rfl⟩ := h
  have hkept : l ∈ ls.dropEmptyLast.current :: ls.dropEmptyLast.above := by
    unfold Lines.dropEmptyLast
    split
    · rename_i last above habove
      rw [habove] at hl
      split
      · exact hl
      · exact List.mem_cons_of_mem _ (habove ▸ hl)
    · exact List.mem_cons_of_mem _ hl
  have hpart := List.mem_map_of_mem (f := Lines.lineText) (List.mem_reverse.mpr hkept)
  obtain ⟨v', hv', hinfix'⟩ := expands_join hv hpart
  obtain ⟨v'', hv'', hinfix''⟩ := expands_lineText hv'
  exact ⟨v'', hv'', (hinfix''.trans hinfix').trans (List.prefix_append _ _).isInfix⟩

end Markers

end ViewBinder
