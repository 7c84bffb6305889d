-- Weaving what was woven. A marker of the woven text was never read: it is put together from runs
-- that stand next to each other only since the markers between them are gone. Where the meanings
-- begin and end in bytes that no marker holds, no marker comes about.
import ViewBinder.Proofs.Marker.Expand
import ViewBinder.Proofs.Marker.Weave

namespace ViewBinder

open Marker (Piece pieces)

/-! ## Markers in a text that is put together -/

namespace Marker

/-- The text begins and ends with a byte that no marker holds. -/
structure Fenced (t : Text) : Prop where
  front : ∃ b rest, breaks b = true ∧ t = b :: rest
  back : ∃ b rest, breaks b = true ∧ t = rest ++ [b]

theorem occursIn_cons {b : UInt8} {t : Text} :
    occursIn (b :: t) = false ↔ digits? (b :: t) = none ∧ occursIn t = false := by
  rw [occursIn_eq_false, occursIn_eq_false]
  constructor
  · exact fun h => ⟨h _ (List.suffix_refl _), fun s hs => h s (hs.trans (List.suffix_cons b t))⟩
  · rintro ⟨hnone, hrest⟩ s hs
    rcases List.suffix_cons_iff.mp hs with rfl | hs
    · exact hnone
    · exact hrest s hs

/-- A byte that no marker holds keeps the markers on its sides apart. -/
theorem occursIn_append_break {b : UInt8} (hb : breaks b = true) (l r : Text) :
    occursIn (l ++ b :: r) = false ↔ occursIn l = false ∧ occursIn r = false := by
  induction l with
  | nil =>
    have hnone : digits? (b :: r) = none := digits?_append hb [] r
    rw [List.nil_append, occursIn_cons]
    exact ⟨fun h => ⟨rfl, h.2⟩, fun h => ⟨hnone, h.2⟩⟩
  | cons a l ih =>
    rw [List.cons_append, occursIn_cons, occursIn_cons, ih, ← List.cons_append,
      digits?_append hb, and_assoc]

theorem Fenced.occursIn_append_left {v : Text} (h : Fenced v) (hv : occursIn v = false)
    {t : Text} (ht : occursIn t = false) : occursIn (v ++ t) = false := by
  obtain ⟨b, rest, hb, rfl⟩ := h.back
  rw [List.append_assoc, List.singleton_append, occursIn_append_break hb]
  exact ⟨((occursIn_append_break hb rest []).mp hv).1, ht⟩

theorem Fenced.occursIn_append_right {v : Text} (h : Fenced v) {run more : Text}
    (hrun : occursIn run = false) (hv : occursIn (v ++ more) = false) :
    occursIn (run ++ (v ++ more)) = false := by
  obtain ⟨b, rest, hb, rfl⟩ := h.front
  rw [List.cons_append] at hv ⊢
  exact (occursIn_append_break hb run _).mpr ⟨hrun, (occursIn_cons.mp hv).2⟩

/-- No run of a text holds a marker. -/
theorem Scans.run_plain {t run : Text} {ps : List Piece} (h : Scans t ps)
    (hmem : .plain run ∈ ps) : occursIn run = false := by
  induction h with
  | nil => cases hmem
  | marker _ _ _ ih => exact ih (by simpa using hmem)
  | @plain run' rest ps hne hrun hhead _ ih =>
    rcases List.mem_cons.mp hmem with heq | hmem
    · cases heq
      refine occursIn_eq_false.mpr fun s hs => ?_
      cases s with
      | nil => rfl
      | cons b s =>
        cases hdigits : digits? (b :: s) with
        | none => rfl
        | some digits =>
          obtain ⟨hdigitsne, hall, behind, heq⟩ := eq_of_digits? hdigits
          have hnone := hrun _ (List.cons_ne_nil b s) hs
          rw [heq, List.append_assoc, digits?_marker hdigitsne hall] at hnone
          cases hnone
    · exact ih hmem

end Marker

namespace Markers

variable {m : Markers}

/-! ## Runs -/

/-- The run is one of the text or of a meaning that the text leads to. -/
def RunOf (m : Markers) (t run : Text) : Prop :=
  .plain run ∈ pieces t ∨ ∃ id entry value, m.Reads id t ∧ m.find? id = some entry ∧
    entry.meaning = .known value ∧ .plain run ∈ pieces value

theorem RunOf.through {t digits value run : Text} {entry : MarkerEntry}
    (hmem : .marker digits ∈ pieces t) (hfind : m.find? (Text.digitsValue digits) = some entry)
    (hknown : entry.meaning = .known value) (h : m.RunOf value run) : m.RunOf t run := by
  rcases h with hplain | ⟨id, entry', value', hreads, hfind', hknown', hplain⟩
  · exact .inr ⟨_, entry, value, .here hmem rfl, hfind, hknown, hplain⟩
  · exact .inr ⟨id, entry', value', .through hmem hfind hknown hreads, hfind', hknown', hplain⟩

theorem RunOf.plain {t run : Text} (h : m.RunOf t run) : Marker.occursIn run = false := by
  rcases h with hmem | ⟨_, _, value, -, -, -, hmem⟩
  · exact (Marker.pieces_scans t).run_plain hmem
  · exact (Marker.pieces_scans value).run_plain hmem

/-- What pieces expand to is put together from their runs and those of the meanings. -/
theorem ExpandsTo.runs {ps : List Piece} {w : Text} (h : ExpandsTo m ps w) :
    ∀ {t : Text}, ps ⊆ pieces t → ∃ runs : List Text,
      runs.flatten = w ∧ ∀ run ∈ runs, m.RunOf t run := by
  induction h with
  | nil => exact fun _ => ⟨[], rfl, fun _ h => by cases h⟩
  | @plain run _ _ _ ih =>
    intro t hsub
    obtain ⟨hrun, hsub⟩ := List.cons_subset.mp hsub
    obtain ⟨runs, rfl, hruns⟩ := ih hsub
    exact ⟨run :: runs, rfl, List.forall_mem_cons.mpr ⟨.inl hrun, hruns⟩⟩
  | marker hfind hknown _ _ ihvalue ihrest =>
    intro t hsub
    obtain ⟨hmem, hsub⟩ := List.cons_subset.mp hsub
    obtain ⟨inner, rfl, hinner⟩ := ihvalue (List.Subset.refl _)
    obtain ⟨runs, rfl, hruns⟩ := ihrest hsub
    refine ⟨inner ++ runs, List.flatten_append, fun run hrun => ?_⟩
    rcases List.mem_append.mp hrun with hrun | hrun
    · exact (hinner run hrun).through hmem hfind hknown
    · exact hruns run hrun

/-! ## Fences -/

/-- Every meaning that the text leads to begins and ends with a byte that no marker holds. -/
def FencedIn (m : Markers) (t : Text) : Prop :=
  ∀ id entry value, m.Reads id t → m.find? id = some entry → entry.meaning = .known value →
    Marker.Fenced value

theorem FencedIn.through {t digits value : Text} {entry : MarkerEntry} (h : m.FencedIn t)
    (hmem : .marker digits ∈ pieces t) (hfind : m.find? (Text.digitsValue digits) = some entry)
    (hknown : entry.meaning = .known value) : m.FencedIn value :=
  fun id entry' value' hreads => h id entry' value' (.through hmem hfind hknown hreads)

/-- What a fenced text stands for is fenced. -/
theorem fenced_of_expands {t w : Text} (ht : Marker.Fenced t) (h : m.Expands t w) :
    Marker.Fenced w := by
  obtain ⟨⟨b, rest, hb, hfront⟩, c, init, hc, hback⟩ := ht
  constructor
  · rw [hfront, ← List.nil_append (b :: rest), expands_append_break hb] at h
    obtain ⟨v, u, hv, -, rfl⟩ := h
    rw [expands_nil.mp hv]
    exact ⟨b, u, hb, rfl⟩
  · rw [hback, expands_append_break hc] at h
    obtain ⟨v, u, -, hu, rfl⟩ := h
    rw [expands_nil.mp hu]
    exact ⟨c, v, hc, rfl⟩

/-- Where the meanings are fenced, no marker comes about. -/
theorem ExpandsTo.noMarker {ps : List Piece} {w : Text} (h : ExpandsTo m ps w) :
    ∀ {t s : Text}, Marker.Scans s ps → ps ⊆ pieces t → m.FencedIn t →
      Marker.occursIn w = false := by
  induction h with
  | nil => exact fun _ _ _ => rfl
  | @plain run u rest hrest ih =>
    intro t s hscans hsub hfenced
    have hrun := hscans.run_plain List.mem_cons_self
    cases hscans with
    | plain _ _ hhead hscans =>
      have hsub := (List.cons_subset.mp hsub).2
      have hnext := ih hscans hsub hfenced
      -- a run ends with the text or in front of a marker
      cases hrest with
      | nil => rwa [List.append_nil]
      | plain _ => cases hhead _ rfl
      | marker hfind hknown hvalue _ =>
        have hmem := hsub List.mem_cons_self
        have hv := hfenced _ _ _ (.here hmem rfl) hfind hknown
        exact (fenced_of_expands hv hvalue).occursIn_append_right hrun hnext
  | @marker digits value v u entry rest hfind hknown hvalue _ ihvalue ihrest =>
    intro t s hscans hsub hfenced
    obtain ⟨hmem, hsub⟩ := List.cons_subset.mp hsub
    have hv := hfenced _ _ _ (.here hmem rfl) hfind hknown
    have hinner := ihvalue (Marker.pieces_scans value) (List.Subset.refl _)
      (hfenced.through hmem hfind hknown)
    cases hscans with
    | marker _ _ hscans =>
      exact (fenced_of_expands hv hvalue).occursIn_append_left hinner (ihrest hscans hsub hfenced)

/-! ## Weaving again -/

/-- A text without a marker unfolds to itself, and nothing is replaced. -/
theorem unfolds_of_noMarker {t : Text} (h : Marker.occursIn t = false) :
    Unfolds m (pieces t) t 0 := by
  have hscans := Marker.pieces_scans t
  unfold Marker.occursIn at h
  generalize pieces t = ps at h hscans
  induction hscans with
  | nil => exact .nil
  | marker _ _ _ _ => cases h
  | plain _ _ _ _ ih => exact .plain (ih h)

theorem Unfolds.noMarker {t w : Text} (h : Unfolds m (pieces t) w 0) :
    Marker.occursIn t = false := by
  refine List.any_eq_false.mpr fun p hp => ?_
  cases p with
  | plain run => exact Bool.false_ne_true
  | marker digits =>
    obtain ⟨-, _, _, _, _, -, -, -, hlt⟩ := h.mem hp
    exact absurd hlt (Nat.not_lt_zero _)

/-- Weaving leaves a text alone and replaces nothing exactly if the text holds no marker. -/
theorem weave_runOn_self_iff (hfixed : m.Fixed) {t : Text} :
    (weave t).runOn m = (.ok t, m) ↔ Marker.occursIn t = false := by
  rcases weave_runs (hfixed.decided t) with ⟨hstuck, hfails⟩ | ⟨w, n, hunfolds, hcounts⟩
  · obtain ⟨e, m', hfail⟩ := hfails m.woven
    rw [hfail]
    refine iff_of_false (fun hok => by cases hok) fun hplain => ?_
    exact hstuck (unfolds_of_noMarker hplain).grounded
  · rw [hcounts m.woven]
    constructor
    · intro hok
      have hcount := congrArg (fun run => run.2.woven) hok
      simp only [Nat.add_eq_left] at hcount
      subst hcount
      exact hunfolds.noMarker
    · intro hplain
      obtain ⟨rfl, rfl⟩ := hunfolds.unique (unfolds_of_noMarker hplain)
      rfl

/-- Weaving what was woven changes nothing, and replaces nothing, exactly if the woven text holds
no marker. The text is put together from runs without markers, so that a marker in it reaches over
two of them at least; there is none if the meanings are told apart from what stands around them. -/
theorem weave_again_iff {m' : Markers} {t woven : Text} (hfixed : m.Fixed)
    (hok : (weave t).runOn m = (.ok woven, m')) :
    ((weave woven).runOn m' = (.ok woven, m') ↔ Marker.occursIn woven = false) ∧
    (∃ runs : List Text, runs.flatten = woven ∧
      ∀ run ∈ runs, m.RunOf t run ∧ Marker.occursIn run = false) ∧
    (m.FencedIn t → Marker.occursIn woven = false) := by
  obtain ⟨hentries, hexpands⟩ := weave_expands hfixed hok
  have hfixed' : m'.Fixed := fun e he => hfixed e (hentries ▸ he)
  refine ⟨weave_runOn_self_iff hfixed', ?_, ?_⟩
  · obtain ⟨runs, hflat, hruns⟩ := hexpands.runs (List.Subset.refl _)
    exact ⟨runs, hflat, fun run hrun => ⟨hruns run hrun, (hruns run hrun).plain⟩⟩
  · exact hexpands.noMarker (Marker.pieces_scans t) (List.Subset.refl _)

/-- A table with one marker. -/
def single (value : Text) : Markers where
  entries := [(1, ⟨value, none, .known value⟩)]

theorem single_fixed (value : Text) : (single value).Fixed := by
  intro e he
  rw [List.mem_singleton.mp he]
  exact ⟨value, rfl⟩

theorem fenced_text_is_woven_once : (single "(x)").FencedIn "a--token--1--end-token--b" ∧
    (weave "a--token--1--end-token--b").runOn (single "(x)") =
      (.ok "a(x)b", { single "(x)" with woven := 1 }) ∧
    (weave "a(x)b").runOn { single "(x)" with woven := 1 } =
      (.ok "a(x)b", { single "(x)" with woven := 1 }) := by
  have hfenced : (single "(x)").FencedIn "a--token--1--end-token--b" := by
    intro id entry value _ hfind hknown
    obtain ⟨-, rfl⟩ := Prod.mk.inj (List.mem_singleton.mp (find?_mem hfind))
    cases hknown
    exact ⟨⟨0x28, "x)", by decide, rfl⟩, 0x29, "(x", by decide, rfl⟩
  have hrun : (weave "a--token--1--end-token--b").runOn (single "(x)") =
      (.ok "a(x)b", { single "(x)" with woven := 1 }) := rfl
  obtain ⟨hagain, -, hplain⟩ := weave_again_iff (single_fixed "(x)") hrun
  exact ⟨hfenced, hrun, hagain.mpr (hplain hfenced)⟩

/-- The text around a marker and the meaning of the marker make up a marker. -/
theorem joined_marker_is_woven_again :
    (single "ken").Fixed ∧
    (weave "--to--token--1--end-token----1--end-token--").runOn (single "ken") =
      (.ok "--token--1--end-token--", { single "ken" with woven := 1 }) ∧
    (weave "--token--1--end-token--").runOn { single "ken" with woven := 1 } =
      (.ok "ken", { single "ken" with woven := 2 }) :=
  ⟨single_fixed "ken", rfl, rfl⟩

end Markers

end ViewBinder
