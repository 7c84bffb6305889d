-- What a text with markers stands for. A text expands to another when every marker in it is
-- replaced by what its meaning expands to; weaving a text gives what it expands to.
-- A text that nowhere begins like a marker stands for itself, also in front of a marker: whatever
-- it ends in, no marker straddles its end.
import Mathlib.Data.List.Perm.Subperm
import ViewBinder.Proofs.Marker.Pieces
import ViewBinder.Proofs.Text.Basic
import ViewBinder.Proofs.Work

namespace ViewBinder.Markers

open Marker (Piece pieces)

/-! ## Expansion -/

/-- Pieces with every marker replaced by what its meaning expands to. -/
inductive ExpandsTo (m : Markers) : List Piece → Text → Prop
  | nil : ExpandsTo m [] []
  | plain {run t : Text} {rest : List Piece} :
      ExpandsTo m rest t → ExpandsTo m (.plain run :: rest) (run ++ t)
  | marker {digits value v t : Text} {entry : MarkerEntry} {rest : List Piece} :
      m.find? (Text.digitsValue digits) = some entry → entry.meaning = .known value →
      ExpandsTo m (pieces value) v → ExpandsTo m rest t →
      ExpandsTo m (.marker digits :: rest) (v ++ t)

/-- What a text stands for. -/
def Expands (m : Markers) (t woven : Text) : Prop := ExpandsTo m (pieces t) woven

theorem ExpandsTo.unique {m : Markers} {ps : List Piece} {v w : Text} (hv : ExpandsTo m ps v)
    (hw : ExpandsTo m ps w) : v = w := by
  induction hv generalizing w with
  | nil =>
    cases hw
    rfl
  | plain _ ih =>
    cases hw with
    | plain hrest => rw [ih hrest]
  | marker hfind hknown _ _ ihvalue ihrest =>
    cases hw with
    | marker hfind' hknown' hvalue hrest =>
      rw [hfind] at hfind'
      cases hfind'
      rw [hknown] at hknown'
      cases hknown'
      rw [ihvalue hvalue, ihrest hrest]

theorem ExpandsTo.congr {m m' : Markers} {ps : List Piece} {w : Text} (h : ExpandsTo m ps w)
    (hentries : m'.entries = m.entries) : ExpandsTo m' ps w := by
  induction h with
  | nil => exact .nil
  | plain _ ih => exact .plain ih
  | marker hfind hknown _ _ ihvalue ihrest =>
    refine .marker ?_ hknown ihvalue ihrest
    unfold find? at hfind ⊢
    rwa [hentries]

theorem expandsTo_addByte {m : Markers} {b : UInt8} {ps : List Piece} {w : Text} :
    ExpandsTo m (Marker.addByte b ps) w ↔ ∃ t, w = b :: t ∧ ExpandsTo m ps t := by
  cases ps with
  | nil =>
    constructor
    · intro h
      cases h with
      | plain h => exact ⟨_, rfl, h⟩
    · rintro ⟨t, rfl, h⟩
      show ExpandsTo m [.plain [b]] ([b] ++ t)
      exact .plain h
  | cons p rest =>
    cases p with
    | plain run =>
      constructor
      · intro h
        cases h with
        | plain h => exact ⟨_, rfl, .plain h⟩
      · rintro ⟨t, rfl, h⟩
        cases h with
        | @plain _ t _ h =>
          show ExpandsTo m (.plain (b :: run) :: rest) ((b :: run) ++ t)
          exact .plain h
    | marker digits =>
      constructor
      · intro h
        cases h with
        | plain h => exact ⟨_, rfl, h⟩
      · rintro ⟨t, rfl, h⟩
        show ExpandsTo m (.plain [b] :: .marker digits :: rest) ([b] ++ t)
        exact .plain h

theorem expandsTo_marker {m : Markers} {digits w : Text} {rest : List Piece} :
    ExpandsTo m (.marker digits :: rest) w ↔
      ∃ entry value v t, m.find? (Text.digitsValue digits) = some entry ∧
        entry.meaning = .known value ∧ m.Expands value v ∧ ExpandsTo m rest t ∧ w = v ++ t := by
  constructor
  · intro h
    cases h with
    | marker hfind hknown hvalue hrest =>
      exact ⟨_, _, _, _, hfind, hknown, hvalue, hrest, rfl⟩
  · rintro ⟨entry, value, v, t, hfind, hknown, hvalue, hrest, rfl⟩
    exact .marker hfind hknown hvalue hrest

theorem expands_cons {m : Markers} {b : UInt8} {rest w : Text}
    (h : Marker.digits? (b :: rest) = none) :
    m.Expands (b :: rest) w ↔ ∃ t, w = b :: t ∧ m.Expands rest t := by
  unfold Expands
  rw [Marker.pieces_cons b rest h]
  exact expandsTo_addByte

theorem expands_nil {m : Markers} {w : Text} : m.Expands [] w ↔ w = [] := by
  constructor
  · intro h
    cases h
    rfl
  · rintro rfl
    exact .nil

/-- A text expands on both sides of a byte that no marker holds. -/
theorem expands_append_break {m : Markers} {b : UInt8} (hb : Marker.breaks b = true)
    (l r w : Text) :
    m.Expands (l ++ b :: r) w ↔ ∃ v u, m.Expands l v ∧ m.Expands r u ∧ w = v ++ b :: u := by
  -- a marker takes several bytes at once, so the induction is on the length
  induction hlen : l.length using Nat.strongRecOn generalizing l w with
  | _ n ih =>
    cases hfront : Marker.digits? l with
    | some digits =>
      obtain ⟨hne, hdigits, rest, rfl⟩ := Marker.eq_of_digits? hfront
      have hfull : 0 < Marker.front.length := by decide
      have hshort : rest.length < n := by
        rw [← hlen, List.length_append, List.length_append, List.length_append]
        omega
      unfold Expands
      rw [List.append_assoc, Marker.pieces_marker hne hdigits, Marker.pieces_marker hne hdigits,
        expandsTo_marker]
      constructor
      · rintro ⟨entry, value, v, t, hfind, hknown, hvalue, hrest, rfl⟩
        obtain ⟨v', u, hl, hr, rfl⟩ := (ih _ hshort rest t rfl).mp hrest
        exact ⟨v ++ v', u, .marker hfind hknown hvalue hl, hr, by simp⟩
      · rintro ⟨v, u, hl, hr, rfl⟩
        obtain ⟨entry, value, v, t, hfind, hknown, hvalue, hrest, rfl⟩ := expandsTo_marker.mp hl
        refine ⟨entry, value, v, t ++ b :: u, hfind, hknown, hvalue, ?_, by simp⟩
        exact (ih _ hshort rest _ rfl).mpr ⟨t, u, hrest, hr, rfl⟩
    | none =>
      have hboth := (Marker.digits?_append hb l r).trans hfront
      cases l with
      | nil =>
        rw [List.nil_append] at hboth ⊢
        rw [expands_cons hboth]
        constructor
        · rintro ⟨t, rfl, h⟩
          exact ⟨[], t, .nil, h, rfl⟩
        · rintro ⟨v, u, hl, hr, rfl⟩
          rw [expands_nil.mp hl]
          exact ⟨u, rfl, hr⟩
      | cons a l =>
        rw [List.cons_append] at hboth ⊢
        rw [expands_cons hboth]
        have hshort : l.length < n := by
          rw [← hlen]
          exact Nat.lt_succ_self _
        constructor
        · rintro ⟨t, rfl, h⟩
          obtain ⟨v, u, hl, hr, rfl⟩ := (ih _ hshort l t rfl).mp h
          exact ⟨a :: v, u, (expands_cons hfront).mpr ⟨v, rfl, hl⟩, hr, rfl⟩
        · rintro ⟨v, u, hl, hr, rfl⟩
          obtain ⟨v, rfl, hrest⟩ := (expands_cons hfront).mp hl
          exact ⟨v ++ b :: u, rfl, (ih _ hshort l _ rfl).mpr ⟨v, u, hrest, hr, rfl⟩⟩

/-- A marker stands for what its meaning stands for. -/
theorem expands_marker {m : Markers} {n : Nat} {w : Text} :
    m.Expands (Marker.text n) w ↔
      ∃ entry value, m.find? n = some entry ∧ entry.meaning = .known value ∧ m.Expands value w := by
  obtain ⟨hne, hdigits⟩ := Text.isDigitByte_ofNat n
  have hpieces : pieces (Marker.text n) = [.marker (Text.ofNat n)] := by
    have h := Marker.pieces_marker hne hdigits []
    rwa [List.append_nil, Marker.pieces_nil] at h
  unfold Expands
  rw [hpieces, expandsTo_marker, Text.digitsValue_ofNat]
  constructor
  · rintro ⟨entry, value, v, t, hfind, hknown, hvalue, hrest, rfl⟩
    cases hrest
    exact ⟨entry, value, hfind, hknown, by rwa [List.append_nil]⟩
  · rintro ⟨entry, value, hfind, hknown, hvalue⟩
    exact ⟨entry, value, w, [], hfind, hknown, hvalue, .nil, by simp⟩

/-- A text without a dash stands for itself. -/
theorem expands_of_noDash {m : Markers} {t : Text} (h : '-'.toUInt8 ∉ t) : m.Expands t t := by
  induction t with
  | nil => exact .nil
  | cons b rest ih =>
    obtain ⟨hb, hrest⟩ := not_or.mp fun hor => h (List.mem_cons.mpr hor)
    have hnone : Marker.digits? (b :: rest) = none := by
      cases hfront : Marker.digits? (b :: rest) with
      | none => rfl
      | some digits =>
        obtain ⟨-, -, behind, heq⟩ := Marker.eq_of_digits? hfront
        exact absurd (List.cons.inj heq).1.symm hb
    exact (expands_cons hnone).mpr ⟨rest, rfl, ih hrest⟩

/-- What stands between texts without dashes, told apart from them, expands on its own. -/
theorem expands_between {m : Markers} {a b : UInt8} (ha : Marker.breaks a = true)
    (hb : Marker.breaks b = true) {l r : Text} (hl : '-'.toUInt8 ∉ l) (hr : '-'.toUInt8 ∉ r)
    (t w : Text) :
    m.Expands (l ++ a :: (t ++ b :: r)) w ↔ ∃ v, m.Expands t v ∧ w = l ++ a :: (v ++ b :: r) := by
  rw [expands_append_break ha]
  constructor
  · rintro ⟨front, rest, hfront, hrest, rfl⟩
    obtain ⟨v, back, hv, hback, rfl⟩ := (expands_append_break hb t r rest).mp hrest
    rw [hfront.unique (expands_of_noDash hl), hback.unique (expands_of_noDash hr)]
    exact ⟨v, hv, rfl⟩
  · rintro ⟨v, hv, rfl⟩
    refine ⟨l, v ++ b :: r, expands_of_noDash hl, ?_, rfl⟩
    exact (expands_append_break hb t r _).mpr ⟨v, r, hv, expands_of_noDash hr, rfl⟩

/-- A literal expands between its quotes. -/
theorem expands_quoted {m : Markers} (t w : Text) :
    m.Expands ("\"" ++ t ++ "\"") w ↔ ∃ v, m.Expands t v ∧ w = "\"" ++ v ++ "\"" := by
  have hshape : ∀ t : Text, "\"" ++ t ++ "\"" = ([] ++ 0x22 :: (t ++ 0x22 :: []) : Text) :=
    fun _ => rfl
  simp only [hshape]
  exact expands_between (by decide) (by decide) (by decide) (by decide) t w

/-! ## Weaving -/

/-- Every marker stands for a text. -/
def Fixed (m : Markers) : Prop := ∀ e ∈ m.entries, ∃ value, e.2.meaning = .known value

theorem find?_mem {m : Markers} {id : Nat} {entry : MarkerEntry} (h : m.find? id = some entry) :
    (id, entry) ∈ m.entries := by
  obtain ⟨before, after, hentries, -⟩ := List.lookup_eq_some_iff.mp h
  rw [hentries]
  exact List.mem_append_right _ List.mem_cons_self

theorem Fixed.known {m : Markers} (h : m.Fixed) {id : Nat} {entry : MarkerEntry}
    (hfind : m.find? id = some entry) : id ∈ m.entries.map (·.1) ∧
      ∃ value, entry.meaning = .known value :=
  ⟨List.mem_map.mpr ⟨_, find?_mem hfind, rfl⟩, h _ (find?_mem hfind)⟩

/-- The markers whose meaning is being woven are different markers of the table, and there is depth
left for all the others. -/
structure Within (m : Markers) (depth : Nat) (active : List Nat) : Prop where
  nodup : active.Nodup
  known : active ⊆ m.entries.map (·.1)
  depth : m.entries.length < depth + active.length

theorem Within.pos {m : Markers} {depth : Nat} {active : List Nat} (h : m.Within depth active) :
    0 < depth := by
  have hle := (List.subperm_of_subset h.nodup h.known).length_le
  rw [List.length_map] at hle
  have := h.depth
  omega

theorem Within.deeper {m : Markers} {depth id : Nat} {active : List Nat}
    (h : m.Within (depth + 1) active) (hid : id ∈ m.entries.map (·.1)) (hnew : id ∉ active) :
    m.Within depth (id :: active) := by
  refine ⟨List.nodup_cons.mpr ⟨hnew, h.nodup⟩, List.cons_subset.mpr ⟨hid, h.known⟩, ?_⟩
  have := h.depth
  rw [List.length_cons]
  omega

/-- The text of one piece, its markers replaced. -/
def weavePiece (depth : Nat) (active : List Nat) (piece : Piece) : Work Markers Text := do
  match piece with
  | .plain run => return run
  | .marker digits =>
    let id := Text.digitsValue digits
    if Marker.maxId < id then failAt none (.malformedMarker piece.text)
    if active.contains id then failAt none (.circularMarker id)
    let value ← valueOf id
    let woven ← weaveWithin depth (id :: active) value
    modify fun m => { m with woven := m.woven + 1 }
    return woven

theorem weaveWithin_succ (depth : Nat) (active : List Nat) (t : Text) :
    weaveWithin (depth + 1) active t =
      (do return (← (pieces t).mapM (weavePiece depth active)).flatten) := rfl

/-! ## Markers that are read -/

/-- Weaving the text comes by a marker. -/
inductive Reads (m : Markers) (id : Nat) : Text → Prop
  | here {t digits : Text} :
      .marker digits ∈ pieces t → Text.digitsValue digits = id → Reads m id t
  | through {t digits value : Text} {entry : MarkerEntry} :
      .marker digits ∈ pieces t → m.find? (Text.digitsValue digits) = some entry →
      entry.meaning = .known value → Reads m id value → Reads m id t

theorem ExpandsTo.mem {m : Markers} {ps : List Piece} {woven digits : Text}
    (h : ExpandsTo m ps woven) (hmem : .marker digits ∈ ps) :
    ∃ entry value v, m.find? (Text.digitsValue digits) = some entry ∧
      entry.meaning = .known value ∧ m.Expands value v ∧ v <:+: woven := by
  induction h with
  | nil => simp at hmem
  | plain _ ih =>
    obtain ⟨entry, value, v, hfind, hknown, hv, hinfix⟩ := ih (by simpa using hmem)
    exact ⟨entry, value, v, hfind, hknown, hv, hinfix.trans (List.suffix_append _ _).isInfix⟩
  | marker hfind hknown hvalue _ _ ih =>
    rcases List.mem_cons.mp hmem with heq | hmem
    · cases heq
      exact ⟨_, _, _, hfind, hknown, hvalue, (List.prefix_append _ _).isInfix⟩
    · obtain ⟨entry, value, v, hfind, hknown, hv, hinfix⟩ := ih hmem
      exact ⟨entry, value, v, hfind, hknown, hv, hinfix.trans (List.suffix_append _ _).isInfix⟩

/-- What a marker that is read stands for is part of what the text stands for. -/
theorem Reads.infix {m : Markers} {id : Nat} {t woven : Text} (h : m.Reads id t)
    (hwoven : m.Expands t woven) :
    ∃ entry value v, m.find? id = some entry ∧ entry.meaning = .known value ∧
      m.Expands value v ∧ v <:+: woven := by
  induction h generalizing woven with
  | here hmem hid =>
    subst hid
    exact ExpandsTo.mem hwoven hmem
  | through hmem hfind hknown _ ih =>
    obtain ⟨entry, value, v, hfind', hknown', hv, hinfix⟩ := ExpandsTo.mem hwoven hmem
    rw [hfind] at hfind'
    cases hfind'
    rw [hknown] at hknown'
    cases hknown'
    obtain ⟨entry, value, u, hfind, hknown, hu, hinner⟩ := ih hv
    exact ⟨entry, value, u, hfind, hknown, hu, hinner.trans hinfix⟩

end ViewBinder.Markers

namespace ViewBinder

/-! ## No marker straddles the end of a literal -/

theorem Marker.noDigit_front : ∀ b ∈ front, Text.isDigitByte b = false :=
  forall_of_all (by decide)

theorem Marker.digits?_none {t : Text} (h : ¬ front <+: t) : digits? t = none := by
  cases hdigits : digits? t with
  | none => rfl
  | some digits =>
    obtain ⟨-, -, rest, rfl⟩ := eq_of_digits? hdigits
    refine absurd ?_ h
    rw [List.append_assoc, List.append_assoc]
    exact List.prefix_append _ _

/-- A marker that follows a text does not lend it its beginning: the digits of a marker come after
its whole front, and the front has no digit. -/
theorem Marker.digits?_straddle {a : Text} (hne : a ≠ []) (ha : ¬ front <+: a) (more : Text) :
    digits? (a ++ (front ++ more)) = none := by
  cases hdigits : digits? (a ++ (front ++ more)) with
  | none => rfl
  | some digits =>
    obtain ⟨hdigitsne, hall, rest, heq⟩ := eq_of_digits? hdigits
    rw [List.append_assoc, List.append_assoc] at heq
    have hfront : front <+: a ++ (front ++ more) := ⟨_, heq.symm⟩
    obtain ⟨z, hz⟩ := (List.prefix_or_prefix_of_prefix hfront
      (List.prefix_append _ _)).resolve_left ha
    -- what is missing of the front stands at the beginning of the other one, and a digit follows it
    have hbehind : front ++ more = z ++ (digits ++ (back ++ rest)) := by
      refine (List.append_right_inj a).mp ?_
      rw [heq, ← List.append_assoc a z, hz]
    have hshort : z.length < front.length := by
      have hlength := congrArg List.length hz
      rw [List.length_append] at hlength
      have hpos := List.length_pos_of_ne_nil hne
      omega
    obtain ⟨d, ds, rfl⟩ := List.exists_cons_of_ne_nil hdigitsne
    have hd : d ∈ front := by
      have hat := congrArg (fun t : Text => t[z.length]?) hbehind
      simp only [List.getElem?_append_left hshort, List.getElem?_append_right (Nat.le_refl _),
        Nat.sub_self, List.cons_append, List.getElem?_cons_zero] at hat
      exact List.mem_of_getElem? hat
    have hdigit := List.all_eq_true.mp hall d List.mem_cons_self
    rw [noDigit_front d hd] at hdigit
    cases hdigit

namespace Markers

/-! ## Texts that stand for themselves -/

/-- A text expands behind a literal that nowhere begins like a marker. -/
theorem expands_literal_marker {m : Markers} {l : Text} (hl : ¬ Marker.front <:+: l)
    (more w : Text) :
    m.Expands (l ++ (Marker.front ++ more)) w ↔
      ∃ u, m.Expands (Marker.front ++ more) u ∧ w = l ++ u := by
  induction l generalizing w with
  | nil => simp
  | cons b l ih =>
    have hnone := Marker.digits?_straddle (List.cons_ne_nil b l) (fun h => hl h.isInfix) more
    have hrest := ih fun h => hl (h.trans (List.suffix_cons b l).isInfix)
    rw [List.cons_append] at hnone ⊢
    rw [expands_cons hnone]
    constructor
    · rintro ⟨t, rfl, ht⟩
      obtain ⟨u, hu, rfl⟩ := (hrest t).mp ht
      exact ⟨u, hu, rfl⟩
    · rintro ⟨u, hu, rfl⟩
      exact ⟨l ++ u, rfl, (hrest _).mpr ⟨u, hu, rfl⟩⟩

theorem expands_literal {m : Markers} {l : Text} (hl : ¬ Marker.front <:+: l) :
    m.Expands l l := by
  induction l with
  | nil => exact .nil
  | cons b l ih =>
    refine (expands_cons (Marker.digits?_none fun h => hl h.isInfix)).mpr ⟨l, rfl, ih ?_⟩
    exact fun h => hl (h.trans (List.suffix_cons b l).isInfix)

/-- A text without a marker stands for itself. -/
theorem expands_of_noMarker {m : Markers} {t : Text} (h : Marker.occursIn t = false) :
    m.Expands t t := by
  induction t with
  | nil => exact .nil
  | cons b rest ih =>
    rw [Marker.occursIn_eq_false] at h
    refine (expands_cons (h _ (List.suffix_refl _))).mpr ⟨rest, rfl, ih ?_⟩
    exact Marker.occursIn_eq_false.mpr fun s hs => h s (hs.trans (List.suffix_cons b rest))

/-- A marker expands apart from what comes behind it. -/
theorem expands_marker_append {m : Markers} {n : Nat} {rest w : Text} :
    m.Expands (Marker.text n ++ rest) w ↔
      ∃ v u, m.Expands (Marker.text n) v ∧ m.Expands rest u ∧ w = v ++ u := by
  obtain ⟨hne, hdigits⟩ := Text.isDigitByte_ofNat n
  unfold Expands Marker.text
  have halone := Marker.pieces_marker hne hdigits []
  rw [List.append_nil, Marker.pieces_nil] at halone
  rw [Marker.pieces_marker hne hdigits, halone]
  constructor
  · intro h
    cases h with
    | @marker _ value v t entry _ hfind hknown hvalue hrest =>
      refine ⟨v ++ [], t, .marker hfind hknown hvalue .nil, hrest, by rw [List.append_nil]⟩
  · rintro ⟨v, u, hv, hu, rfl⟩
    cases hv with
    | @marker _ value v t entry _ hfind hknown hvalue hnil =>
      cases hnil
      rw [List.append_nil]
      exact .marker hfind hknown hvalue hu

end Markers

end ViewBinder
