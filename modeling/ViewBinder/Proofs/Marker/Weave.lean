-- Weaving. What a text unfolds to is a tree of markers with runs of text between them; a text is
-- woven if the markers it leads to have a meaning and none of them leads back to itself, and then
-- every marker of the tree is replaced once. Texts that are woven alike stand for each other.
import ViewBinder.Proofs.Marker.Expand

namespace ViewBinder.Markers

open Marker (Piece pieces)

/-! ## Unfolding -/

/-- Pieces with every marker replaced by what its meaning unfolds to, and how many markers there
are in the tree of these replacements. -/
inductive Unfolds (m : Markers) : List Piece → Text → Nat → Prop
  | nil : Unfolds m [] [] 0
  | plain {run t : Text} {rest : List Piece} {n : Nat} :
      Unfolds m rest t n → Unfolds m (.plain run :: rest) (run ++ t) n
  | marker {digits value v t : Text} {entry : MarkerEntry} {rest : List Piece} {k n : Nat} :
      Text.digitsValue digits ≤ Marker.maxId → m.find? (Text.digitsValue digits) = some entry →
      entry.meaning = .known value → Unfolds m (pieces value) v k → Unfolds m rest t n →
      Unfolds m (.marker digits :: rest) (v ++ t) (k + 1 + n)

namespace Unfolds

variable {m : Markers} {ps : List Piece} {v w : Text} {k n : Nat}

theorem expandsTo (h : Unfolds m ps w n) : ExpandsTo m ps w := by
  induction h with
  | nil => exact .nil
  | plain _ ih => exact .plain ih
  | marker _ hfind hknown _ _ ihvalue ihrest => exact .marker hfind hknown ihvalue ihrest

/-- Pieces unfold one after the other. -/
theorem cons {p : Piece} (hp : Unfolds m [p] v k) (h : Unfolds m ps w n) :
    Unfolds m (p :: ps) (v ++ w) (k + n) := by
  cases hp with
  | plain hnil =>
    cases hnil
    rw [List.append_nil, Nat.zero_add]
    exact .plain h
  | marker hle hfind hknown hvalue hnil =>
    cases hnil
    rw [List.append_nil]
    exact .marker hle hfind hknown hvalue h

theorem count_unique (hv : Unfolds m ps v k) (hw : Unfolds m ps w n) : k = n := by
  induction hv generalizing w n with
  | nil =>
    cases hw
    rfl
  | plain _ ih =>
    cases hw with
    | plain hrest => exact ih hrest
  | marker _ hfind hknown _ _ ihvalue ihrest =>
    cases hw with
    | marker _ hfind' hknown' hvalue hrest =>
      rw [hfind] at hfind'
      cases hfind'
      rw [hknown] at hknown'
      cases hknown'
      rw [ihvalue hvalue, ihrest hrest]

theorem unique (hv : Unfolds m ps v k) (hw : Unfolds m ps w n) : v = w ∧ k = n :=
  ⟨hv.expandsTo.unique hw.expandsTo, hv.count_unique hw⟩

/-- A marker of the pieces has a meaning that unfolds to a smaller tree. -/
theorem mem {digits : Text} (h : Unfolds m ps w n) (hmem : .marker digits ∈ ps) :
    Text.digitsValue digits ≤ Marker.maxId ∧ ∃ entry value v k,
      m.find? (Text.digitsValue digits) = some entry ∧ entry.meaning = .known value ∧
      Unfolds m (pieces value) v k ∧ k < n := by
  induction h with
  | nil => cases hmem
  | plain _ ih => exact ih (by simpa using hmem)
  | marker hle hfind hknown hvalue _ _ ihrest =>
    rcases List.mem_cons.mp hmem with heq | hmem
    · cases heq
      exact ⟨hle, _, _, _, _, hfind, hknown, hvalue, by omega⟩
    · obtain ⟨hle', entry, value, v, k, hfind', hknown', hvalue', hlt⟩ := ihrest hmem
      exact ⟨hle', entry, value, v, k, hfind', hknown', hvalue', by omega⟩

/-- So has a marker that is read on the way. -/
theorem reads {t : Text} {id : Nat} (h : Unfolds m (pieces t) w n) (hreads : m.Reads id t) :
    id ≤ Marker.maxId ∧ ∃ entry value v k, m.find? id = some entry ∧
      entry.meaning = .known value ∧ Unfolds m (pieces value) v k ∧ k < n := by
  induction hreads generalizing w n with
  | here hmem hid =>
    subst hid
    exact h.mem hmem
  | through hmem hfind hknown _ ih =>
    obtain ⟨-, entry, value, v, k, hfind', hknown', hvalue, hlt⟩ := h.mem hmem
    rw [hfind] at hfind'
    cases hfind'
    rw [hknown] at hknown'
    cases hknown'
    obtain ⟨hle, entry, value, v, j, hfind, hknown, hvalue, hlt'⟩ := ih hvalue
    exact ⟨hle, entry, value, v, j, hfind, hknown, hvalue, Nat.lt_trans hlt' hlt⟩

end Unfolds

/-- No marker has a number too large to be read. -/
def Small (m : Markers) : Prop := ∀ e ∈ m.entries, e.1 ≤ Marker.maxId

/-- Pieces that expand unfold, if the numbers of their markers can be read. -/
theorem ExpandsTo.unfolds {m : Markers} (hsmall : m.Small) {ps : List Piece} {w : Text}
    (h : ExpandsTo m ps w) : ∃ n, Unfolds m ps w n := by
  induction h with
  | nil => exact ⟨0, .nil⟩
  | plain _ ih =>
    obtain ⟨n, hn⟩ := ih
    exact ⟨n, .plain hn⟩
  | marker hfind hknown _ _ ihvalue ihrest =>
    obtain ⟨k, hk⟩ := ihvalue
    obtain ⟨n, hn⟩ := ihrest
    exact ⟨k + 1 + n, .marker (hsmall _ (find?_mem hfind)) hfind hknown hk hn⟩

/-! ## Markers in the way -/

/-- No marker the text leads to has a meaning that is still to be worked out. -/
def Decided (m : Markers) (t : Text) : Prop :=
  ∀ id entry, m.Reads id t → m.find? id = some entry → ∃ value, entry.meaning = .known value

theorem Fixed.decided {m : Markers} (h : m.Fixed) (t : Text) : m.Decided t :=
  fun _ _ _ hfind => (h.known hfind).2

theorem Decided.through {m : Markers} {t digits value : Text} {entry : MarkerEntry}
    (h : m.Decided t) (hmem : .marker digits ∈ pieces t)
    (hfind : m.find? (Text.digitsValue digits) = some entry)
    (hknown : entry.meaning = .known value) : m.Decided value :=
  fun id entry hreads => h id entry (.through hmem hfind hknown hreads)

/-- A marker that is read stands in the way of weaving: its number is too large, it has no meaning,
its meaning is being woven already, or its meaning leads back to it. -/
def Stuck (m : Markers) (active : List Nat) (t : Text) : Prop :=
  ∃ id, m.Reads id t ∧ (Marker.maxId < id ∨ m.find? id = none ∨ id ∈ active ∨
    ∃ entry value, m.find? id = some entry ∧ entry.meaning = .known value ∧ m.Reads id value)

/-- What stands in the way of weaving a marker's meaning stands in the way of weaving the marker. -/
theorem Stuck.through {m : Markers} {active : List Nat} {t digits value : Text}
    {entry : MarkerEntry} (hmem : .marker digits ∈ pieces t)
    (hfind : m.find? (Text.digitsValue digits) = some entry) (hknown : entry.meaning = .known value)
    (h : m.Stuck (Text.digitsValue digits :: active) value) : m.Stuck active t := by
  obtain ⟨id, hreads, hway⟩ := h
  have hthrough := Reads.through hmem hfind hknown hreads
  rcases hway with hlarge | hnone | hactive | hback
  · exact ⟨id, hthrough, .inl hlarge⟩
  · exact ⟨id, hthrough, .inr (.inl hnone)⟩
  · rcases List.mem_cons.mp hactive with rfl | hactive
    · exact ⟨_, hthrough, .inr (.inr (.inr ⟨entry, value, hfind, hknown, hreads⟩))⟩
    · exact ⟨id, hthrough, .inr (.inr (.inl hactive))⟩
  · exact ⟨id, hthrough, .inr (.inr (.inr hback))⟩

/-- Every marker the text leads to has a number that can be read and a meaning, and none of them
leads back to itself. -/
structure Grounded (m : Markers) (t : Text) : Prop where
  small : ∀ id, m.Reads id t → id ≤ Marker.maxId
  known : ∀ id, m.Reads id t → ∃ entry value, m.find? id = some entry ∧
    entry.meaning = .known value
  acyclic : ∀ id entry value, m.Reads id t → m.find? id = some entry →
    entry.meaning = .known value → ¬ m.Reads id value

theorem Unfolds.grounded {m : Markers} {t w : Text} {n : Nat} (h : Unfolds m (pieces t) w n) :
    m.Grounded t where
  small _ hreads := (h.reads hreads).1
  known id hreads := by
    obtain ⟨-, entry, value, _, _, hfind, hknown, -⟩ := h.reads hreads
    exact ⟨entry, value, hfind, hknown⟩
  acyclic id entry value hreads hfind hknown hback := by
    obtain ⟨-, entry', value', v, k, hfind', hknown', hvalue, -⟩ := h.reads hreads
    rw [hfind] at hfind'
    cases hfind'
    rw [hknown] at hknown'
    cases hknown'
    -- a marker that led back to itself would unfold to a tree smaller than itself
    obtain ⟨-, entry', value', v', k', hfind', hknown', hvalue', hlt⟩ := hvalue.reads hback
    rw [hfind] at hfind'
    cases hfind'
    rw [hknown] at hknown'
    cases hknown'
    exact absurd (hvalue.count_unique hvalue') (Nat.ne_of_gt hlt)

theorem Grounded.not_stuck {m : Markers} {t : Text} (h : m.Grounded t) : ¬ m.Stuck [] t := by
  rintro ⟨id, hreads, hlarge | hnone | hactive | ⟨entry, value, hfind, hknown, hback⟩⟩
  · exact absurd (h.small id hreads) (Nat.not_le.mpr hlarge)
  · obtain ⟨entry, value, hfind, -⟩ := h.known id hreads
    rw [hnone] at hfind
    cases hfind
  · cases hactive
  · exact h.acyclic id entry value hreads hfind hknown hback

/-! ## Runs -/

section Runs

variable {m : Markers} {α β : Type}

/-- Work on a table that changes nothing but the count of what was woven, which grows by `n`. -/
def Counts (m : Markers) (w : Work Markers α) (a : α) (n : Nat) : Prop :=
  ∀ k, w.runOn { m with woven := k } = (.ok a, { m with woven := k + n })

/-- Work on a table that fails, whatever was woven before. -/
def Fails (m : Markers) (w : Work Markers α) : Prop :=
  ∀ k, ∃ e m', w.runOn { m with woven := k } = (.error e, m')

theorem counts_pure (a : α) : Counts m (pure a) a 0 := fun _ => rfl

theorem Counts.bind {w : Work Markers α} {f : α → Work Markers β} {a : α} {b : β} {n n' : Nat}
    (hw : Counts m w a n) (hf : Counts m (f a) b n') : Counts m (w >>= f) b (n + n') := by
  intro k
  rw [Work.runOn_bind, hw k]
  simp only
  rw [hf (k + n), Nat.add_assoc]

theorem Counts.bind_pure {w : Work Markers α} {f : α → β} {a : α} {n : Nat}
    (hw : Counts m w a n) : Counts m (do return f (← w)) (f a) n := by
  intro k
  rw [Work.runOn_bind, hw k]
  rfl

theorem Counts.not_fails {w : Work Markers α} {a : α} {n : Nat} (hw : Counts m w a n) :
    ¬ Fails m w := by
  intro hfails
  obtain ⟨e, m', hfail⟩ := hfails 0
  rw [hw 0] at hfail
  cases hfail

theorem Counts.bind_fails {w : Work Markers α} {f : α → Work Markers β} {a : α} {n : Nat}
    (hw : Counts m w a n) (hf : Fails m (f a)) : Fails m (w >>= f) := by
  intro k
  obtain ⟨e, m', hfail⟩ := hf (k + n)
  exact ⟨e, m', by rw [Work.runOn_bind, hw k]; exact hfail⟩

theorem Fails.bind {w : Work Markers α} {f : α → Work Markers β} (hw : Fails m w) :
    Fails m (w >>= f) := by
  intro k
  obtain ⟨e, m', hfail⟩ := hw k
  exact ⟨e, m', by rw [Work.runOn_bind, hfail]⟩

theorem counts_valueOf {id : Nat} {entry : MarkerEntry} {value : Text}
    (hfind : m.find? id = some entry) (hknown : entry.meaning = .known value) :
    Counts m (valueOf id) value 0 := by
  intro k
  have hfind' : ({ m with woven := k } : Markers).find? id = some entry := hfind
  unfold valueOf
  rw [Work.runOn_bind, Work.runOn_get]
  simp only [hfind', hknown]
  rfl

theorem fails_valueOf {id : Nat} (hnone : m.find? id = none) : Fails m (valueOf id) := by
  intro k
  have hnone' : ({ m with woven := k } : Markers).find? id = none := hnone
  unfold valueOf
  rw [Work.runOn_bind, Work.runOn_get]
  simp only [hnone']
  exact ⟨_, _, rfl⟩

variable {depth : Nat} {active : List Nat}

/-- A marker is woven if its meaning is, and counts one more. -/
theorem counts_weavePiece {digits value v : Text} {entry : MarkerEntry} {k : Nat}
    (hle : Text.digitsValue digits ≤ Marker.maxId) (hnew : Text.digitsValue digits ∉ active)
    (hfind : m.find? (Text.digitsValue digits) = some entry) (hknown : entry.meaning = .known value)
    (h : Counts m (weaveWithin depth (Text.digitsValue digits :: active) value) v k) :
    Counts m (weavePiece depth active (.marker digits)) v (k + 1) := by
  unfold weavePiece
  simp only [Nat.not_lt.mpr hle, if_false, List.contains_eq_mem, hnew, decide_false,
    Bool.false_eq_true]
  rw [← Nat.zero_add (k + 1)]
  exact (counts_valueOf hfind hknown).bind (h.bind fun _ => rfl)

/-- A marker is not woven if its meaning is not. -/
theorem fails_weavePiece {digits value : Text} {entry : MarkerEntry}
    (hfind : m.find? (Text.digitsValue digits) = some entry) (hknown : entry.meaning = .known value)
    (h : Fails m (weaveWithin depth (Text.digitsValue digits :: active) value)) :
    Fails m (weavePiece depth active (.marker digits)) := by
  unfold weavePiece
  simp only
  split
  · exact fun _ => ⟨_, _, rfl⟩
  · split
    · exact fun _ => ⟨_, _, rfl⟩
    · exact (counts_valueOf hfind hknown).bind_fails h.bind

/-- A piece is woven to what it unfolds to or fails because of a marker that stands in the way, if
that is how the meanings of the markers are woven. -/
theorem weavePiece_runs {t : Text} (hdecided : m.Decided t) {p : Piece} (hmem : p ∈ pieces t)
    (h : ∀ id value, id ∈ m.entries.map (·.1) → id ∉ active → m.Decided value →
      (m.Stuck (id :: active) value ∧ Fails m (weaveWithin depth (id :: active) value)) ∨
        ∃ w n, Unfolds m (pieces value) w n ∧
          Counts m (weaveWithin depth (id :: active) value) w n) :
    (m.Stuck active t ∧ Fails m (weavePiece depth active p)) ∨
      ∃ part n, Unfolds m [p] part n ∧ Counts m (weavePiece depth active p) part n := by
  cases p with
  | plain run =>
    exact .inr ⟨run ++ [], 0, .plain .nil, by rw [List.append_nil]; exact counts_pure run⟩
  | marker digits =>
    have hreads : m.Reads (Text.digitsValue digits) t := .here hmem rfl
    by_cases hle : Text.digitsValue digits ≤ Marker.maxId
    · by_cases hnew : Text.digitsValue digits ∈ active
      · refine .inl ⟨⟨_, hreads, .inr (.inr (.inl hnew))⟩, ?_⟩
        unfold weavePiece
        simp only [Nat.not_lt.mpr hle, if_false, List.contains_eq_mem, hnew, decide_true, if_true]
        exact fun _ => ⟨_, _, rfl⟩
      · cases hfind : m.find? (Text.digitsValue digits) with
        | none =>
          refine .inl ⟨⟨_, hreads, .inr (.inl hfind)⟩, ?_⟩
          unfold weavePiece
          simp only [Nat.not_lt.mpr hle, if_false, List.contains_eq_mem, hnew, decide_false,
            Bool.false_eq_true]
          exact (fails_valueOf hfind).bind
        | some entry =>
          obtain ⟨value, hknown⟩ := hdecided _ entry hreads hfind
          have hid : Text.digitsValue digits ∈ m.entries.map (·.1) :=
            List.mem_map.mpr ⟨_, find?_mem hfind, rfl⟩
          rcases h _ value hid hnew (hdecided.through hmem hfind hknown) with
            ⟨hstuck, hfails⟩ | ⟨v, k, hvalue, hcounts⟩
          · exact .inl ⟨hstuck.through hmem hfind hknown, fails_weavePiece hfind hknown hfails⟩
          · refine .inr ⟨v ++ [], k + 1, .marker hle hfind hknown hvalue .nil, ?_⟩
            rw [List.append_nil]
            exact counts_weavePiece hle hnew hfind hknown hcounts
    · have hlarge := Nat.not_le.mp hle
      refine .inl ⟨⟨_, hreads, .inl hlarge⟩, ?_⟩
      unfold weavePiece
      simp only [hlarge, if_true]
      exact fun _ => ⟨_, _, rfl⟩

/-- The pieces one after the other are woven to what they unfold to, unless one of them fails. -/
theorem mapM_runs {f : Piece → Work Markers Text} {ps : List Piece}
    (h : ∀ p ∈ ps, Fails m (f p) ∨ ∃ part n, Unfolds m [p] part n ∧ Counts m (f p) part n) :
    ((∃ p ∈ ps, Fails m (f p)) ∧ Fails m (ps.mapM f)) ∨
      ∃ parts n, Unfolds m ps parts.flatten n ∧ Counts m (ps.mapM f) parts n := by
  induction ps with
  | nil => exact .inr ⟨[], 0, .nil, counts_pure []⟩
  | cons p ps ih =>
    rw [List.mapM_cons]
    rcases h p List.mem_cons_self with hfails | ⟨part, k, hpart, hfirst⟩
    · exact .inl ⟨⟨p, List.mem_cons_self, hfails⟩, hfails.bind⟩
    · rcases ih fun q hq => h q (List.mem_cons_of_mem _ hq) with
        ⟨⟨q, hq, hfails⟩, hrest⟩ | ⟨parts, n, hparts, hrest⟩
      · exact .inl ⟨⟨q, List.mem_cons_of_mem _ hq, hfails⟩, hfirst.bind_fails hrest.bind⟩
      · exact .inr ⟨part :: parts, k + n, hpart.cons hparts, hfirst.bind hrest.bind_pure⟩

/-- Weaving gives what the text unfolds to, or fails because of a marker that stands in the way. -/
theorem weaveWithin_runs (hwithin : m.Within depth active) {t : Text} (hdecided : m.Decided t) :
    (m.Stuck active t ∧ Fails m (weaveWithin depth active t)) ∨
      ∃ w n, Unfolds m (pieces t) w n ∧ Counts m (weaveWithin depth active t) w n := by
  induction depth generalizing active t with
  | zero => exact absurd hwithin.pos (Nat.lt_irrefl 0)
  | succ depth ih =>
    have hpiece := fun p (hp : p ∈ pieces t) => weavePiece_runs hdecided hp
      fun id value hid hnew => ih (hwithin.deeper hid hnew)
    rw [weaveWithin_succ]
    rcases mapM_runs fun p hp => (hpiece p hp).imp_left And.right with
      ⟨⟨p, hp, hfails⟩, hrun⟩ | ⟨parts, n, hparts, hrun⟩
    · refine .inl ⟨?_, hrun.bind⟩
      rcases hpiece p hp with ⟨hstuck, -⟩ | ⟨part, n, -, hcounts⟩
      · exact hstuck
      · exact absurd hfails hcounts.not_fails
    · exact .inr ⟨parts.flatten, n, hparts, hrun.bind_pure⟩

/-! ## Depth -/

/-- Pieces that are woven alike one by one are woven alike one after the other. -/
theorem mapM_congr {f g : Piece → Work Markers Text} {ps : List Piece}
    (hkept : ∀ p ∈ ps, Fails m (f p) ∨ ∃ part n, Counts m (f p) part n)
    (hsame : ∀ p ∈ ps, ∀ k,
      (g p).runOn { m with woven := k } = (f p).runOn { m with woven := k }) (k : Nat) :
    (ps.mapM g).runOn { m with woven := k } = (ps.mapM f).runOn { m with woven := k } := by
  induction ps generalizing k with
  | nil => rfl
  | cons p ps ih =>
    rw [List.mapM_cons, List.mapM_cons, Work.runOn_bind, Work.runOn_bind,
      hsame p List.mem_cons_self k]
    rcases hkept p List.mem_cons_self with hfails | ⟨part, n, hcounts⟩
    · obtain ⟨e, m', hfail⟩ := hfails k
      rw [hfail]
    · rw [hcounts k]
      simp only [Work.runOn_bind]
      rw [ih (fun p hp => hkept p (List.mem_cons_of_mem _ hp))
        (fun p hp => hsame p (List.mem_cons_of_mem _ hp))]

/-- A piece is woven alike in one more level, if the meanings of the markers are. -/
theorem weavePiece_deeper (hfixed : m.Fixed)
    (h : ∀ id value, id ∈ m.entries.map (·.1) → id ∉ active → ∀ k,
      (weaveWithin (depth + 1) (id :: active) value).runOn { m with woven := k } =
        (weaveWithin depth (id :: active) value).runOn { m with woven := k }) (p : Piece) (k : Nat) :
    (weavePiece (depth + 1) active p).runOn { m with woven := k } =
      (weavePiece depth active p).runOn { m with woven := k } := by
  cases p with
  | plain run => rfl
  | marker digits =>
    unfold weavePiece
    simp only
    split
    · rfl
    · split
      · rfl
      · rename_i hnew
        rw [Work.runOn_bind, Work.runOn_bind]
        cases hfind : m.find? (Text.digitsValue digits) with
        | none =>
          obtain ⟨e, m', hfail⟩ := fails_valueOf hfind k
          rw [hfail]
        | some entry =>
          obtain ⟨hid, value, hknown⟩ := hfixed.known hfind
          rw [counts_valueOf hfind hknown k]
          simp only [Work.runOn_bind]
          rw [h _ value hid (by simpa using hnew)]

/-- Beyond the size of the table, depth makes no difference. -/
theorem weaveWithin_deeper (hfixed : m.Fixed) (hwithin : m.Within depth active) (t : Text)
    (k : Nat) : (weaveWithin (depth + 1) active t).runOn { m with woven := k } =
      (weaveWithin depth active t).runOn { m with woven := k } := by
  induction depth generalizing active t k with
  | zero => exact absurd hwithin.pos (Nat.lt_irrefl 0)
  | succ depth ih =>
    have hpiece := fun p (hp : p ∈ pieces t) => weavePiece_runs (hfixed.decided t) hp
      fun id value hid hnew => weaveWithin_runs (hwithin.deeper hid hnew)
    rw [weaveWithin_succ, weaveWithin_succ, Work.runOn_bind, Work.runOn_bind]
    rw [mapM_congr (fun p hp => (hpiece p hp).imp And.right fun ⟨part, n, hrun⟩ => ⟨part, n, hrun.2⟩)
      (fun p _ => weavePiece_deeper hfixed (fun id value hid hnew k =>
        ih (hwithin.deeper hid hnew) value k) p) k]

end Runs

/-! ## Weaving -/

variable {m : Markers}

/-- All markers of the table are left to be replaced. -/
theorem within_all (m : Markers) {depth : Nat} (h : m.entries.length < depth) :
    m.Within depth [] :=
  ⟨List.nodup_nil, List.nil_subset _, h⟩

theorem weaveWithin_beyond (hfixed : m.Fixed) {depth : Nat} (h : m.entries.length < depth)
    (t : Text) : (weaveWithin depth [] t).runOn m = (weave t).runOn m := by
  induction h with
  | refl => rfl
  | @step depth hdepth ih =>
    rw [← ih]
    exact weaveWithin_deeper hfixed (within_all m hdepth) t m.woven

theorem weave_runs {t : Text} (hdecided : m.Decided t) :
    (¬ m.Grounded t ∧ Fails m (weave t)) ∨
      ∃ w n, Unfolds m (pieces t) w n ∧ Counts m (weave t) w n := by
  refine (weaveWithin_runs (within_all m (Nat.lt_succ_self _)) hdecided).imp ?_ id
  exact fun ⟨hstuck, hfails⟩ => ⟨fun hgrounded => hgrounded.not_stuck hstuck, hfails⟩

/-- A text is woven exactly if the markers it leads to have a number that can be read and a meaning
and do not lead back to themselves; the depth to which markers are followed is of no account beyond
the size of the table. Every marker is replaced by what its meaning unfolds to, the runs between
them stay as they are, and as many markers are counted as there are in the tree. -/
theorem weave_unfolds_grounded_texts (hfixed : m.Fixed) (t : Text) :
    (∀ depth, m.entries.length < depth → (weaveWithin depth [] t).runOn m = (weave t).runOn m) ∧
    ((∃ woven m', (weave t).runOn m = (.ok woven, m')) ↔ m.Grounded t) ∧
    Marker.Scans t (pieces t) ∧
    ∀ woven m', (weave t).runOn m = (.ok woven, m') ↔
      ∃ n, m.Unfolds (pieces t) woven n ∧ m' = { m with woven := m.woven + n } := by
  refine ⟨fun depth h => weaveWithin_beyond hfixed h t, ?_, Marker.pieces_scans t, ?_⟩
  all_goals rcases weave_runs (hfixed.decided t) with ⟨hstuck, hfails⟩ | ⟨w, n, hunfolds, hcounts⟩
  · obtain ⟨e, m', hfail⟩ := hfails m.woven
    refine iff_of_false ?_ hstuck
    rintro ⟨woven, m'', hok⟩
    rw [hfail] at hok
    cases hok
  · exact iff_of_true ⟨_, _, hcounts m.woven⟩ hunfolds.grounded
  · obtain ⟨e, m', hfail⟩ := hfails m.woven
    intro woven m''
    rw [hfail]
    refine iff_of_false (fun hok => by cases hok) ?_
    rintro ⟨n, hunfolds, -⟩
    exact hstuck hunfolds.grounded
  · intro woven m'
    rw [hcounts m.woven]
    constructor
    · rintro ⟨⟩
      exact ⟨n, hunfolds, rfl⟩
    · rintro ⟨k, hunfolds', rfl⟩
      obtain ⟨rfl, rfl⟩ := hunfolds.unique hunfolds'
      rfl

/-- A marker that holds another one twice. -/
def nested : Markers where
  entries :=
    [(1, ⟨"a", none, .known "a"⟩),
      (2, ⟨"aa", none, .known "--token--1--end-token----token--1--end-token--"⟩)]

theorem nested_text_is_woven :
    nested.Fixed ∧ nested.Grounded "x--token--2--end-token--y" ∧
      nested.Unfolds (pieces "x--token--2--end-token--y") "xaay" 3 := by
  have hfixed : nested.Fixed := by
    intro e he
    rcases List.mem_pair.mp he with rfl | rfl <;> exact ⟨_, rfl⟩
  have hrun : (weave "x--token--2--end-token--y").runOn nested =
      (.ok "xaay", { nested with woven := 3 }) := rfl
  obtain ⟨-, hgrounded, -, hunfolds⟩ :=
    weave_unfolds_grounded_texts hfixed "x--token--2--end-token--y"
  refine ⟨hfixed, hgrounded.mp ⟨_, _, hrun⟩, ?_⟩
  obtain ⟨n, h, hcount⟩ := (hunfolds _ _).mp hrun
  cases (Nat.zero_add n).symm.trans (congrArg Markers.woven hcount).symm
  exact h

/-! ## Expansion -/

/-- Weaving gives what the text stands for, and changes no meaning. -/
theorem weave_expands {m' : Markers} {t woven : Text} (hfixed : m.Fixed)
    (hok : (weave t).runOn m = (.ok woven, m')) :
    m'.entries = m.entries ∧ m.Expands t woven := by
  rcases weave_runs (hfixed.decided t) with ⟨-, hfails⟩ | ⟨w, n, hunfolds, hcounts⟩
  · obtain ⟨e, m'', hfail⟩ := hfails m.woven
    rw [hfail] at hok
    cases hok
  · rw [hcounts m.woven] at hok
    cases hok
    exact ⟨rfl, hunfolds.expandsTo⟩

theorem Grounded.decided {t : Text} (h : m.Grounded t) : m.Decided t := by
  intro id entry hreads hfind
  obtain ⟨entry', value, hfind', hknown⟩ := h.known id hreads
  rw [hfind] at hfind'
  cases hfind'
  exact ⟨value, hknown⟩

/-- A text that expands is woven to what it expands to. -/
theorem weave_of_expands (hsmall : m.Small) {t w : Text} (h : m.Expands t w) :
    ∃ k, (weave t).runOn m = (.ok w, { m with woven := k }) := by
  obtain ⟨n, hunfolds⟩ := ExpandsTo.unfolds hsmall h
  have hgrounded := hunfolds.grounded
  rcases weave_runs hgrounded.decided with ⟨hstuck, -⟩ | ⟨w', k, hunfolds', hcounts⟩
  · exact absurd hgrounded hstuck
  · obtain ⟨rfl, -⟩ := hunfolds.unique hunfolds'
    exact ⟨_, hcounts m.woven⟩

/-! ## What a text stands for -/

/-- Weaving the text gives the other text. -/
def Weaves (m : Markers) (t woven : Text) : Prop := ∃ m', (weave t).runOn m = (.ok woven, m')

/-- The text is woven into what the value is woven into, which is the value itself if it holds no
marker. -/
def StandsFor (m : Markers) (t value : Text) : Prop :=
  (∀ w, m.Weaves t w ↔ m.Weaves value w) ∧ (Marker.occursIn value = false → m.Weaves t value)

variable {m : Markers} {t value : Text}

theorem weaves_of_expands (hsmall : m.Small) {w : Text} (h : m.Expands t w) : m.Weaves t w := by
  obtain ⟨k, hwoven⟩ := weave_of_expands hsmall h
  exact ⟨_, hwoven⟩

theorem weaves_iff_expands (hfixed : m.Fixed) (hsmall : m.Small) {w : Text} :
    m.Weaves t w ↔ m.Expands t w := by
  refine ⟨?_, weaves_of_expands hsmall⟩
  rintro ⟨m', hwoven⟩
  exact (weave_expands hfixed hwoven).2

theorem standsFor_self (hsmall : m.Small) (t : Text) : m.StandsFor t t := by
  refine ⟨fun _ => Iff.rfl, fun hplain => ?_⟩
  exact weaves_of_expands hsmall (expands_of_noMarker hplain)

theorem standsFor_of_expands (hfixed : m.Fixed) (hsmall : m.Small)
    (h : ∀ w, m.Expands t w ↔ m.Expands value w) : m.StandsFor t value := by
  have hsame : ∀ w, m.Weaves t w ↔ m.Weaves value w := by
    intro w
    rw [weaves_iff_expands hfixed hsmall, weaves_iff_expands hfixed hsmall, h]
  refine ⟨hsame, fun hplain => ?_⟩
  rw [hsame]
  exact weaves_of_expands hsmall (expands_of_noMarker hplain)

/-- A marker stands for its meaning. -/
theorem expands_meaning {n : Nat} {entry : MarkerEntry} (hfind : m.find? n = some entry)
    (hknown : entry.meaning = .known value) (w : Text) :
    m.Expands (Marker.text n) w ↔ m.Expands value w := by
  rw [expands_marker]
  constructor
  · rintro ⟨entry', value', hfind', hknown', hvalue⟩
    rw [hfind] at hfind'
    cases hfind'
    rw [hknown] at hknown'
    cases hknown'
    exact hvalue
  · exact fun hvalue => ⟨entry, value, hfind, hknown, hvalue⟩

/-- In front of a byte that no marker holds, and behind one, a text can be put for another. -/
theorem expands_replace {a b : UInt8} (ha : Marker.breaks a = true) (hb : Marker.breaks b = true)
    (h : ∀ w, m.Expands t w ↔ m.Expands value w) (l r w : Text) :
    m.Expands (l ++ a :: (t ++ b :: r)) w ↔ m.Expands (l ++ a :: (value ++ b :: r)) w := by
  simp only [expands_append_break ha, expands_append_break hb, h]

end ViewBinder.Markers
