-- Making fields by counting. Each field counts its needs that are not met. A field that is made
-- lowers the counts of those that need it, and one whose count comes down to nothing is ready; the
-- ready ones are sorted anew each time. The counts always tell how many needs are left, so the
-- order is the one that looking at all needs again and again gives.
import Mathlib.Data.List.Count
import Mathlib.Logic.Function.Basic
import ViewBinder.Proofs.Field.Construction

namespace ViewBinder

/-- How far making fields by counting is. -/
structure Countdown where
  /-- How many needs of a field are not met. -/
  unmet : FieldId → Nat
  /-- The fields that can be made now. -/
  ready : List FieldId
  made : List FieldId := []

namespace Countdown

/-- One need of a field is met. -/
def lower (c : Countdown) (id : FieldId) : Countdown :=
  let left := c.unmet id - 1
  { c with
    unmet := Function.update c.unmet id left
    ready := if left = 0 then c.ready ++ [id] else c.ready }

theorem made_lower_all (c : Countdown) (ids : List FieldId) : (ids.foldl lower c).made = c.made := by
  induction ids generalizing c with
  | nil => rfl
  | cons id rest ih => exact ih (c.lower id)

/-- What lowering some counts does, each as often as it stands in the list: the fields that become
ready are the ones that come down to nothing, and each is added once. -/
theorem lower_all (c : Countdown) (ids : List FieldId) (h : ∀ id, ids.count id ≤ c.unmet id) :
    (∀ id, (ids.foldl lower c).unmet id = c.unmet id - ids.count id) ∧
      ∃ added, (ids.foldl lower c).ready = c.ready ++ added ∧ added.Nodup ∧
        ∀ id, id ∈ added ↔ id ∈ ids ∧ (ids.foldl lower c).unmet id = 0 := by
  induction ids generalizing c with
  | nil => exact ⟨by simp, [], by simp, List.nodup_nil, by simp⟩
  | cons first rest ih =>
    have hfirst : 0 < c.unmet first := by
      have := h first
      simp only [List.count_cons_self] at this
      omega
    have hunmet : ∀ id, (c.lower first).unmet id =
        c.unmet id - if first = id then 1 else 0 := by
      intro id
      by_cases hid : first = id
      · simp [lower, hid]
      · simp [lower, hid, Function.update_of_ne (Ne.symm hid)]
    have hcount : ∀ id, (first :: rest).count id =
        rest.count id + if first = id then 1 else 0 := by
      intro id
      rw [List.count_cons]
      simp
    obtain ⟨hleft, added, hready, hnodup, hadded⟩ := ih (c.lower first) (by
      intro id
      have hle := h id
      rw [hcount] at hle
      rw [hunmet]
      omega)
    have hsum : ∀ id, (rest.foldl lower (c.lower first)).unmet id =
        c.unmet id - (first :: rest).count id := by
      intro id
      rw [hleft, hunmet, hcount]
      omega
    refine ⟨hsum, ?_⟩
    -- the first one is added now or, if it stands in the rest as well, not before then
    by_cases hdown : c.unmet first - 1 = 0
    · have hnone : first ∉ rest := by
        intro hmem
        have hpos := List.count_pos_iff.mpr hmem
        have hle := h first
        rw [List.count_cons_self] at hle
        omega
      refine ⟨first :: added, ?_, ?_, fun id => ?_⟩
      · rw [List.foldl_cons, hready]
        simp [lower, hdown]
      · exact List.nodup_cons.mpr ⟨fun hmem => hnone ((hadded first).mp hmem).1, hnodup⟩
      · rw [List.mem_cons, hadded, List.mem_cons]
        constructor
        · rintro (rfl | ⟨hmem, hzero⟩)
          · refine ⟨Or.inl rfl, ?_⟩
            rw [List.foldl_cons, hsum, List.count_cons_self]
            omega
          · exact ⟨Or.inr hmem, hzero⟩
        · rintro ⟨rfl | hmem, hzero⟩
          · exact Or.inl rfl
          · exact Or.inr ⟨hmem, hzero⟩
    · refine ⟨added, ?_, hnodup, fun id => ?_⟩
      · rw [List.foldl_cons, hready]
        simp [lower, hdown]
      · rw [hadded, List.mem_cons]
        constructor
        · rintro ⟨hmem, hzero⟩
          exact ⟨Or.inr hmem, hzero⟩
        · rintro ⟨rfl | hmem, hzero⟩
          · refine ⟨?_, hzero⟩
            rw [List.foldl_cons, hsum, List.count_cons_self] at hzero
            exact List.count_pos_iff.mp (by omega)
          · exact ⟨hmem, hzero⟩

end Countdown

namespace FieldTable

open Relation (TransGen)

variable {t : FieldTable}

/-- The fields of the table that one needs, need by need. -/
def needed (t : FieldTable) (id : FieldId) : List FieldId :=
  (t.field id).needs.filterMap t.byName?

/-- The fields that need one, in the order of their numbers, as often as they do. -/
def dependents (t : FieldTable) (id : FieldId) : List FieldId :=
  (List.range t.fields.size).flatMap fun other =>
    List.replicate ((t.needed other).count id) other

/-- Nothing is made yet, and the fields without needs are ready. -/
def countdownStart (t : FieldTable) : Countdown where
  unmet id := (t.needed id).length
  ready := (List.range t.fields.size).filter fun id => (t.needed id).length = 0

/-- Makes the first field that is ready, again and again. -/
def countDown (t : FieldTable) : Nat → Countdown → Countdown
  | 0, c => c
  | fuel + 1, c =>
    match sortBy t.precedes c.ready with
    | [] => c
    | next :: rest =>
      countDown t fuel
        ((t.dependents next).foldl Countdown.lower { c with ready := rest, made := c.made ++ [next] })

/-- The fields in the order in which counting makes them, or those whose counts are left. -/
def countedOrder (t : FieldTable) : Except Problem (List FieldId) :=
  let c := t.countDown t.fields.size t.countdownStart
  if c.made.length = t.fields.size then .ok c.made
  else .error (.fieldCycle
    (((List.range t.fields.size).filter fun id => 0 < c.unmet id).map fun id => (t.field id).name))

/-! ## One order only -/

theorem place_injective (t : FieldTable) : Function.Injective t.place := by
  intro a b h
  have hpair := congrArg ofLex h
  simp only [place, ofLex_toLex, Prod.mk.injEq] at hpair
  exact hpair.2

/-- As long as an order goes on, one that ends only when no field is ready goes the same way. -/
theorem Least.front {a b : List FieldId} (ha : t.Least a) (hb : t.Least b)
    (hend : ∀ id, ¬ t.Ready b id) : a <+: b := by
  have hall : ∀ front, front <+: a → front <+: b := by
    intro front
    induction front using List.reverseRecOn with
    | nil => exact fun _ => List.nil_prefix
    | append_singleton front id ih =>
      rintro ⟨rest, hrest⟩
      rw [List.append_assoc, List.singleton_append] at hrest
      obtain ⟨hready, hleast⟩ := ha front id rest hrest.symm
      obtain ⟨others, rfl⟩ := ih ⟨id :: rest, hrest⟩
      cases others with
      | nil =>
        rw [List.append_nil] at hend
        exact absurd hready (hend id)
      | cons other others =>
        obtain ⟨hready', hleast'⟩ := hb front other others rfl
        have hsame : id = other :=
          t.place_injective (le_antisymm (hleast other hready') (hleast' id hready))
        subst hsame
        exact ⟨others, by simp⟩
  exact hall a List.prefix_rfl

theorem Least.inside {made : List FieldId} (h : t.Least made) :
    made.Nodup ∧ ∀ id ∈ made, id < t.fields.size := by
  induction made using List.reverseRecOn with
  | nil => simp
  | append_singleton made id ih =>
    obtain ⟨hlt, hnot, -⟩ := (h made id [] rfl).1
    obtain ⟨hnodup, hinside⟩ := ih fun before x after heq => h before x (after ++ [id]) (by simp [heq])
    refine ⟨?_, ?_⟩
    · rw [List.nodup_append]
      refine ⟨hnodup, List.nodup_singleton id, ?_⟩
      rintro x hx y hy rfl
      rw [List.mem_singleton] at hy
      exact hnot (hy ▸ hx)
    · intro x hx
      rcases List.mem_append.mp hx with hx | hx
      · exact hinside x hx
      · rw [List.mem_singleton.mp hx]
        exact hlt

/-- An order that is as long as the table holds every field. -/
theorem Least.mem_of_size_le {made : List FieldId} (h : t.Least made)
    (hsize : t.fields.size ≤ made.length) {id : FieldId} (hid : id < t.fields.size) : id ∈ made := by
  obtain ⟨hnodup, hinside⟩ := h.inside
  have hsub : made ⊆ List.range t.fields.size := fun x hx => List.mem_range.mpr (hinside x hx)
  have hperm := (List.subperm_of_subset hnodup hsub).perm_of_length_le (by
    rw [List.length_range]
    exact hsize)
  exact hperm.mem_iff.mpr (List.mem_range.mpr hid)

theorem Least.unique {a b : List FieldId} (ha : t.Least a) (hb : t.Least b)
    (hend : ∀ id, ¬ t.Ready a id) (hend' : ∀ id, ¬ t.Ready b id) : a = b := by
  have hab := ha.front hb hend'
  exact hab.eq_of_length (Nat.le_antisymm hab.length_le (hb.front ha hend).length_le)

/-! ## The counts -/

theorem mem_needed {id other : FieldId} : other ∈ t.needed id ↔ t.Needs id other := by
  unfold needed Needs
  rw [List.mem_filterMap]

theorem count_dependents {id other : FieldId} :
    (t.dependents id).count other =
      if other < t.fields.size then (t.needed other).count id else 0 := by
  unfold dependents
  induction t.fields.size with
  | zero => rfl
  | succ n ih =>
    rw [List.range_succ, List.flatMap_append, List.count_append, ih, List.flatMap_singleton,
      List.count_replicate]
    by_cases hlast : n = other
    · subst hlast
      simp
    · by_cases hlt : other < n
      · simp [hlast, hlt, Nat.lt_succ_of_lt hlt]
      · have hout : ¬ other < n + 1 := fun hle => by
          rcases Nat.lt_succ_iff_lt_or_eq.mp hle with h | h
          · exact hlt h
          · exact hlast h.symm
        simp [hlast, hlt, hout]

/-- The needs of a field that are not met. -/
def unmet (t : FieldTable) (made : List FieldId) (id : FieldId) : List FieldId :=
  (t.needed id).filter fun other => !made.contains other

/-- The needs for a field that is not made are among those that are not met. -/
theorem count_unmet {made : List FieldId} {next : FieldId} (hnext : next ∉ made) (id : FieldId) :
    (t.unmet made id).count next = (t.needed id).count next := by
  unfold unmet
  exact List.count_filter (by simpa using hnext)

theorem unmet_snoc {made : List FieldId} {next : FieldId} (hnext : next ∉ made) (id : FieldId) :
    (t.unmet (made ++ [next]) id).length =
      (t.unmet made id).length - (t.needed id).count next := by
  have hsplit : t.unmet (made ++ [next]) id = (t.unmet made id).filter fun other => !other == next := by
    unfold unmet
    rw [List.filter_filter]
    apply List.filter_congr
    intro other _
    rw [Bool.eq_iff_iff]
    simp
    tauto
  rw [hsplit, ← count_unmet hnext, List.count_eq_length_filter,
    List.length_eq_length_filter_add (l := t.unmet made id) (· == next)]
  omega

/-- The counts are the numbers of needs that are not met, and the ready fields are those that could
be made next. -/
structure Counting (t : FieldTable) (c : Countdown) : Prop where
  unmet : ∀ id < t.fields.size, c.unmet id = (t.unmet c.made id).length
  ready : ∀ id, id ∈ c.ready ↔ t.Ready c.made id
  nodup : c.ready.Nodup
  least : t.Least c.made

theorem ready_iff_unmet {made : List FieldId} {id : FieldId} :
    t.Ready made id ↔ id < t.fields.size ∧ id ∉ made ∧ (t.unmet made id).length = 0 := by
  unfold Ready unmet
  rw [List.length_eq_zero_iff, List.filter_eq_nil_iff]
  simp [mem_needed]

theorem counting_start (t : FieldTable) : t.Counting t.countdownStart where
  unmet id _ := by
    unfold FieldTable.unmet
    simp [countdownStart]
  ready id := by
    rw [ready_iff_unmet]
    unfold FieldTable.unmet
    simp [countdownStart]
  nodup := List.nodup_range.filter _
  least := by
    intro before id after h
    simp [countdownStart] at h

/-- Making the first ready field keeps the counts right. -/
theorem Counting.next {c : Countdown} (h : t.Counting c) {next : FieldId} {rest : List FieldId}
    (hsorted : sortBy t.precedes c.ready = next :: rest) :
    t.Counting ((t.dependents next).foldl Countdown.lower
      { c with ready := rest, made := c.made ++ [next] }) := by
  have hperm : (next :: rest).Perm c.ready := hsorted ▸ sortBy_perm _ _
  have hpairs := hsorted ▸ sortBy_pairwise t.precedes c.ready
  obtain ⟨hfirst, -⟩ := List.pairwise_cons.mp hpairs
  obtain ⟨hnot, hnodup⟩ := List.nodup_cons.mp (hperm.nodup_iff.mpr h.nodup)
  have hnext : t.Ready c.made next := (h.ready next).mp (hperm.mem_iff.mp List.mem_cons_self)
  have hrest : ∀ id, id ∈ rest ↔ id ≠ next ∧ t.Ready c.made id := by
    intro id
    rw [← h.ready, ← hperm.mem_iff, List.mem_cons]
    constructor
    · intro hid
      exact ⟨fun heq => hnot (heq ▸ hid), Or.inr hid⟩
    · rintro ⟨hne, hid⟩
      exact hid.resolve_left hne
  have hcount : ∀ id, (t.dependents next).count id ≤ c.unmet id := by
    intro id
    rw [count_dependents]
    split
    · rename_i hlt
      rw [h.unmet id hlt]
      rw [← count_unmet hnext.2.1]
      exact List.count_le_length
    · exact Nat.zero_le _
  have hmade := Countdown.made_lower_all { c with ready := rest, made := c.made ++ [next] }
    (t.dependents next)
  obtain ⟨hunmet, added, hready, hadds, hadded⟩ := Countdown.lower_all
    { c with ready := rest, made := c.made ++ [next] } (t.dependents next) hcount
  have hleft : ∀ id < t.fields.size, ((t.dependents next).foldl Countdown.lower
      { c with ready := rest, made := c.made ++ [next] }).unmet id =
        (t.unmet (c.made ++ [next]) id).length := by
    intro id hlt
    rw [hunmet, count_dependents, if_pos hlt, unmet_snoc hnext.2.1, ← h.unmet id hlt]
  have hdependent : ∀ id, id ∈ t.dependents next ↔ t.Needs id next := by
    intro id
    rw [← List.count_pos_iff, count_dependents, ← mem_needed, ← List.count_pos_iff]
    split
    · exact Iff.rfl
    · rename_i hout
      constructor
      · intro hpos
        omega
      · intro hpos
        exact absurd (mem_needed.mp (List.count_pos_iff.mp hpos)).lt.1 hout
  refine ⟨?_, fun id => ?_, ?_, ?_⟩
  · rw [hmade]
    exact hleft
  · rw [hmade, hready, List.mem_append, hrest, hadded, hdependent, ready_iff_unmet, ready_iff_unmet]
    constructor
    · rintro (⟨hne, hlt, hwait, hzero⟩ | ⟨hneeds, hzero⟩)
      · refine ⟨hlt, by simp [hwait, hne], ?_⟩
        rw [unmet_snoc hnext.2.1]
        omega
      · rw [hleft id hneeds.lt.1] at hzero
        refine ⟨hneeds.lt.1, ?_, hzero⟩
        -- a field that was made before, or is made now, does not need this one
        intro hmem
        rcases List.mem_append.mp hmem with hold | hlast
        · exact hnext.2.1 (h.least.idxOf_lt hold hneeds).1
        · rw [List.mem_singleton] at hlast
          subst hlast
          exact hnext.2.1 (hnext.2.2 id hneeds)
    · rintro ⟨hlt, hmem, hzero⟩
      simp only [List.mem_append, List.mem_singleton, not_or] at hmem
      by_cases hneeds : t.Needs id next
      · exact Or.inr ⟨hneeds, (hleft id hlt).trans hzero⟩
      · refine Or.inl ⟨hmem.2, hlt, hmem.1, ?_⟩
        rw [unmet_snoc hnext.2.1, List.count_eq_zero_of_not_mem (mem_needed.not.mpr hneeds)] at hzero
        exact hzero
  · rw [hready]
    refine List.nodup_append.mpr ⟨hnodup, hadds, ?_⟩
    rintro id hid _ hadd rfl
    exact hnext.2.1 (((hrest id).mp hid).2.2.2 next ((hdependent id).mp ((hadded id).mp hadd).1))
  · rw [hmade]
    refine forall_split_snoc h.least ⟨hnext, fun other hother => ?_⟩
    by_cases hsame : other = next
    · rw [hsame]
    · exact precedes_iff.mp (hfirst other ((hrest other).mpr ⟨hsame, hother⟩))

/-- Counting goes on until no field is ready. -/
theorem Counting.run {c : Countdown} (h : t.Counting c) {fuel : Nat}
    (hfuel : t.fields.size ≤ c.made.length + fuel) :
    t.Counting (t.countDown fuel c) ∧ ∀ id, ¬ t.Ready (t.countDown fuel c).made id := by
  induction fuel generalizing c with
  | zero =>
    refine ⟨h, ?_⟩
    rintro id ⟨hlt, hnot, -⟩
    exact hnot (h.least.mem_of_size_le hfuel hlt)
  | succ fuel ih =>
    unfold countDown
    split
    · rename_i hnone
      refine ⟨h, fun id hready => ?_⟩
      have hmem := (sortBy_perm t.precedes c.ready).mem_iff.mpr ((h.ready id).mpr hready)
      rw [hnone] at hmem
      cases hmem
    · rename_i next rest hsorted
      apply ih (h.next hsorted)
      rw [Countdown.made_lower_all, List.length_append, List.length_singleton]
      omega

/-- Counting makes the fields in the same order, and what it lists when it stops early are the same
fields. -/
theorem countedOrder_eq (t : FieldTable) : t.countedOrder = t.constructionOrder := by
  have hfuel : t.fields.size ≤ t.countdownStart.made.length + t.fields.size :=
    Nat.le_add_left _ _
  obtain ⟨hcounting, hend⟩ := t.counting_start.run hfuel
  obtain ⟨made, left, hmaking, hstuck, horder⟩ := t.constructionOrder_cases
  rw [horder]
  unfold countedOrder
  generalize t.countDown t.fields.size t.countdownStart = c at hcounting hend
  have hsame : c.made = made := by
    refine hcounting.least.unique hmaking.least hend ?_
    rintro id ⟨hlt, hnot, hneeds⟩
    have hwaits := hstuck id ((hmaking.mem_iff id).mpr ⟨hlt, hnot⟩)
    rw [isReady_iff.mpr hneeds] at hwaits
    cases hwaits
  have hlength : made.length = t.fields.size ↔ left = [] := by
    have hall := hmaking.all.length_eq
    rw [List.length_append, List.length_range] at hall
    rw [← List.length_eq_zero_iff]
    omega
  have hleft : (List.range t.fields.size).filter (fun id => 0 < c.unmet id) =
      (List.range t.fields.size).filter left.contains := by
    apply List.filter_congr
    intro id hid
    have hlt := List.mem_range.mp hid
    rw [Bool.eq_iff_iff, decide_eq_true_iff, List.contains_iff_mem, hmaking.mem_iff,
      hcounting.unmet id hlt, hsame]
    have hready := hend id
    rw [hsame, ready_iff_unmet] at hready
    constructor
    · intro hpos
      refine ⟨hlt, fun hmade => ?_⟩
      -- all that a field which was made needs was made
      have hnone : t.unmet made id = [] := by
        unfold FieldTable.unmet
        rw [List.filter_eq_nil_iff]
        intro other hneeds
        simpa using (hmaking.least.idxOf_lt hmade (mem_needed.mp hneeds)).1
      rw [hnone] at hpos
      cases hpos
    · rintro ⟨-, hnot⟩
      by_contra hzero
      exact hready ⟨hlt, hnot, by omega⟩
  simp only [hsame, hlength, hleft]

/-- Counting gives the order of construction. There is one exactly if no field needs itself in a
circle. It holds every field once, and at each place stands the first, by class and number, of all
fields that are not made before and whose needs all are. If there is none, the problem names the
fields on a circle and those that need one, in the order of their numbers. -/
theorem fields_are_made_in_the_least_order (t : FieldTable) :
    t.countedOrder = t.constructionOrder ∧
      ((∃ order, t.constructionOrder = .ok order) ↔ ∀ id, ¬ TransGen t.Needs id id) ∧
      (∀ order, t.constructionOrder = .ok order →
        order.Perm (List.range t.fields.size) ∧ t.Least order) ∧
      ∀ p, t.constructionOrder = .error p → p.kind = .symbol ∧
        ∃ ids : List FieldId, p = .fieldCycle (ids.map fun id => (t.field id).name) ∧
          ids.Pairwise (· < ·) ∧ ∀ id, id ∈ ids ↔ t.Bound id := by
  refine ⟨t.countedOrder_eq, t.constructionOrder_ok_iff, fun _ => constructionOrder_least, ?_⟩
  intro p h
  obtain ⟨ids, rfl, hids⟩ := constructionOrder_error h
  exact ⟨rfl, ids, rfl, hids⟩

end FieldTable

end ViewBinder
