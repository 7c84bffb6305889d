-- The order in which fields are made is the least one that respects their needs: of the fields
-- that can be made next, the one that is declared first always is. There is such an order exactly
-- if no field needs itself in a circle; otherwise the fields that are left are those on a circle
-- and those that need one.
import Mathlib.Data.Fintype.Pigeonhole
import Mathlib.Data.Prod.Lex
import Mathlib.Logic.Relation
import ViewBinder.Proofs.Field.Order

namespace ViewBinder.FieldTable

open Relation (TransGen ReflTransGen)

variable {t : FieldTable}

/-! ## Needs -/

/-- One field needs another field of the table. -/
def Needs (t : FieldTable) (id other : FieldId) : Prop :=
  ∃ name ∈ (t.field id).needs, t.byName? name = some other

/-- The field can be made next: it was not made yet, and all it needs was. -/
def Ready (t : FieldTable) (made : List FieldId) (id : FieldId) : Prop :=
  id < t.fields.size ∧ id ∉ made ∧ ∀ other, t.Needs id other → other ∈ made

/-- The field lies on a circle of needs, or needs one that does, directly or not. -/
def Bound (t : FieldTable) (id : FieldId) : Prop :=
  ∃ other, ReflTransGen t.Needs id other ∧ TransGen t.Needs other other

/-- Where a field stands among all fields: by its class, then by its number. -/
def place (t : FieldTable) (id : FieldId) : ℤ ×ₗ ℕ := toLex ((t.field id).precedence.rank, id)

/-- Every field is behind what it needs, and none that is declared before it could have stood
there. -/
def Least (t : FieldTable) (order : List FieldId) : Prop :=
  ∀ before id after, order = before ++ id :: after →
    t.Ready before id ∧ ∀ other, t.Ready before other → t.place id ≤ t.place other

theorem field_of_size_le {id : FieldId} (h : t.fields.size ≤ id) : t.field id = noField := by
  unfold field
  rw [Array.getElem?_eq_none h]
  rfl

theorem Needs.lt {id other : FieldId} (h : t.Needs id other) :
    id < t.fields.size ∧ other < t.fields.size := by
  obtain ⟨name, hname, hfound⟩ := h
  constructor
  · by_contra hout
    rw [field_of_size_le (Nat.not_lt.mp hout)] at hname
    cases hname
  · exact List.mem_range.mp (List.mem_of_find?_eq_some hfound)

theorem isReady_iff {made : List FieldId} {id : FieldId} :
    t.isReady made id = true ↔ ∀ other, t.Needs id other → other ∈ made := by
  constructor
  · rintro h other ⟨name, hname, hfound⟩
    exact isReady_need h hname hfound
  · intro h
    apply List.all_eq_true.mpr
    intro name hname
    split
    · rename_i other hfound
      simpa using h other ⟨name, hname, hfound⟩
    · rfl

/-! ## The order of declaration -/

theorem precedes_iff {a b : FieldId} : t.precedes a b = true ↔ t.place a ≤ t.place b := by
  unfold precedes place
  rw [Prod.Lex.toLex_le_toLex]
  simp

instance : Std.Total fun a b => t.precedes a b = true where
  total a b := by
    simp only [precedes_iff]
    exact le_total _ _

instance : IsTrans FieldId fun a b => t.precedes a b = true where
  trans a b c hab hbc := by
    rw [precedes_iff] at *
    exact hab.trans hbc

theorem declarationOrder_pairwise (t : FieldTable) :
    t.declarationOrder.Pairwise fun a b => t.place a ≤ t.place b := by
  have h := sortBy_pairwise t.precedes (List.range t.fields.size)
  exact h.imp fun hab => precedes_iff.mp hab

/-! ## Making one field after the other -/

/-- Some fields are made in the least order, and the others wait in the order of declaration. -/
structure Making (t : FieldTable) (made left : List FieldId) : Prop where
  all : (made ++ left).Perm (List.range t.fields.size)
  sorted : left.Pairwise fun a b => t.place a ≤ t.place b
  least : t.Least made

variable {made left : List FieldId}

theorem making_start (t : FieldTable) : t.Making [] t.declarationOrder where
  all := t.declarationOrder_perm
  sorted := t.declarationOrder_pairwise
  least := by
    intro before id after h
    simp at h

theorem Making.mem_iff (h : t.Making made left) (id : FieldId) :
    id ∈ left ↔ id < t.fields.size ∧ id ∉ made := by
  have hnodup := h.all.nodup_iff.mpr List.nodup_range
  have hmem := h.all.mem_iff (a := id)
  rw [List.mem_append, List.mem_range] at hmem
  have hapart := (List.nodup_append.mp hnodup).2.2 id
  constructor
  · intro hleft
    exact ⟨hmem.mp (Or.inr hleft), fun hmade => hapart hmade id hleft rfl⟩
  · rintro ⟨hlt, hmade⟩
    exact (hmem.mpr hlt).resolve_left hmade

/-- The first field that is ready comes before all others that could be made. -/
theorem Making.next (h : t.Making made left) {id : FieldId}
    (hfound : left.find? (t.isReady made) = some id) : t.Making (made ++ [id]) (left.erase id) := by
  have hleft : id ∈ left := List.mem_of_find?_eq_some hfound
  obtain ⟨hlt, hmade⟩ := (h.mem_iff id).mp hleft
  refine ⟨?_, h.sorted.sublist List.erase_sublist, forall_split_snoc h.least ⟨⟨hlt, hmade, ?_⟩, ?_⟩⟩
  · rw [List.append_assoc]
    exact ((List.perm_cons_erase hleft).symm.append_left made).trans h.all
  · exact isReady_iff.mp (List.find?_some hfound)
  · rintro other ⟨hother, hnot, hneeds⟩
    obtain ⟨-, front, rest, hsplit, hfront⟩ := List.find?_eq_some_iff_append.mp hfound
    have hmem : other ∈ front ++ id :: rest := hsplit ▸ (h.mem_iff other).mpr ⟨hother, hnot⟩
    rcases List.mem_append.mp hmem with hbefore | hbehind
    · have hwaits := hfront other hbefore
      rw [isReady_iff.mpr hneeds] at hwaits
      cases hwaits
    · rcases List.mem_cons.mp hbehind with rfl | hrest
      · exact le_refl _
      · have hsorted := h.sorted
        rw [hsplit] at hsorted
        exact (List.pairwise_cons.mp (List.pairwise_append.mp hsorted).2.1).1 other hrest

/-- Fields are made until none is ready. -/
theorem Making.run {fuel : Nat} (h : t.Making made left) (hfuel : left.length ≤ fuel) :
    t.Making (t.makeReady fuel made left).1 (t.makeReady fuel made left).2 ∧
      ∀ id ∈ (t.makeReady fuel made left).2, t.isReady (t.makeReady fuel made left).1 id = false := by
  induction fuel generalizing made left with
  | zero =>
    have hnil : left = [] := List.length_eq_zero_iff.mp (by omega)
    subst hnil
    exact ⟨h, fun id hid => absurd hid List.not_mem_nil⟩
  | succ fuel ih =>
    unfold makeReady
    split
    · rename_i id hfound
      have hleft : id ∈ left := List.mem_of_find?_eq_some hfound
      apply ih (h.next hfound)
      rw [List.length_erase_of_mem hleft]
      omega
    · rename_i hnone
      refine ⟨h, fun id hid => ?_⟩
      simpa using List.find?_eq_none.mp hnone id hid

/-! ## Circles -/

/-- What a field that was made needs was made before it. -/
theorem Least.idxOf_lt (h : t.Least made) {id other : FieldId} (hid : id ∈ made)
    (hneeds : t.Needs id other) : other ∈ made ∧ made.idxOf other < made.idxOf id := by
  obtain ⟨before, after, rfl, hnot⟩ := List.eq_append_cons_of_mem hid
  have hother : other ∈ before := (h before id after rfl).1.2.2 other hneeds
  refine ⟨List.mem_append_left _ hother, ?_⟩
  rw [List.idxOf_append_of_mem hother, List.idxOf_append_of_notMem hnot]
  have := List.idxOf_lt_length_of_mem hother
  omega

theorem Least.idxOf_lt_of_transGen (h : t.Least made) {id other : FieldId} (hid : id ∈ made)
    (hneeds : TransGen t.Needs id other) : other ∈ made ∧ made.idxOf other < made.idxOf id := by
  induction hneeds with
  | single hstep => exact h.idxOf_lt hid hstep
  | tail _ hstep ih =>
    obtain ⟨hmade, hlt⟩ := h.idxOf_lt ih.1 hstep
    exact ⟨hmade, hlt.trans ih.2⟩

/-- A field that was made needs no circle: its needs go back in the order. -/
theorem Least.not_bound (h : t.Least made) {id : FieldId} (hid : id ∈ made) : ¬ t.Bound id := by
  rintro ⟨other, hreach, hcircle⟩
  have hother : other ∈ made := by
    rcases Relation.reflTransGen_iff_eq_or_transGen.mp hreach with rfl | hneeds
    · exact hid
    · exact (h.idxOf_lt_of_transGen hid hneeds).1
  exact Nat.lt_irrefl _ (h.idxOf_lt_of_transGen hother hcircle).2

/-- Where every field needs another one of the same fields, each needs a circle: going from need to
need, there are only so many fields to come to. -/
theorem bound_of_needs_inside {left : List FieldId}
    (h : ∀ id ∈ left, ∃ other ∈ left, t.Needs id other) {id : FieldId} (hid : id ∈ left) :
    t.Bound id := by
  choose next hnext hneeds using h
  let walk : ℕ → {x // x ∈ left} := fun k =>
    Nat.rec ⟨id, hid⟩ (fun _ x => ⟨next x.1 x.2, hnext x.1 x.2⟩) k
  have hstep : ∀ k, t.Needs (walk k).1 (walk (k + 1)).1 := fun k => hneeds _ _
  have hreach : ∀ k, ReflTransGen t.Needs id (walk k).1 := by
    intro k
    induction k with
    | zero => exact ReflTransGen.refl
    | succ k ih => exact ih.tail (hstep k)
  have hforward : ∀ i k, TransGen t.Needs (walk i).1 (walk (i + k + 1)).1 := by
    intro i k
    induction k with
    | zero => exact TransGen.single (hstep i)
    | succ k ih => exact ih.tail (hstep (i + k + 1))
  have hcircle : ∀ i j, i < j → walk i = walk j → t.Bound id := by
    intro i j hlt heq
    obtain ⟨k, rfl⟩ := Nat.exists_eq_add_of_lt hlt
    refine ⟨(walk i).1, hreach i, ?_⟩
    have hloop := hforward i k
    rwa [← heq] at hloop
  obtain ⟨i, j, hne, heq⟩ := Finite.exists_ne_map_eq_of_infinite walk
  rcases Nat.lt_or_gt_of_ne hne with hlt | hlt
  · exact hcircle i j hlt heq
  · exact hcircle j i hlt heq.symm

/-- What is left when no field is ready are the fields that need a circle. -/
theorem Making.mem_left_iff (h : t.Making made left)
    (hstuck : ∀ id ∈ left, t.isReady made id = false) (id : FieldId) :
    id ∈ left ↔ t.Bound id := by
  constructor
  · apply bound_of_needs_inside
    intro id hid
    by_contra hnone
    have hready : t.isReady made id = true := by
      rw [isReady_iff]
      intro other hneeds
      by_contra hmade
      exact hnone ⟨other, (h.mem_iff other).mpr ⟨hneeds.lt.2, hmade⟩, hneeds⟩
    rw [hstuck id hid] at hready
    cases hready
  · intro hbound
    rw [h.mem_iff]
    refine ⟨?_, fun hmade => h.least.not_bound hmade hbound⟩
    obtain ⟨other, hreach, hcircle⟩ := hbound
    rcases Relation.reflTransGen_iff_eq_or_transGen.mp hreach with rfl | hneeds
    · obtain ⟨_, hstep, -⟩ := TransGen.head'_iff.mp hcircle
      exact hstep.lt.1
    · obtain ⟨_, hstep, -⟩ := TransGen.head'_iff.mp hneeds
      exact hstep.lt.1

theorem bound_iff_of_none : (∀ id, ¬ t.Bound id) ↔ ∀ id, ¬ TransGen t.Needs id id := by
  constructor
  · intro h id hcircle
    exact h id ⟨id, ReflTransGen.refl, hcircle⟩
  · rintro h id ⟨other, -, hcircle⟩
    exact h other hcircle

/-! ## The order of construction -/

/-- The order is what was made, if nothing is left, and the problem is about what is left. -/
theorem constructionOrder_cases (t : FieldTable) :
    ∃ made left, t.Making made left ∧ (∀ id ∈ left, t.isReady made id = false) ∧
      t.constructionOrder = if left = [] then .ok made else
        .error (.fieldCycle (((List.range t.fields.size).filter left.contains).map
          fun id => (t.field id).name)) := by
  have hfuel : t.declarationOrder.length ≤ t.fields.size := by
    rw [t.declarationOrder_perm.length_eq, List.length_range]
  obtain ⟨hmaking, hstuck⟩ := t.making_start.run hfuel
  refine ⟨_, _, hmaking, hstuck, ?_⟩
  unfold constructionOrder
  simp only [List.isEmpty_iff]

theorem constructionOrder_ok_iff (t : FieldTable) :
    (∃ order, t.constructionOrder = .ok order) ↔ ∀ id, ¬ TransGen t.Needs id id := by
  obtain ⟨made, left, hmaking, hstuck, horder⟩ := t.constructionOrder_cases
  have hleft := hmaking.mem_left_iff hstuck
  rw [← bound_iff_of_none, horder]
  by_cases hnone : left = []
  · rw [if_pos hnone]
    refine ⟨fun _ id hbound => ?_, fun _ => ⟨made, rfl⟩⟩
    have hid := (hleft id).mpr hbound
    rw [hnone] at hid
    cases hid
  · rw [if_neg hnone]
    constructor
    · rintro ⟨_, ⟨⟩⟩
    · intro hacyclic
      obtain ⟨id, hid⟩ := List.exists_mem_of_ne_nil left hnone
      exact absurd ((hleft id).mp hid) (hacyclic id)

theorem constructionOrder_least {order : List FieldId} (h : t.constructionOrder = .ok order) :
    order.Perm (List.range t.fields.size) ∧ t.Least order := by
  obtain ⟨made, left, hmaking, -, horder⟩ := t.constructionOrder_cases
  rw [horder] at h
  split at h
  · rename_i hnone
    cases h
    have hall := hmaking.all
    rw [hnone, List.append_nil] at hall
    exact ⟨hall, hmaking.least⟩
  · cases h

theorem constructionOrder_error {p : Problem} (h : t.constructionOrder = .error p) :
    ∃ ids : List FieldId, p = .fieldCycle (ids.map fun id => (t.field id).name) ∧
      ids.Pairwise (· < ·) ∧ ∀ id, id ∈ ids ↔ t.Bound id := by
  obtain ⟨made, left, hmaking, hstuck, horder⟩ := t.constructionOrder_cases
  have hleft := hmaking.mem_left_iff hstuck
  rw [horder] at h
  split at h
  · cases h
  · cases h
    refine ⟨_, rfl, List.pairwise_lt_range.filter _, fun id => ?_⟩
    rw [List.mem_filter, List.contains_iff_mem, ← hleft id, List.mem_range]
    exact ⟨And.right, fun hid => ⟨((hmaking.mem_iff id).mp hid).1, hid⟩⟩

end ViewBinder.FieldTable
