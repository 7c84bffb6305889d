-- The order in which fields are made. Every field of the table is made once, and each comes after
-- the fields it needs; a need that names no field changes nothing.
import ViewBinder.Field.Table
import ViewBinder.Proofs.Text.Basic

namespace ViewBinder

/-- What holds of each value of a list behind those before it holds of one more at the end. -/
theorem forall_split_snoc {α : Type} {P : List α → α → Prop} {xs : List α} {a : α}
    (h : ∀ before x after, xs = before ++ x :: after → P before x) (ha : P xs a) :
    ∀ before x after, xs ++ [a] = before ++ x :: after → P before x := by
  intro before x after heq
  rcases List.append_eq_append_iff.mp heq with ⟨more, hb, hafter⟩ | ⟨more, hm, hafter⟩
  · cases more with
    | nil =>
      simp only [List.append_nil, List.nil_append, List.cons.injEq] at hb hafter
      rw [hb, ← hafter.1]
      exact ha
    | cons y more => simp at hafter
  · cases more with
    | nil =>
      simp only [List.append_nil, List.nil_append, List.cons.injEq] at hm hafter
      rw [← hm, hafter.1]
      exact ha
    | cons y more =>
      simp only [List.cons_append, List.cons.injEq] at hafter
      exact h before y more (by rw [hm]) |> fun hy => hafter.1 ▸ hy

namespace FieldTable

theorem declarationOrder_perm (t : FieldTable) :
    t.declarationOrder.Perm (List.range t.fields.size) := sortBy_perm _ _

/-! ## Making what is ready -/

/-- Each field stands behind everything it needs. -/
def NeedsBefore (t : FieldTable) (order : List FieldId) : Prop :=
  ∀ before id after, order = before ++ id :: after → t.isReady before id = true

theorem needsBefore_nil (t : FieldTable) : t.NeedsBefore [] := by
  intro before id after h
  simp at h

theorem needsBefore_snoc {t : FieldTable} {made : List FieldId} {id : FieldId}
    (h : t.NeedsBefore made) (hid : t.isReady made id = true) : t.NeedsBefore (made ++ [id]) :=
  forall_split_snoc h hid

/-- What is made and what is left stay the same fields, and all that is made comes after its
needs. -/
theorem makeReady_spec (t : FieldTable) (fuel : Nat) (made left : List FieldId)
    (h : t.NeedsBefore made) :
    t.NeedsBefore (t.makeReady fuel made left).1 ∧
      ((t.makeReady fuel made left).1 ++ (t.makeReady fuel made left).2).Perm (made ++ left) := by
  induction fuel generalizing made left with
  | zero => exact ⟨h, List.Perm.refl _⟩
  | succ fuel ih =>
    simp only [makeReady]
    split
    · rename_i id hfound
      have hready : t.isReady made id = true := List.find?_some hfound
      have hmem : id ∈ left := List.mem_of_find?_eq_some hfound
      obtain ⟨hbefore, hperm⟩ := ih (made ++ [id]) (left.erase id) (needsBefore_snoc h hready)
      refine ⟨hbefore, hperm.trans ?_⟩
      rw [List.append_assoc]
      exact (List.perm_cons_erase hmem).symm.append_left made
    · exact ⟨h, List.Perm.refl _⟩

theorem constructionOrder_spec {t : FieldTable} {order : List FieldId}
    (h : t.constructionOrder = .ok order) :
    t.NeedsBefore order ∧ order.Perm (List.range t.fields.size) := by
  obtain ⟨hbefore, hperm⟩ :=
    t.makeReady_spec t.fields.size [] t.declarationOrder (needsBefore_nil t)
  unfold constructionOrder at h
  revert h hbefore hperm
  generalize t.makeReady t.fields.size [] t.declarationOrder = found
  obtain ⟨made, left⟩ := found
  intro h hbefore hperm
  simp only at h hbefore hperm
  split at h
  · rename_i hleft
    simp only [List.isEmpty_iff] at hleft
    cases h
    subst hleft
    simp only [List.append_nil, List.nil_append] at hperm
    exact ⟨hbefore, hperm.trans t.declarationOrder_perm⟩
  · cases h

/-! ## What a need does to the order -/

theorem isReady_need {t : FieldTable} {made : List FieldId} {id other : FieldId} {name : Text}
    (h : t.isReady made id = true) (hneed : name ∈ (t.field id).needs)
    (hname : t.byName? name = some other) : other ∈ made := by
  unfold isReady at h
  have hn := List.all_eq_true.mp h name hneed
  simpa [hname] using hn

/-- A field that another needs by its name is made before it. -/
theorem needed_before {t : FieldTable} {order : List FieldId} {id other : FieldId} {name : Text}
    (h : t.constructionOrder = .ok order) (hid : id < t.fields.size)
    (hneed : name ∈ (t.field id).needs) (hname : t.byName? name = some other) :
    order.idxOf other < order.idxOf id := by
  obtain ⟨hbefore, hperm⟩ := constructionOrder_spec h
  have hmem : id ∈ order := hperm.mem_iff.mpr (List.mem_range.mpr hid)
  obtain ⟨before, after, rfl, hnot⟩ := List.eq_append_cons_of_mem hmem
  have hother : other ∈ before := isReady_need (hbefore before id after rfl) hneed hname
  rw [List.idxOf_append_of_mem hother, List.idxOf_append_of_notMem hnot]
  have := List.idxOf_lt_length_of_mem hother
  omega

/-! ## Needs that name no field -/

/-- The table without one need of one field. -/
def withoutNeed (t : FieldTable) (id : FieldId) (name : Text) : FieldTable :=
  t.change id fun f => { f with needs := f.needs.filter (· != name) }

theorem field_change (t : FieldTable) (id other : FieldId) (f : Field → Field) :
    (t.change id f).field other =
      if id = other ∧ other < t.fields.size then f (t.field other) else t.field other := by
  unfold field change
  simp only [Array.getElem?_modify]
  by_cases hlt : other < t.fields.size
  · by_cases heq : id = other
    · simp [heq, hlt]
    · simp [heq]
  · simp [hlt]

theorem field_change_ne {t : FieldTable} {id other : FieldId} {f : Field → Field}
    (h : id ≠ other) : (t.change id f).field other = t.field other := by
  simp [field_change, h]

theorem field_change_self {t : FieldTable} {id : FieldId} {f : Field → Field}
    (h : id < t.fields.size) : (t.change id f).field id = f (t.field id) := by
  simp [field_change, h]

@[simp] theorem size_change (t : FieldTable) (id : FieldId) (f : Field → Field) :
    (t.change id f).fields.size = t.fields.size := by
  simp [change]

/-- A property of fields that a change keeps is the same in the changed table. -/
theorem field_change_apply {α : Type} (t : FieldTable) (id other : FieldId) (f : Field → Field)
    (p : Field → α) (h : ∀ x, p (f x) = p x) :
    p ((t.change id f).field other) = p (t.field other) := by
  rw [field_change]
  split
  · exact h _
  · rfl

theorem byName?_change (t : FieldTable) (id : FieldId) (f : Field → Field)
    (h : ∀ x, (f x).name = x.name) (name : Text) :
    (t.change id f).byName? name = t.byName? name := by
  unfold byName?
  rw [size_change]
  congr 1
  funext other
  rw [t.field_change_apply id other f (·.name) h]

theorem declarationOrder_change (t : FieldTable) (id : FieldId) (f : Field → Field)
    (h : ∀ x, (f x).precedence = x.precedence) :
    (t.change id f).declarationOrder = t.declarationOrder := by
  unfold declarationOrder
  rw [size_change]
  congr 1
  funext a b
  simp only [precedes, t.field_change_apply id _ f (·.precedence) h]

theorem isReady_withoutNeed {t : FieldTable} {id : FieldId} {name : Text}
    (h : t.byName? name = none) (made : List FieldId) (other : FieldId) :
    (t.withoutNeed id name).isReady made other = t.isReady made other := by
  unfold isReady withoutNeed
  simp only [t.byName?_change id (fun f => { f with needs := f.needs.filter (· != name) })
    (fun _ => rfl)]
  rw [field_change]
  split
  · rw [List.all_filter]
    congr 1
    funext n
    by_cases hn : n = name
    · subst hn
      simp [h]
    · simp [hn]
  · rfl

theorem makeReady_congr {t t' : FieldTable} (h : ∀ made id, t'.isReady made id = t.isReady made id)
    (fuel : Nat) (made left : List FieldId) :
    t'.makeReady fuel made left = t.makeReady fuel made left := by
  have hready : t'.isReady = t.isReady := by
    funext made id
    exact h made id
  induction fuel generalizing made left with
  | zero => rfl
  | succ fuel ih =>
    unfold makeReady
    rw [hready]
    split
    · exact ih _ _
    · rfl

/-- A need that names no field might as well not be there. -/
theorem constructionOrder_withoutNeed {t : FieldTable} {id : FieldId} {name : Text}
    (h : t.byName? name = none) :
    (t.withoutNeed id name).constructionOrder = t.constructionOrder := by
  have hsize : (t.withoutNeed id name).fields.size = t.fields.size := size_change _ _ _
  have horder : (t.withoutNeed id name).declarationOrder = t.declarationOrder :=
    declarationOrder_change t id _ fun _ => rfl
  have hname : ∀ other, ((t.withoutNeed id name).field other).name = (t.field other).name :=
    fun other => t.field_change_apply id other _ (·.name) fun _ => rfl
  unfold constructionOrder
  rw [hsize, horder, makeReady_congr (isReady_withoutNeed h)]
  simp only [hname]

end FieldTable

end ViewBinder
