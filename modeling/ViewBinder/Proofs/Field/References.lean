-- References and the order of fields. A reference made while a field is built makes that field wait
-- for the one it names, but by the spelling of the reference: only a name in normal form counts.
import ViewBinder.Field.Reference
import ViewBinder.Proofs.Draft.Step

namespace ViewBinder

/-! ## Runs of field operations -/

/-- What can be done with the fields of a draft. -/
inductive FieldOp where
  | register (precedence : Precedence) (type : Option TypeId) (name : Text)
  | require (precedence : Precedence) (type : Option TypeId) (name : Text)
  /-- Begins to build an element with a field of the table. -/
  | enter (element : Nat) (field : FieldId)
  | leave
  | refer (element : Nat) (path : Text) (types : List (Option TypeId))

namespace FieldOp

/-- Does one operation; it may fail. -/
def work : FieldOp → Work Draft Unit
  | register precedence type name => discard (Draft.register precedence type name)
  | require precedence type name => discard (Draft.require precedence type name)
  | enter element field => modify fun d =>
    if field < d.fields.fields.size then { d with fields := d.fields.enter element field } else d
  | leave => modify fun d => { d with fields := d.fields.leave }
  | refer element path types => discard (Draft.refer element path types)

/-- The draft after an operation; one that fails leaves it as it was. -/
def apply (d : Draft) (op : FieldOp) : Draft := (op.work.runOn d).2

/-- The draft after some operations. -/
def applyAll (d : Draft) (ops : List FieldOp) : Draft := ops.foldl apply d

end FieldOp

/-! ## What one operation does to the table -/

theorem FieldOp.fields_discard {α : Type} (step : Draft → Except Problem (α × FieldTable))
    (d : Draft) :
    ((discard (Draft.changeFields step) : Work Draft Unit).runOn d).2.fields =
      match step d with
      | .ok (_, fields) => fields
      | .error _ => d.fields := by
  unfold discard
  show (((fun _ => PUnit.unit) <$> Draft.changeFields step).runOn d).2.fields = _
  rw [Work.runOn_map, Draft.runOn_changeFields]
  rcases hstep : step d with p | ⟨a, fields⟩
  · rfl
  · rfl

theorem FieldOp.run (d : Draft) (op : FieldOp) :
    FieldTable.Run d.fields (FieldOp.apply d op).fields := by
  unfold FieldOp.apply
  cases op with
  | register precedence type name =>
    simp only [FieldOp.work, Draft.register, FieldOp.fields_discard]
    split
    · rename_i h
      exact FieldTable.run_register h
    · exact FieldTable.Run.refl _
  | require precedence type name =>
    simp only [FieldOp.work, Draft.require, FieldOp.fields_discard]
    split
    · rename_i h
      exact FieldTable.run_require h
    · exact FieldTable.Run.refl _
  | enter element field =>
    simp only [FieldOp.work, Work.runOn_modify]
    split
    · exact (FieldTable.Step.stack _).run
    · exact FieldTable.Run.refl _
  | leave => exact (FieldTable.Step.stack _).run
  | refer element path types => exact FieldTable.run_addReference _ _

/-! ## Every run -/

theorem FieldOp.run_all (d : Draft) (ops : List FieldOp) :
    FieldTable.Run d.fields (FieldOp.applyAll d ops).fields := by
  induction ops generalizing d with
  | nil => exact FieldTable.Run.refl _
  | cons op rest ih => exact (FieldOp.run d op).trans (ih _)

theorem FieldOp.applyAll_append (d : Draft) (before after : List FieldOp) :
    FieldOp.applyAll d (before ++ after) =
      FieldOp.applyAll (FieldOp.applyAll d before) after := List.foldl_append ..

/-- Only fields of the table are being built. -/
def FieldTable.Building (t : FieldTable) : Prop :=
  ∀ frame ∈ t.stack, frame.field < t.fields.size

@[simp] theorem FieldTable.stack_depend (t : FieldTable) (name : Text) :
    (t.depend name).stack = t.stack := by
  unfold depend
  split <;> rfl

theorem FieldTable.Building.of_stack {t t' : FieldTable} (h : t.Building)
    (hrun : FieldTable.Run t t') (hstack : t'.stack = t.stack) : t'.Building := by
  intro frame hframe
  rw [hstack] at hframe
  exact Nat.lt_of_lt_of_le (h frame hframe) hrun.extends.size

theorem FieldTable.stack_register {t t' : FieldTable} {c : Catalog} {precedence : Precedence}
    {type : Option TypeId} {name : Text} {id : FieldId}
    (h : t.register c precedence type name = .ok (id, t')) : t'.stack = t.stack := by
  unfold register at h
  split at h
  · cases h
  · cases h
    simp

theorem FieldTable.stack_require {t t' : FieldTable} {c : Catalog} {precedence : Precedence}
    {type : Option TypeId} {name : Text} {id : FieldId}
    (h : t.require c precedence type name = .ok (id, t')) : t'.stack = t.stack := by
  unfold require at h
  split at h
  · simp only at h
    split at h
    · cases h
    · cases h
      simp
  · exact stack_register h

theorem FieldOp.building (d : Draft) (op : FieldOp) (h : d.fields.Building) :
    (FieldOp.apply d op).fields.Building := by
  have hrun := FieldOp.run d op
  cases op with
  | register precedence type name =>
    refine h.of_stack hrun ?_
    simp only [FieldOp.apply, FieldOp.work, Draft.register, FieldOp.fields_discard]
    split
    · rename_i hok
      exact FieldTable.stack_register hok
    · rfl
  | require precedence type name =>
    refine h.of_stack hrun ?_
    simp only [FieldOp.apply, FieldOp.work, Draft.require, FieldOp.fields_discard]
    split
    · rename_i hok
      exact FieldTable.stack_require hok
    · rfl
  | enter element field =>
    simp only [FieldOp.apply, FieldOp.work, Work.runOn_modify]
    split
    · rename_i hlt
      intro frame hframe
      rcases List.mem_cons.mp hframe with rfl | hold
      · exact hlt
      · exact h frame hold
    · exact h
  | leave => exact fun frame hframe => h frame (List.mem_of_mem_drop hframe)
  | refer element path types =>
    refine h.of_stack hrun ?_
    exact FieldTable.stack_depend _ _

theorem FieldOp.building_all {d : Draft} (h : d.fields.Building) (ops : List FieldOp) :
    (FieldOp.applyAll d ops).fields.Building := by
  induction ops generalizing d with
  | nil => exact h
  | cons op rest ih => exact ih (FieldOp.building d op h)

/-- The reference an operation records, with the marker it was given. -/
def Draft.referenceAt (d : Draft) (element : Nat) (path : Text) (types : List (Option TypeId)) :
    FieldReference :=
  ⟨element, Text.trim path, types, Marker.text (d.markers.supply d.markers.entries.length)⟩

theorem FieldOp.fields_refer (d : Draft) (element : Nat) (path : Text)
    (types : List (Option TypeId)) :
    (FieldOp.apply d (.refer element path types)).fields =
      d.fields.addReference (d.referenceAt element path types) := rfl

/-- The field being built needs the name that a reference spells. -/
theorem FieldTable.needs_addReference {t : FieldTable} {r : FieldReference} {id : FieldId}
    (hcurrent : t.current = some id) (hid : id < t.fields.size)
    (hname : r.fieldName ≠ (t.field id).name) :
    r.fieldName ∈ ((t.addReference r).field id).needs := by
  have hcurrent' : ({ t with references := t.references ++ [r] } : FieldTable).current = some id :=
    hcurrent
  have hchanged := field_change_self (t := { t with references := t.references ++ [r] })
    (f := (·.withNeed r.fieldName)) hid
  unfold addReference depend
  rw [hcurrent']
  simp only
  rw [hchanged]
  exact Field.mem_withNeed hname

/-- Take any run of field operations on a fresh table, and any reference made in it while field `f`
was being built. Let the name it begins with stand for another field `g` in the end. If the
reference spells that name in its normal form, `g` is made before `f`; if not, the fields are made
in the order they would have without the need that the reference left. -/
theorem a_reference_orders_fields_exactly_when_its_name_is_in_normal_form
    (d : Draft) (hfresh : d.fields = {}) (before after : List FieldOp) (element : Nat)
    (path : Text) (types : List (Option TypeId)) (f g : FieldId) (order : List FieldId)
    (hcurrent : (FieldOp.applyAll d before).fields.current = some f)
    (hfield : (FieldOp.applyAll d (before ++ .refer element path types :: after)).fields.find?
      ((FieldOp.applyAll d before).referenceAt element path types).fieldName = some g)
    (hne : g ≠ f)
    (horder : (FieldOp.applyAll d
      (before ++ .refer element path types :: after)).fields.constructionOrder = .ok order) :
    let name := ((FieldOp.applyAll d before).referenceAt element path types).fieldName
    (Text.sanitize name = name → order.idxOf g < order.idxOf f) ∧
      (Text.sanitize name ≠ name →
        ((FieldOp.applyAll d (before ++ .refer element path types :: after)).fields.withoutNeed f
          name).constructionOrder = .ok order) := by
  intro name
  have hstart : d.fields.WellFormed := hfresh ▸ FieldTable.wellFormed_empty
  have hend := (FieldOp.run_all d (before ++ .refer element path types :: after)).wellFormed hstart
  refine ⟨fun hspelled => ?_, fun hother => ?_⟩
  · -- the need recorded by name is still there in the end, and the name finds the field
    rw [FieldOp.applyAll_append] at hfield horder hend
    have hf : f < (FieldOp.applyAll d before).fields.fields.size := by
      have hbuilding : d.fields.Building := by simp [hfresh, FieldTable.Building]
      unfold FieldTable.current at hcurrent
      obtain ⟨frame, hframe, rfl⟩ := Option.map_eq_some_iff.mp hcurrent
      exact FieldOp.building_all hbuilding before frame (List.mem_of_head? hframe)
    have hkept := (FieldOp.run_all (FieldOp.applyAll d before)
      (.refer element path types :: after)).extends
    have hlater := (FieldOp.run_all (FieldOp.apply (FieldOp.applyAll d before)
      (.refer element path types)) after).extends
    unfold FieldTable.find? at hfield
    rw [hspelled] at hfield
    have hother : name ≠ ((FieldOp.applyAll d before).fields.field f).name := by
      intro heq
      obtain ⟨hlt, hname⟩ := FieldTable.byName?_eq_some hfield
      have hsame := (hkept.field f hf).name
      have hf' := Nat.lt_of_lt_of_le hf hkept.size
      exact hne (hend.unique g hlt f hf' (by rw [hname, hsame, ← heq]))
    have hneed := FieldTable.needs_addReference
      (r := (FieldOp.applyAll d before).referenceAt element path types) hcurrent hf hother
    rw [← FieldOp.fields_refer] at hneed
    have hf' := Nat.lt_of_lt_of_le hf
      (FieldOp.run (FieldOp.applyAll d before) (.refer element path types)).extends.size
    exact FieldTable.needed_before horder (Nat.lt_of_lt_of_le hf' hlater.size)
      ((hlater.field f hf').needs name hneed) hfield
  · rw [FieldTable.constructionOrder_withoutNeed (hend.byName?_none hother)]
    exact horder

/-- A draft of nothing. -/
def Draft.blank : Draft :=
  { document := ⟨⟨[], []⟩, #[]⟩, catalog := Catalog.bare, imports := { self := [] } }

/-- A field that is declared after a reference to it is made before the field that refers to it. -/
theorem a_plain_reference_orders_its_fields :
    let before := [FieldOp.register .plain none "a", .enter 0 0]
    let after := [FieldOp.leave, .register .plain none "b"]
    [1, 0].idxOf 1 < [1, 0].idxOf 0 ∧
      (FieldOp.applyAll .blank
        (before ++ .refer 0 "b" [none] :: after)).fields.constructionOrder = .ok [1, 0] :=
  ⟨(a_reference_orders_fields_exactly_when_its_name_is_in_normal_form .blank rfl
    [.register .plain none "a", .enter 0 0] [.leave, .register .plain none "b"] 0 "b" [none] 0 1
    [1, 0] (by decide) (by decide) (by decide)
    (ok_of_toOption (by decide))).1 (by decide),
    ok_of_toOption (by decide)⟩

/-- A reference to a dashed name is sound and finds its field, which is made after the field that
refers to it. -/
theorem a_dashed_reference_leaves_its_field_behind :
    let d := FieldOp.applyAll .blank
      [.register .plain none "a", .enter 0 0, .refer 0 "b-c" [], .leave,
        .register .plain none "b-c"]
    (Draft.settleReferences.runOn d).1 = .ok () ∧
      d.fields.find? "b-c" = some 1 ∧ d.fields.constructionOrder = .ok [0, 1] := by
  exact ⟨by decide, by decide, ok_of_toOption (by decide)⟩

end ViewBinder
