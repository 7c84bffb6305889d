-- What can happen to fields. A table changes in few ways: a field is changed, a field is added,
-- the stack or the counter moves, or a reference is recorded. What one step keeps, every run of
-- steps keeps.
import Mathlib.Logic.Relation
import ViewBinder.Proofs.Field.Order
import ViewBinder.Proofs.Text.Identifier

namespace ViewBinder

/-! ## Fields -/

namespace Field

/-- What can be done to a field. It is made at most once, and its statements are calls of its
methods. -/
inductive Change (f : Field) : Field → Prop
  | use : Change f { f with used := true }
  | provide : Change f { f with provided := true }
  | need (other : Text) : Change f (f.withNeed other)
  | statement (rest : Text) : Change f (f.withStatement (f.name ++ "." ++ rest))
  | make (expr : Text) : f.initializer = none → Change f { f with initializer := some expr }

/-- A field further along: nothing that was settled about it has changed. -/
structure Extends (f g : Field) : Prop where
  name : g.name = f.name
  declared : g.declared = f.declared
  type : g.type = f.type
  precedence : g.precedence = f.precedence
  made : ∀ expr, f.initializer = some expr → g.initializer = some expr
  provided : f.provided = true → g.provided = true
  needs : ∀ other ∈ f.needs, other ∈ g.needs

theorem Extends.refl (f : Field) : Extends f f :=
  ⟨rfl, rfl, rfl, rfl, fun _ h => h, id, fun _ h => h⟩

theorem Extends.trans {f g h : Field} (hfg : Extends f g) (hgh : Extends g h) : Extends f h :=
  ⟨hgh.name.trans hfg.name, hgh.declared.trans hfg.declared, hgh.type.trans hfg.type,
    hgh.precedence.trans hfg.precedence, fun expr he => hgh.made expr (hfg.made expr he),
    fun hp => hgh.provided (hfg.provided hp), fun other ho => hgh.needs other (hfg.needs other ho)⟩

theorem mem_withNeed {f : Field} {other : Text} (h : other ≠ f.name) :
    other ∈ (f.withNeed other).needs := by
  unfold withNeed
  split
  · rename_i hold
    simpa [h] using hold
  · simp

theorem Change.extends {f g : Field} (h : Change f g) : Extends f g := by
  cases h with
  | use => exact ⟨rfl, rfl, rfl, rfl, fun _ h => h, id, fun _ h => h⟩
  | provide => exact ⟨rfl, rfl, rfl, rfl, fun _ h => h, fun _ => rfl, fun _ h => h⟩
  | need other =>
    unfold withNeed
    split
    · exact Extends.refl f
    · exact ⟨rfl, rfl, rfl, rfl, fun _ h => h, id, fun _ h => List.mem_append_left _ h⟩
  | statement rest => exact ⟨rfl, rfl, rfl, rfl, fun _ h => h, id, fun _ h => h⟩
  | make expr hnone =>
    refine ⟨rfl, rfl, rfl, rfl, fun old hold => ?_, id, fun _ h => h⟩
    rw [hnone] at hold
    cases hold

/-- The statement is a call of a method of the field. -/
def Calls (f : Field) (statement : Text) : Prop := ∃ rest, statement = f.name ++ "." ++ rest

theorem Change.calls {f g : Field} (h : Change f g) (hf : ∀ s ∈ f.statements, f.Calls s) :
    ∀ s ∈ g.statements, g.Calls s := by
  cases h with
  | use => exact hf
  | provide => exact hf
  | need other =>
    unfold withNeed
    split
    · exact hf
    · exact hf
  | statement rest =>
    intro s hs
    rcases List.mem_append.mp hs with hold | hnew
    · exact hf s hold
    · exact ⟨rest, List.mem_singleton.mp hnew⟩
  | make expr _ => exact hf

/-- The line makes the field or is one of its statements. -/
def Writes (f : Field) (line : Text) : Prop :=
  (∃ expr, f.initializer = some expr ∧ line = f.name ++ " = " ++ expr) ∨ line ∈ f.statements

theorem Change.writes {f g : Field} (h : Change f g) {line : Text} (hline : f.Writes line) :
    g.Writes line := by
  cases h with
  | use => exact hline
  | provide => exact hline
  | need other =>
    unfold withNeed
    split
    · exact hline
    · exact hline
  | statement rest => exact hline.imp_right (List.mem_append_left _)
  | make expr hnone =>
    rcases hline with ⟨old, hold, -⟩ | hstatement
    · rw [hnone] at hold
      cases hold
    · exact Or.inr hstatement

end Field

/-! ## Tables -/

namespace FieldTable

/-- What can happen to a table. -/
inductive Step (t : FieldTable) : FieldTable → Prop
  | change (id : FieldId) (g : Field → Field) :
      Field.Change (t.field id) (g (t.field id)) → Step t (t.change id g)
  | push (f : Field) (name : Text) :
      t.find? name = none → f.name = Text.sanitize name → f.statements = [] →
      Step t { t with fields := t.fields.push f }
  | stack (frames : List Frame) : Step t { t with stack := frames }
  | counter (n : Nat) : Step t { t with counter := n }
  | reference (r : FieldReference) : Step t { t with references := t.references ++ [r] }

/-- Any number of steps. -/
def Run : FieldTable → FieldTable → Prop := Relation.ReflTransGen Step

theorem Run.refl (t : FieldTable) : Run t t := Relation.ReflTransGen.refl

theorem Run.trans {t u v : FieldTable} (h : Run t u) (h' : Run u v) : Run t v :=
  Relation.ReflTransGen.trans h h'

theorem Step.run {t t' : FieldTable} (h : Step t t') : Run t t' := Relation.ReflTransGen.single h

theorem run_depend (t : FieldTable) (name : Text) : Run t (t.depend name) := by
  unfold depend
  split
  · exact (Step.change _ _ (Field.Change.need name)).run
  · exact Run.refl t

theorem run_addReference (t : FieldTable) (r : FieldReference) : Run t (t.addReference r) :=
  (Step.reference r).run.trans (run_depend _ _)

theorem run_register {t t' : FieldTable} {c : Catalog} {precedence : Precedence}
    {type : Option TypeId} {name : Text} {id : FieldId}
    (h : t.register c precedence type name = .ok (id, t')) : Run t t' := by
  unfold register at h
  split at h
  · cases h
  · rename_i hfree
    cases h
    exact (Step.push _ name hfree rfl rfl).run.trans (run_depend _ _)

theorem run_require {t t' : FieldTable} {c : Catalog} {precedence : Precedence}
    {type : Option TypeId} {name : Text} {id : FieldId}
    (h : t.require c precedence type name = .ok (id, t')) : Run t t' := by
  unfold require at h
  split at h
  · simp only at h
    split at h
    · cases h
    · cases h
      exact run_depend _ _
  · exact run_register h

/-! ## What every run keeps -/

theorem field_push {t : FieldTable} {f : Field} {id : FieldId} (h : id < t.fields.size) :
    ({ t with fields := t.fields.push f } : FieldTable).field id = t.field id := by
  simp [field, Array.getElem?_push, Nat.ne_of_lt h]

theorem field_push_size (t : FieldTable) (f : Field) :
    ({ t with fields := t.fields.push f } : FieldTable).field t.fields.size = f := by
  simp [field]

/-- A table further along: it has more fields and references, and the old ones are still there. -/
structure Extends (t t' : FieldTable) : Prop where
  size : t.fields.size ≤ t'.fields.size
  field : ∀ id < t.fields.size, Field.Extends (t.field id) (t'.field id)
  references : t.references <+: t'.references

theorem Extends.refl (t : FieldTable) : Extends t t :=
  ⟨Nat.le_refl _, fun _ _ => Field.Extends.refl _, List.prefix_refl _⟩

theorem Extends.trans {t u v : FieldTable} (h : Extends t u) (h' : Extends u v) : Extends t v :=
  ⟨Nat.le_trans h.size h'.size,
    fun id hid => (h.field id hid).trans (h'.field id (Nat.lt_of_lt_of_le hid h.size)),
    h.references.trans h'.references⟩

theorem Step.extends {t t' : FieldTable} (h : Step t t') : Extends t t' := by
  cases h with
  | change id g hg =>
    refine ⟨by simp, fun other _ => ?_, List.prefix_refl _⟩
    rw [field_change]
    split
    · rename_i heq
      obtain ⟨rfl, -⟩ := heq
      exact hg.extends
    · exact Field.Extends.refl _
  | push f name _ _ _ =>
    refine ⟨by simp, fun id hid => ?_, List.prefix_refl _⟩
    rw [field_push hid]
    exact Field.Extends.refl _
  | stack frames => exact ⟨Nat.le_refl _, fun _ _ => Field.Extends.refl _, List.prefix_refl _⟩
  | counter n => exact ⟨Nat.le_refl _, fun _ _ => Field.Extends.refl _, List.prefix_refl _⟩
  | reference r =>
    exact ⟨Nat.le_refl _, fun _ _ => Field.Extends.refl _, List.prefix_append _ _⟩

theorem Run.extends {t t' : FieldTable} (h : Run t t') : Extends t t' := by
  induction h with
  | refl => exact Extends.refl t
  | tail _ hstep ih => exact ih.trans hstep.extends

/-- The line makes a field of the table or is a statement of one. -/
def Writes (t : FieldTable) (line : Text) : Prop :=
  ∃ id < t.fields.size, (t.field id).Writes line

theorem Step.writes {t t' : FieldTable} (h : Step t t') {line : Text} (hline : t.Writes line) :
    t'.Writes line := by
  obtain ⟨id, hid, hwrites⟩ := hline
  cases h with
  | change other g hg =>
    refine ⟨id, by simpa using hid, ?_⟩
    rw [field_change]
    split
    · rename_i heq
      obtain ⟨rfl, -⟩ := heq
      exact hg.writes hwrites
    · exact hwrites
  | push f name _ _ _ =>
    refine ⟨id, by simpa using Nat.lt_succ_of_lt hid, ?_⟩
    rw [field_push hid]
    exact hwrites
  | stack frames => exact ⟨id, hid, hwrites⟩
  | counter n => exact ⟨id, hid, hwrites⟩
  | reference r => exact ⟨id, hid, hwrites⟩

/-- Lines stay where they are written. -/
theorem Run.writes {t t' : FieldTable} (h : Run t t') {line : Text} (hline : t.Writes line) :
    t'.Writes line := by
  induction h with
  | refl => exact hline
  | tail _ hstep ih => exact hstep.writes ih

@[simp] theorem size_depend (t : FieldTable) (name : Text) :
    (t.depend name).fields.size = t.fields.size := by
  unfold depend
  split
  · exact size_change _ _ _
  · rfl

/-- A new field gets the next number. -/
theorem size_register {t t' : FieldTable} {c : Catalog} {precedence : Precedence}
    {type : Option TypeId} {name : Text} {id : FieldId}
    (h : t.register c precedence type name = .ok (id, t')) :
    id = t.fields.size ∧ t'.fields.size = t.fields.size + 1 := by
  unfold register at h
  split at h
  · cases h
  · cases h
    simp

theorem field_depend (t : FieldTable) (name : Text) (id : FieldId) :
    ∃ needs, (t.depend name).field id = { t.field id with needs } := by
  unfold depend
  split
  · rw [field_change]
    split
    · unfold Field.withNeed
      split
      · exact ⟨_, rfl⟩
      · exact ⟨_, rfl⟩
    · exact ⟨_, rfl⟩
  · exact ⟨_, rfl⟩

/-- A new field holds its names and its class; all others need what they needed, or more. -/
theorem field_register {t t' : FieldTable} {c : Catalog} {precedence : Precedence}
    {type : Option TypeId} {name : Text} {id : FieldId}
    (h : t.register c precedence type name = .ok (id, t')) :
    (∀ other < t.fields.size, ∃ needs, t'.field other = { t.field other with needs }) ∧
      ∃ needs, t'.field id =
        { name := Text.sanitize name, declared := name, type, precedence,
          element := t.currentElement, needs } := by
  unfold register at h
  split at h
  · cases h
  · cases h
    refine ⟨fun other hother => ?_, ?_⟩
    · obtain ⟨needs, hfield⟩ := field_depend _ _ other
      rw [hfield, field_push hother]
      exact ⟨_, rfl⟩
    · obtain ⟨needs, hfield⟩ := field_depend _ _ t.fields.size
      rw [hfield, field_push_size]
      exact ⟨_, rfl⟩

/-- A new field is not read yet. -/
theorem used_register {t t' : FieldTable} {c : Catalog} {precedence : Precedence}
    {type : Option TypeId} {name : Text} {new id : FieldId}
    (h : t.register c precedence type name = .ok (new, t')) (hid : id < t'.fields.size)
    (hused : (t'.field id).used = true) : id < t.fields.size ∧ (t.field id).used = true := by
  obtain ⟨rfl, hsize⟩ := size_register h
  obtain ⟨hold, needs, hnew⟩ := field_register h
  rw [hsize] at hid
  rcases Nat.eq_or_lt_of_le (Nat.lt_succ_iff.mp hid) with rfl | hlt
  · rw [hnew] at hused
    cases hused
  · obtain ⟨needs, hfield⟩ := hold id hlt
    rw [hfield] at hused
    exact ⟨hlt, hused⟩

/-! ## Marks -/

/-- Nothing happened to fields but that some were marked as read. -/
structure Marks (t t' : FieldTable) : Prop where
  size : t'.fields.size = t.fields.size
  field : ∀ id, ∃ used, t'.field id = { t.field id with used }

theorem Marks.refl (t : FieldTable) : Marks t t := ⟨rfl, fun _ => ⟨_, rfl⟩⟩

theorem Marks.trans {t u v : FieldTable} (h : Marks t u) (h' : Marks u v) : Marks t v := by
  refine ⟨h'.size.trans h.size, fun id => ?_⟩
  obtain ⟨_, hfield⟩ := h.field id
  obtain ⟨used, hfield'⟩ := h'.field id
  exact ⟨used, by rw [hfield', hfield]⟩

theorem marks_change (t : FieldTable) (id : FieldId) :
    Marks t (t.change id ({ · with used := true })) := by
  refine ⟨size_change _ _ _, fun other => ?_⟩
  rw [field_change]
  split <;> exact ⟨_, rfl⟩

/-- A field that a mark is set for is the only one that is marked. -/
theorem used_mark {t : FieldTable} {id other : FieldId}
    (h : ((t.change id ({ · with used := true })).field other).used = true) :
    (t.field other).used = true ∨ other = id := by
  by_cases hsame : id = other
  · exact Or.inr hsame.symm
  · rw [field_change_ne hsame] at h
    exact Or.inl h

/-- Whatever is not the mark is the same. -/
theorem Marks.apply {α : Type} {t t' : FieldTable} (h : Marks t t') (id : FieldId) (p : Field → α)
    (hp : ∀ f used, p { f with used } = p f) : p (t'.field id) = p (t.field id) := by
  obtain ⟨used, hfield⟩ := h.field id
  rw [hfield, hp]

theorem Marks.name {t t' : FieldTable} (h : Marks t t') (id : FieldId) :
    (t'.field id).name = (t.field id).name := h.apply id (·.name) fun _ _ => rfl

theorem Marks.find? {t t' : FieldTable} (h : Marks t t') (name : Text) :
    t'.find? name = t.find? name := by
  unfold FieldTable.find? FieldTable.byName?
  rw [h.size]
  simp only [h.name]

/-- The names of a table are plain identifiers, each of one field, and the statements of a field
call its methods. -/
structure WellFormed (t : FieldTable) : Prop where
  plain : ∀ id < t.fields.size, Text.IsPlainName (t.field id).name
  unique : ∀ a < t.fields.size, ∀ b < t.fields.size,
    (t.field a).name = (t.field b).name → a = b
  calls : ∀ id < t.fields.size, ∀ s ∈ (t.field id).statements, (t.field id).Calls s

theorem wellFormed_empty : WellFormed {} := ⟨by simp, by simp, by simp⟩

theorem WellFormed.marks {t t' : FieldTable} (h : t.WellFormed) (hmarks : Marks t t') :
    t'.WellFormed := by
  refine ⟨fun id hid => ?_, fun a ha b hb hab => ?_, fun id hid statement hmem => ?_⟩
  · rw [hmarks.name]
    exact h.plain id (hmarks.size ▸ hid)
  · rw [hmarks.name, hmarks.name] at hab
    exact h.unique a (hmarks.size ▸ ha) b (hmarks.size ▸ hb) hab
  · rw [hmarks.apply id (·.statements) fun _ _ => rfl] at hmem
    obtain ⟨rest, hrest⟩ := h.calls id (hmarks.size ▸ hid) statement hmem
    exact ⟨rest, by rw [hmarks.name, hrest]⟩

theorem byName?_eq_none_iff {t : FieldTable} {name : Text} :
    t.byName? name = none ↔ ∀ id < t.fields.size, (t.field id).name ≠ name := by
  unfold byName?
  rw [List.find?_eq_none]
  simp [List.mem_range]

theorem byName?_eq_some {t : FieldTable} {name : Text} {id : FieldId}
    (h : t.byName? name = some id) : id < t.fields.size ∧ (t.field id).name = name := by
  unfold byName? at h
  have hmem := List.mem_of_find?_eq_some h
  have hname := List.find?_some h
  exact ⟨List.mem_range.mp hmem, by simpa using hname⟩

/-- A spelling that is not in normal form names no field. -/
theorem WellFormed.byName?_none {t : FieldTable} {name : Text} (h : t.WellFormed)
    (hname : Text.sanitize name ≠ name) : t.byName? name = none := by
  rw [byName?_eq_none_iff]
  intro id hid heq
  exact hname (Text.sanitize_of_isPlainName (heq ▸ h.plain id hid))

theorem WellFormed.change {t : FieldTable} {id : FieldId} {g : Field → Field} (h : t.WellFormed)
    (hg : Field.Change (t.field id) (g (t.field id))) : (t.change id g).WellFormed := by
  have hname : ∀ other, ((t.change id g).field other).name = (t.field other).name := by
    intro other
    rw [field_change]
    split
    · rename_i heq
      obtain ⟨rfl, -⟩ := heq
      exact hg.extends.name
    · rfl
  refine ⟨?_, ?_, ?_⟩
  · intro other hother
    rw [size_change] at hother
    rw [hname]
    exact h.plain other hother
  · intro a ha b hb hab
    rw [size_change] at ha hb
    rw [hname, hname] at hab
    exact h.unique a ha b hb hab
  · intro other hother
    rw [size_change] at hother
    rw [field_change]
    split
    · rename_i heq
      obtain ⟨rfl, -⟩ := heq
      exact hg.calls (h.calls id hother)
    · exact h.calls other hother

theorem WellFormed.push {t : FieldTable} {f : Field} {name : Text} (h : t.WellFormed)
    (hfree : t.find? name = none) (hname : f.name = Text.sanitize name)
    (hcalls : f.statements = []) :
    ({ t with fields := t.fields.push f } : FieldTable).WellFormed := by
  have hnew : ∀ id < t.fields.size, (t.field id).name ≠ f.name := by
    rw [hname]
    exact byName?_eq_none_iff.mp hfree
  have hcases : ∀ id < t.fields.size + 1, id < t.fields.size ∨ id = t.fields.size := by omega
  refine ⟨?_, ?_, ?_⟩
  · intro id hid
    simp only [Array.size_push] at hid
    rcases hcases id hid with hlt | rfl
    · rw [field_push hlt]
      exact h.plain id hlt
    · rw [field_push_size, hname]
      exact Text.sanitize_isPlainName name
  · intro a ha b hb hab
    simp only [Array.size_push] at ha hb
    rcases hcases a ha with hlta | rfl
    · rcases hcases b hb with hltb | rfl
      · rw [field_push hlta, field_push hltb] at hab
        exact h.unique a hlta b hltb hab
      · rw [field_push hlta, field_push_size] at hab
        exact absurd hab (hnew a hlta)
    · rcases hcases b hb with hltb | rfl
      · rw [field_push hltb, field_push_size] at hab
        exact absurd hab.symm (hnew b hltb)
      · rfl
  · intro id hid
    simp only [Array.size_push] at hid
    rcases hcases id hid with hlt | rfl
    · rw [field_push hlt]
      exact h.calls id hlt
    · rw [field_push_size, hcalls]
      simp

theorem Step.wellFormed {t t' : FieldTable} (h : Step t t') (ht : t.WellFormed) :
    t'.WellFormed := by
  cases h with
  | change id g hg => exact ht.change hg
  | push f name hfree hname hcalls => exact ht.push hfree hname hcalls
  | stack frames => exact ⟨ht.plain, ht.unique, ht.calls⟩
  | counter n => exact ⟨ht.plain, ht.unique, ht.calls⟩
  | reference r => exact ⟨ht.plain, ht.unique, ht.calls⟩

theorem Run.wellFormed {t t' : FieldTable} (h : Run t t') (ht : t.WellFormed) : t'.WellFormed := by
  induction h with
  | refl => exact ht
  | tail _ hstep ih => exact hstep.wellFormed ih

end FieldTable

end ViewBinder
