-- Settling references: every reference is followed to the field it starts from, whether that field
-- is made or only found later, and its marker then stands for the expression that reads it. What
-- the fields are called and how they are made stays as it was.
import ViewBinder.Proofs.Draft.Step
import ViewBinder.Proofs.Marker.Expand

namespace ViewBinder

/-! ## Meanings -/

namespace Markers

theorem find?_redefine (m : Markers) (id other : Nat) (meaning : Meaning) :
    (m.redefine id meaning).find? other =
      if other = id then (m.find? id).map ({ · with meaning }) else m.find? other := by
  unfold find? redefine
  simp only
  induction m.entries with
  | nil => simp
  | cons e rest ih =>
    obtain ⟨k, entry⟩ := e
    by_cases hk : k = id <;> by_cases ho : other = k <;> grind

theorem resolve_ok {m m' : Markers} {marker value : Text} {a : Unit}
    (h : (resolve marker value).runOn m = (.ok a, m')) :
    ∃ id entry, Marker.id? marker = some id ∧ m.find? id = some entry ∧
      m' = m.redefine id (.known value) := by
  unfold resolve at h
  split at h
  · cases h
  · rename_i id hid
    obtain ⟨_, _, hget, h⟩ := Work.bind_ok h
    cases hget
    split at h
    · cases h
    · rename_i entry hfind
      cases h
      exact ⟨id, entry, hid, hfind, rfl⟩

theorem Fixed.redefine {m : Markers} (h : m.Fixed) (id : Nat) (value : Text) :
    (m.redefine id (.known value)).Fixed := by
  intro e he
  obtain ⟨old, hold, rfl⟩ := List.mem_map.mp he
  split
  · exact ⟨value, rfl⟩
  · exact h old hold

end Markers

namespace Draft

/-- The drafts differ in nothing that references look at; fields may be marked as read. -/
structure Alike (d d' : Draft) : Prop where
  document : d'.document = d.document
  catalog : d'.catalog = d.catalog
  size : d'.fields.fields.size = d.fields.fields.size
  name : ∀ id, (d'.fields.field id).name = (d.fields.field id).name
  type : ∀ id, (d'.fields.field id).type = (d.fields.field id).type
  initializer : ∀ id, (d'.fields.field id).initializer = (d.fields.field id).initializer
  statements : ∀ id, (d'.fields.field id).statements = (d.fields.field id).statements
  references : d'.fields.references = d.fields.references

/-- What settling references does to a draft: markers get texts for meanings, fields are marked as
read, and reports stay. -/
structure Settles (d d' : Draft) : Prop extends Alike d d' where
  fixed : d.markers.Fixed → d'.markers.Fixed
  reports : d.log.hasErrors = true → d'.log.hasErrors = true
  marks : d.fields.Marks d'.fields
  imports : d'.imports = d.imports
  bundle : d'.bundle = d.bundle
  messages : d'.messages = d.messages

theorem Alike.refl (d : Draft) : Alike d d :=
  ⟨rfl, rfl, rfl, fun _ => rfl, fun _ => rfl, fun _ => rfl, fun _ => rfl, rfl⟩

theorem Alike.trans {d d' d'' : Draft} (h : Alike d d') (h' : Alike d' d'') : Alike d d'' :=
  ⟨h'.document.trans h.document, h'.catalog.trans h.catalog, h'.size.trans h.size,
    fun id => (h'.name id).trans (h.name id), fun id => (h'.type id).trans (h.type id),
    fun id => (h'.initializer id).trans (h.initializer id),
    fun id => (h'.statements id).trans (h.statements id), h'.references.trans h.references⟩

theorem Settles.refl (d : Draft) : Settles d d :=
  ⟨Alike.refl d, fun h => h, fun h => h, FieldTable.Marks.refl _, rfl, rfl, rfl⟩

theorem Settles.trans {d d' d'' : Draft} (h : Settles d d') (h' : Settles d' d'') :
    Settles d d'' where
  toAlike := h.toAlike.trans h'.toAlike
  fixed hfixed := h'.fixed (h.fixed hfixed)
  reports hreported := h'.reports (h.reports hreported)
  marks := h.marks.trans h'.marks
  imports := h'.imports.trans h.imports
  bundle := h'.bundle.trans h.bundle
  messages := h'.messages.trans h.messages

theorem settles_use (d : Draft) (id : FieldId) {markers : Markers}
    (hfixed : d.markers.Fixed → markers.Fixed) :
    Settles d { d with markers, fields := d.fields.change id ({ · with used := true }) } where
  document := rfl
  catalog := rfl
  size := FieldTable.size_change _ _ _
  name other := FieldTable.field_change_apply d.fields id other _ (·.name) fun _ => rfl
  type other := FieldTable.field_change_apply d.fields id other _ (·.type) fun _ => rfl
  initializer other :=
    FieldTable.field_change_apply d.fields id other _ (·.initializer) fun _ => rfl
  statements other := FieldTable.field_change_apply d.fields id other _ (·.statements) fun _ => rfl
  references := rfl
  fixed := hfixed
  reports h := h
  marks := FieldTable.marks_change _ _
  imports := rfl
  bundle := rfl
  messages := rfl

theorem hasErrors_problem (log : Log) (place : Option Location) (p : Problem) :
    (log.problem place p).hasErrors = true := by
  simp [Log.problem, Log.error, Log.report, Log.hasErrors, Log.errors, Diagnostic.make]

theorem settles_report (d : Draft) (place : Option Location) (p : Problem) :
    Settles d { d with log := d.log.problem place p } where
  document := rfl
  catalog := rfl
  size := rfl
  name _ := rfl
  type _ := rfl
  initializer _ := rfl
  statements _ := rfl
  references := rfl
  fixed h := h
  reports _ := hasErrors_problem _ _ _
  marks := FieldTable.Marks.refl _
  imports := rfl
  bundle := rfl
  messages := rfl

/-- References are followed alike. -/
theorem Alike.target {d d' : Draft} (h : Alike d d') (r : FieldReference) :
    d'.target r = d.target r := by
  have hfind : d'.fields.find? r.fieldName = d.fields.find? r.fieldName := by
    unfold FieldTable.find? FieldTable.byName?
    rw [h.size]
    simp only [h.name]
  have hfollow : ∀ segments type expr,
      follow d' r segments type expr = follow d r segments type expr := by
    intro segments
    induction segments with
    | nil => exact fun _ _ => rfl
    | cons segment rest ih =>
      intro type expr
      unfold follow
      rw [h.catalog, h.document]
      split
      · exact ih _ _
      · rfl
  unfold Draft.target
  rw [hfind, h.document]
  split
  · rfl
  · simp only [h.name, h.type, hfollow]

theorem Alike.fit {d d' : Draft} (h : Alike d d') (r : FieldReference) (actual : Option TypeId)
    (expr : Text) : d'.fit r actual expr = d.fit r actual expr := by
  unfold Draft.fit
  rw [h.catalog, h.document]

/-! ## Fitting a type -/

/-- The ways in which an expression is made to fit a type: as it is, dereferenced or boxed. -/
inductive Adapts (c : Catalog) (wanted actual : Option TypeId) (expr : Text) : Text → Prop
  | same : c.isAssignable actual wanted = true ∨
      c.isNumeric wanted = true ∧ c.isNumeric actual = true → Adapts c wanted actual expr expr
  | deref : c.isNumeric wanted = true ∧ c.isBoxedNumeric actual = true ∨
      c.isBoxed actual = true ∧ c.key (c.unboxed actual) = c.key wanted →
      Adapts c wanted actual expr ("*" ++ expr)
  | box : c.isBoxed wanted = true → c.key (c.unboxed wanted) = c.key actual →
      Adapts c wanted actual expr (Program.box (c.simpleName wanted) expr)

theorem adapts_of_adapt? {c : Catalog} {wanted actual : Option TypeId} {expr adapted : Text}
    (h : adapt? c wanted actual expr = some adapted) : Adapts c wanted actual expr adapted := by
  unfold adapt? at h
  split at h
  · rename_i hassignable
    cases h
    exact .same (Or.inl hassignable)
  split at h
  · rename_i hnumbers
    cases h
    exact .same (Or.inr (by simpa using hnumbers))
  split at h
  · rename_i hnumber
    cases h
    exact .deref (Or.inl (by simpa using hnumber))
  split at h
  · rename_i hprimitive
    cases h
    simp only [Bool.and_eq_true, beq_iff_eq] at hprimitive
    exact .deref (Or.inr ⟨hprimitive.1.2, hprimitive.2⟩)
  split at h
  · rename_i hboxed
    cases h
    simp only [Bool.and_eq_true, beq_iff_eq] at hboxed
    exact .box hboxed.1 hboxed.2
  · cases h

/-! ## One reference -/

theorem lift_markers_ok {w : Work Markers α} {d d' : Draft} {a : α}
    (h : (liftM w : Work Draft α).runOn d = (.ok a, d')) :
    ∃ m, w.runOn d.markers = (.ok a, m) ∧ d' = { d with markers := m } := by
  change ((w.runOn d.markers).1, { d with markers := (w.runOn d.markers).2 }) = _ at h
  rcases hrun : w.runOn d.markers with ⟨answer, m⟩
  rw [hrun] at h
  cases h
  exact ⟨m, rfl, rfl⟩

/-- The reference leads from a field to an expression that fits, for which its marker stands. -/
structure Resolved (d : Draft) (r : FieldReference) (n : Nat) (id : FieldId)
    (expr adapted : Text) : Prop where
  marker : Marker.id? r.marker = some n
  target : ∃ type, d.target r = .ok (id, type, expr) ∧ d.fit r type expr = .ok adapted
  meaning : ∃ entry, d.markers.find? n = some entry ∧ entry.meaning = .known adapted

theorem settleReference_ok {d d' : Draft} {r : FieldReference} {sound : Bool}
    (h : (settleReference r).runOn d = (.ok sound, d')) :
    Settles d d' ∧
      (sound = false → d'.log.hasErrors = true ∧ d'.markers = d.markers) ∧
      (sound = true → ∃ n id expr adapted, Resolved d' r n id expr adapted ∧
        ∀ other, other ≠ n → d'.markers.find? other = d.markers.find? other) := by
  unfold settleReference at h
  obtain ⟨_, _, hget, h⟩ := Work.bind_ok h
  cases hget
  simp only at h
  split at h
  · obtain ⟨_, _, hreport, h⟩ := Work.bind_ok h
    cases hreport
    cases h
    exact ⟨settles_report _ _ _, fun _ => ⟨hasErrors_problem _ _ _, rfl⟩, nofun⟩
  · rename_i id actual expr htarget
    obtain ⟨_, _, huse, h⟩ := Work.bind_ok h
    cases huse
    split at h
    · cases h
    split at h
    · obtain ⟨_, _, hreport, h⟩ := Work.bind_ok h
      cases hreport
      cases h
      refine ⟨(settles_use d id fun h => h).trans (settles_report _ _ _), fun _ => ?_, nofun⟩
      exact ⟨hasErrors_problem _ _ _, rfl⟩
    · rename_i adapted hfit
      obtain ⟨_, d'', hresolve, hlast⟩ := Work.bind_ok h
      cases hlast
      obtain ⟨m, hm, rfl⟩ := lift_markers_ok hresolve
      obtain ⟨n, entry, hid, hfind, rfl⟩ := Markers.resolve_ok hm
      have halike := settles_use d id fun h => h.redefine n adapted
      refine ⟨halike, nofun, fun _ => ⟨n, id, expr, adapted, ⟨hid, ?_, ?_⟩, fun other hne => ?_⟩⟩
      · exact ⟨actual, (halike.target r).trans htarget, (halike.fit r actual expr).trans hfit⟩
      · refine ⟨{ entry with meaning := .known adapted }, ?_, rfl⟩
        rw [Markers.find?_redefine, if_pos rfl, hfind]
        rfl
      · rw [Markers.find?_redefine, if_neg hne]

/-- The field that a reference starts from is the only one that is marked as read. -/
theorem settleReference_reads {d d' : Draft} {r : FieldReference} {sound : Bool}
    (h : (settleReference r).runOn d = (.ok sound, d')) {id : FieldId}
    (hused : (d'.fields.field id).used = true) :
    (d.fields.field id).used = true ∨ ∃ type expr, d.target r = .ok (id, type, expr) := by
  unfold settleReference at h
  obtain ⟨_, _, hget, h⟩ := Work.bind_ok h
  cases hget
  simp only at h
  split at h
  · obtain ⟨_, _, hreport, h⟩ := Work.bind_ok h
    cases hreport
    cases h
    exact Or.inl hused
  · rename_i other actual expr htarget
    obtain ⟨_, _, huse, h⟩ := Work.bind_ok h
    cases huse
    have hfields : d'.fields = d.fields.change other ({ · with used := true }) := by
      split at h
      · cases h
      split at h
      · obtain ⟨_, _, hreport, h⟩ := Work.bind_ok h
        cases hreport
        cases h
        rfl
      · obtain ⟨_, _, hresolve, hlast⟩ := Work.bind_ok h
        cases hlast
        obtain ⟨m, -, rfl⟩ := lift_markers_ok hresolve
        rfl
    rw [hfields] at hused
    rcases FieldTable.used_mark hused with hold | rfl
    · exact Or.inl hold
    · exact Or.inr ⟨actual, expr, htarget⟩

/-! ## All references -/

/-- No two references have the same marker. -/
def Apart (rs : List FieldReference) : Prop :=
  rs.Pairwise fun r r' => ∀ n, Marker.id? r.marker = some n → Marker.id? r'.marker ≠ some n

theorem Resolved.alike {d d' : Draft} {r : FieldReference} {n : Nat} {id : FieldId}
    {expr adapted : Text} (h : Resolved d r n id expr adapted) (halike : Alike d d')
    (hfind : d'.markers.find? n = d.markers.find? n) : Resolved d' r n id expr adapted := by
  obtain ⟨type, htarget, hfit⟩ := h.target
  refine ⟨h.marker, ⟨type, ?_, ?_⟩, ?_⟩
  · exact (halike.target r).trans htarget
  · exact (halike.fit r type expr).trans hfit
  · rw [hfind]
    exact h.meaning

/-- One reference after the other: no other marker gets a meaning, and each reference either leads
to an expression or leaves a report. -/
theorem mapM_settleReference {rs : List FieldReference} {d d' : Draft} {sound : List Bool}
    (hapart : Apart rs)
    (h : (rs.mapM settleReference).runOn d = (.ok sound, d')) :
    Settles d d' ∧
      (∀ n, (∀ r ∈ rs, Marker.id? r.marker ≠ some n) →
        d'.markers.find? n = d.markers.find? n) ∧
      (sound.all id = false → d'.log.hasErrors = true) ∧
      (sound.all id = true →
        ∀ r ∈ rs, ∃ n id expr adapted, Resolved d' r n id expr adapted) := by
  induction rs generalizing d sound with
  | nil =>
    rw [List.mapM_nil] at h
    cases h
    exact ⟨Settles.refl _, fun _ _ => rfl, nofun, fun _ => by simp⟩
  | cons r rs ih =>
    rw [List.mapM_cons] at h
    obtain ⟨first, d₁, hfirst, h⟩ := Work.bind_ok h
    obtain ⟨others, d₂, hothers, h⟩ := Work.bind_ok h
    cases h
    obtain ⟨hnew, hapart⟩ := List.pairwise_cons.mp hapart
    obtain ⟨hsettles₁, hbroken, hsound⟩ := settleReference_ok hfirst
    obtain ⟨hsettles₂, hkept, hreported, hresolved⟩ := ih hapart hothers
    refine ⟨hsettles₁.trans hsettles₂, fun n hn => ?_, ?_, ?_⟩
    · rw [hkept n fun r' hr' => hn r' (List.mem_cons_of_mem _ hr')]
      cases first with
      | false => rw [(hbroken rfl).2]
      | true =>
        obtain ⟨n', id, expr, adapted, hfirst, hother⟩ := hsound rfl
        refine hother n fun heq => hn r List.mem_cons_self ?_
        rw [hfirst.marker, heq]
    · intro hall
      cases first with
      | false => exact hsettles₂.reports (hbroken rfl).1
      | true => exact hreported (by simpa using hall)
    · intro hall
      simp only [List.all_cons, id_eq, Bool.and_eq_true] at hall
      obtain ⟨rfl, hothers⟩ := hall
      intro r' hr'
      rcases List.mem_cons.mp hr' with rfl | hr'
      · obtain ⟨n, id, expr, adapted, hfirst, -⟩ := hsound rfl
        refine ⟨n, id, expr, adapted,
          hfirst.alike hsettles₂.toAlike (hkept n fun r'' hr'' heq => ?_)⟩
        exact hnew r'' hr'' n hfirst.marker heq
      · exact hresolved hothers r' hr'

/-- Fields that are marked as read by then were marked before, or references start from them. -/
theorem mapM_settleReference_reads {rs : List FieldReference} {d d' : Draft} {sound : List Bool}
    (h : (rs.mapM settleReference).runOn d = (.ok sound, d')) {id : FieldId}
    (hused : (d'.fields.field id).used = true) :
    (d.fields.field id).used = true ∨
      ∃ r ∈ rs, ∃ type expr, d.target r = .ok (id, type, expr) := by
  induction rs generalizing d sound with
  | nil =>
    rw [List.mapM_nil] at h
    cases h
    exact Or.inl hused
  | cons r rs ih =>
    rw [List.mapM_cons] at h
    obtain ⟨first, d₁, hfirst, h⟩ := Work.bind_ok h
    obtain ⟨others, d₂, hothers, h⟩ := Work.bind_ok h
    cases h
    have halike := (settleReference_ok hfirst).1.toAlike
    rcases ih hothers with hused₁ | ⟨r', hr', type, expr, htarget⟩
    · refine (settleReference_reads hfirst hused₁).imp_right ?_
      exact fun hfound => ⟨r, List.mem_cons_self, hfound⟩
    · rw [halike.target] at htarget
      exact Or.inr ⟨r', List.mem_cons_of_mem _ hr', type, expr, htarget⟩

theorem failure?_isSome {log : Log} (h : log.hasErrors = true) :
    ∃ failure, log.failure? = some failure := by
  unfold Log.hasErrors at h
  unfold Log.failure?
  split
  · rename_i hnil
    simp [hnil] at h
  · exact ⟨_, rfl⟩
  · exact ⟨_, rfl⟩

/-- The fields that settling references marks as read are those that references start from. -/
theorem settleReferences_reads {d d' : Draft} {a : Unit}
    (h : settleReferences.runOn d = (.ok a, d')) {id : FieldId}
    (hused : (d'.fields.field id).used = true) :
    (d.fields.field id).used = true ∨
      ∃ r ∈ d.fields.references, ∃ type expr, d.target r = .ok (id, type, expr) := by
  unfold settleReferences at h
  obtain ⟨_, _, hget, h⟩ := Work.bind_ok h
  cases hget
  obtain ⟨sound, d₁, hall, h⟩ := Work.bind_ok h
  have hsame : d' = d₁ := by
    split at h
    · obtain ⟨_, _, hget, h⟩ := Work.bind_ok h
      cases hget
      split at h <;> cases h
      rfl
    · cases h
      rfl
  exact mapM_settleReference_reads hall (hsame ▸ hused)

/-- References that can be settled lead to expressions, and only their markers get meanings. -/
theorem settleReferences_ok {d d' : Draft} {a : Unit}
    (hapart : Apart d.fields.references)
    (h : settleReferences.runOn d = (.ok a, d')) :
    Settles d d' ∧
      (∀ n, (∀ r ∈ d.fields.references, Marker.id? r.marker ≠ some n) →
        d'.markers.find? n = d.markers.find? n) ∧
      ∀ r ∈ d.fields.references, ∃ n id expr adapted, Resolved d' r n id expr adapted := by
  unfold settleReferences at h
  obtain ⟨_, _, hget, h⟩ := Work.bind_ok h
  cases hget
  obtain ⟨sound, d₁, hall, h⟩ := Work.bind_ok h
  obtain ⟨halike, hkept, hreported, hresolved⟩ := mapM_settleReference hapart hall
  cases hsound : sound.all id with
  | true =>
    simp only [hsound] at h
    cases h
    exact ⟨halike, hkept, hresolved hsound⟩
  | false =>
    -- a broken reference was reported, so the work ends in failure
    obtain ⟨failure, hfailure⟩ := failure?_isSome (hreported hsound)
    simp only [hsound, Bool.not_false, if_true] at h
    obtain ⟨_, _, hget, h⟩ := Work.bind_ok h
    cases hget
    simp only [hfailure] at h
    cases h

end Draft

end ViewBinder
