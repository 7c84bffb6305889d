-- The types of references. The expression that a reference stands for is built up step by step: it
-- begins with a field, goes on through accessors, and may end in a dereference, a box or a
-- conversion. Each step has a typing rule, and in a regular catalog whatever is made to fit a type
-- has, by these rules, a type that can be used where that type is expected.
import ViewBinder.Proofs.Attribute.Single
import ViewBinder.Proofs.Catalog.Regular
import ViewBinder.Proofs.Draft.Settle

namespace ViewBinder

/-! ## Expressions -/

/-- An expression by which a program reads what a value refers to. -/
inductive Expr where
  /-- The local of a field. -/
  | field (id : FieldId)
  | call (e : Expr) (accessor : Method)
  | deref (e : Expr)
  | convert (t : TypeId) (e : Expr)
  /-- A pointer to a copy. -/
  | box (t : TypeId) (e : Expr)
  | constant (t : TypeId) (k : EnumConstant)

namespace Expr

/-- The expression as it is written. -/
def text (d : Draft) : Expr → Text
  | field id => (d.fields.field id).name
  | call e accessor => e.text d ++ "." ++ accessor.name ++ "()"
  | deref e => "*" ++ e.text d
  | convert t e => (d.catalog.decl t).name ++ "(" ++ e.text d ++ ")"
  | box t e => Program.box (d.catalog.decl t).name (e.text d)
  | constant t k => (d.imports.qualify (d.catalog.decl t) k.ident).1

/-- The expression reads a path: a field by its name, then through the accessor of each further part.
What is read has the type that the last accessor returns. -/
inductive Reads (d : Draft) : List Text → Expr → Option TypeId → Prop
  | field {name : Text} {id : FieldId} : d.fields.find? name = some id →
      Reads d [name] (.field id) (d.fields.field id).type
  | call {path : List Text} {property : Text} {e : Expr} {type : Option TypeId}
      {accessor : Method} : Reads d path e type → d.catalog.getter? type property = some accessor →
      Reads d (path ++ [property]) (.call e accessor) accessor.returns

theorem Reads.ne_nil {d : Draft} {path : List Text} {e : Expr} {type : Option TypeId}
    (h : Reads d path e type) : path ≠ [] := by
  cases h <;> simp

/-- Numbers convert to each other, and whatever can be used where a type is expected converts to it. -/
def Converts (c : Catalog) (type : Option TypeId) (t : TypeId) : Prop :=
  c.isAssignable type (some t) = true ∨ c.isNumeric (some t) = true ∧ c.isNumeric type = true

/-- The expression has the type, if the path is read by it at all. -/
inductive HasType (d : Draft) (path : List Text) : Expr → Option TypeId → Prop
  | read {e : Expr} {type : Option TypeId} : Reads d path e type → HasType d path e type
  | deref {e : Expr} {type : Option TypeId} : HasType d path e type →
      d.catalog.isBoxed type = true → HasType d path (.deref e) (d.catalog.unboxed type)
  | convert {e : Expr} {type : Option TypeId} {t : TypeId} : HasType d path e type →
      Converts d.catalog type t → HasType d path (.convert t e) (some t)
  | box {e : Expr} {t : TypeId} : HasType d path e (d.catalog.unboxed (some t)) →
      d.catalog.isBoxed (some t) = true → HasType d path (.box t e) (some t)
  | constant {t : TypeId} {k : EnumConstant} : k ∈ (d.catalog.decl t).constants →
      HasType d path (.constant t k) (some t)

end Expr

/-! ## Following a path -/

namespace Draft

open ViewBinder.Expr (Reads HasType Converts)

variable {d : Draft} {r : FieldReference} {type found : Option TypeId}

/-- Accessors are called one after the other. -/
theorem reads_follow {segments path : List Text} {e : Expr} {text : Text}
    (h : d.follow r segments type (e.text d) = .ok (found, text)) (hreads : Reads d path e type) :
    ∃ e', Reads d (path ++ segments) e' found ∧ e'.text d = text := by
  induction segments generalizing path e type with
  | nil =>
    cases h
    exact ⟨e, by rwa [List.append_nil], rfl⟩
  | cons segment rest ih =>
    unfold follow at h
    split at h
    · rename_i accessor hgetter
      obtain ⟨e', hreads', htext⟩ := ih (e := .call e accessor) h (hreads.call hgetter)
      rw [List.append_assoc] at hreads'
      exact ⟨e', hreads', htext⟩
    · cases h

/-- The target of a reference reads its path. -/
theorem reads_target {id : FieldId} {text : Text} (h : d.target r = .ok (id, found, text)) :
    ∃ e, Reads d r.segments e found ∧ e.text d = text := by
  have hpath : r.segments = r.fieldName :: r.segments.drop 1 := by
    have hne : r.segments ≠ [] := Text.splitOn_ne_nil _ _
    unfold FieldReference.fieldName
    cases hsegments : r.segments with
    | nil => exact absurd hsegments hne
    | cons first rest => rfl
  unfold target at h
  split at h
  · cases h
  · rename_i other hfind
    have htext : (d.fields.field other).name = Expr.text d (.field other) := rfl
    dsimp only at h
    cases hfollow : d.follow r (r.segments.drop 1) (d.fields.field other).type
        (d.fields.field other).name with
    | error p =>
      rw [hfollow] at h
      cases h
    | ok reached =>
      rw [hfollow] at h
      cases h
      rw [hpath]
      exact reads_follow hfollow (.field hfind)

/-! ## Fitting a type -/

theorem isAssignable_of_key {c : Catalog} {s t : TypeId} (h : (c.decl s).key = (c.decl t).key) :
    c.isAssignable (some s) (some t) = true := by
  simp [Catalog.isAssignable, h]

theorem boxed_of_isBoxedNumeric {c : Catalog} (h : c.isBoxedNumeric type = true) :
    c.isBoxed type = true ∧ c.isNumeric (c.unboxed type) = true := by
  cases type with
  | none => cases h
  | some t => simpa [Catalog.isBoxedNumeric, Catalog.isBoxed, Catalog.unboxed] using h

/-- Whatever is made to fit a type converts to it. -/
theorem hasType_adapt (hd : d.catalog.Regular) {path : List Text} {e : Expr} {t : TypeId}
    {adapted : Text} (h : adapt? d.catalog (some t) type (e.text d) = some adapted)
    (htype : HasType d path e type) :
    ∃ e' type', HasType d path e' type' ∧ e'.text d = adapted ∧ Converts d.catalog type' t := by
  cases adapts_of_adapt? h with
  | same hfits => exact ⟨e, type, htype, rfl, hfits⟩
  | deref hguard =>
    rcases hguard with ⟨hnumber, hboxedNumber⟩ | ⟨hboxed, hkey⟩
    · obtain ⟨hboxed, hinner⟩ := boxed_of_isBoxedNumeric hboxedNumber
      exact ⟨.deref e, _, .deref htype hboxed, rfl, Or.inr ⟨hnumber, hinner⟩⟩
    · obtain ⟨p, -, hp, -⟩ := hd.unboxed hboxed
      refine ⟨.deref e, _, .deref htype hboxed, rfl, Or.inl ?_⟩
      rw [hp] at hkey ⊢
      exact isAssignable_of_key hkey
  | box hboxed hkey =>
    obtain ⟨p, hin, hp, hkind⟩ := hd.unboxed hboxed
    -- only the primitive itself has its key
    have hsame : type = d.catalog.unboxed (some t) := by
      rw [hp] at hkey ⊢
      exact hd.eq_of_key hin hkind hkey
    rw [hsame] at htype
    exact ⟨.box t e, _, .box htype hboxed, rfl, Or.inl (isAssignable_of_key rfl)⟩

/-- What a reference to one type is resolved to converts to the type. -/
theorem hasType_resolved (hd : d.catalog.Regular) {n : Nat} {id : FieldId} {t : TypeId}
    {text adapted : Text} (h : Resolved d r n id text adapted) (htypes : r.types = [some t]) :
    ∃ e type, HasType d r.segments e type ∧ e.text d = adapted ∧ Converts d.catalog type t := by
  obtain ⟨actual, htarget, hfit⟩ := h.target
  obtain ⟨e, hreads, rfl⟩ := reads_target htarget
  unfold fit at hfit
  rw [htypes] at hfit
  cases hadapt : adapt? d.catalog (some t) actual (e.text d) with
  | none => simp [hadapt] at hfit
  | some text =>
    simp [hadapt] at hfit
    exact hasType_adapt hd (hfit ▸ hadapt) (.read hreads)

/-! ## Drafts that read alike -/

/-- The drafts have the same fields of the same types in the same catalog, and write them alike. -/
structure SameScope (d d' : Draft) : Prop where
  catalog : d'.catalog = d.catalog
  imports : d'.imports = d.imports
  size : d'.fields.fields.size = d.fields.fields.size
  name : ∀ id, (d'.fields.field id).name = (d.fields.field id).name
  type : ∀ id, (d'.fields.field id).type = (d.fields.field id).type

namespace SameScope

variable {d' d'' : Draft}

theorem trans (h : SameScope d d') (h' : SameScope d' d'') : SameScope d d'' where
  catalog := h'.catalog.trans h.catalog
  imports := h'.imports.trans h.imports
  size := h'.size.trans h.size
  name id := (h'.name id).trans (h.name id)
  type id := (h'.type id).trans (h.type id)

theorem find? (h : SameScope d d') (name : Text) : d'.fields.find? name = d.fields.find? name := by
  unfold FieldTable.find? FieldTable.byName?
  rw [h.size]
  simp only [h.name]

theorem text (h : SameScope d d') (e : Expr) : e.text d' = e.text d := by
  induction e with
  | field id => exact h.name id
  | constant t k =>
    unfold Expr.text
    rw [h.catalog, h.imports]
  | call e accessor ih | deref e ih =>
    unfold Expr.text
    rw [ih]
  | convert t e ih | box t e ih =>
    unfold Expr.text
    rw [ih, h.catalog]

theorem reads (h : SameScope d d') {path : List Text} {e : Expr} (hreads : Reads d' path e type) :
    Reads d path e type := by
  induction hreads with
  | field hfind =>
    rw [h.type]
    exact .field (h.find? _ ▸ hfind)
  | call _ hgetter ih => exact .call ih (h.catalog ▸ hgetter)

theorem hasType (h : SameScope d d') {path : List Text} {e : Expr}
    (htype : HasType d' path e type) : HasType d path e type := by
  induction htype with
  | read hreads => exact .read (h.reads hreads)
  | deref _ hboxed ih =>
    rw [h.catalog] at hboxed ⊢
    exact .deref ih hboxed
  | convert _ hconverts ih => exact .convert ih (h.catalog ▸ hconverts)
  | box _ hboxed ih =>
    rw [h.catalog] at hboxed ih
    exact .box ih hboxed
  | constant hk => exact .constant (h.catalog ▸ hk)

end SameScope

theorem sameScope_addReference (d : Draft) (markers : Markers) (r : FieldReference) :
    SameScope d { d with markers, fields := d.fields.addReference r } where
  catalog := rfl
  imports := rfl
  size := FieldTable.size_depend _ _
  name id := by
    obtain ⟨needs, hfield⟩ := FieldTable.field_depend
      { d.fields with references := d.fields.references ++ [r] } r.fieldName id
    exact congrArg (·.name) hfield
  type id := by
    obtain ⟨needs, hfield⟩ := FieldTable.field_depend
      { d.fields with references := d.fields.references ++ [r] } r.fieldName id
    exact congrArg (·.type) hfield

end Draft

end ViewBinder
