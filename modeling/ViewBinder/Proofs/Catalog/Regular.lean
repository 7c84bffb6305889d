-- Regular catalogs. Keys tell types apart and lead to the types they name, the primitives and their
-- boxed counterparts are all there, and no other type passes for one of them. Catalogs that were
-- put together from manifests are regular, and stay so when a unit adds types of its own.
import ViewBinder.Proofs.Catalog.Complete

namespace ViewBinder.Catalog

open Work (Leads)

/-- Keys tell types apart, and primitives and boxed types are those that every catalog has. -/
structure Regular (c : Catalog) : Prop where
  known : ∀ {key t}, c.lookup? key = some t → t < c.types.size ∧ (c.decl t).key = key
  unique : ∀ s < c.types.size, ∀ t < c.types.size, (c.decl s).key = (c.decl t).key → s = t
  basic : ∀ name ∈ primitiveNames, (c.lookup? name).isSome ∧ (c.lookup? ("*" ++ name)).isSome
  primitive : ∀ t, (c.decl t).kind = .primitive →
    (c.decl t).package = [] ∧ (c.decl t).name ∈ primitiveNames
  boxed : ∀ t, (c.decl t).kind = .boxed →
    ∃ p < c.types.size, (c.decl t).unboxed = some p ∧ (c.decl p).kind = .primitive

/-- The keys of one catalog lead to types of the other that have these keys. -/
def KnownIn (c c' : Catalog) : Prop :=
  ∀ key t, c.lookup? key = some t → t < c'.types.size ∧ (c'.decl t).key = key

variable {c c' : Catalog} {t : TypeId}

theorem Regular.knownIn (h : c.Regular) : c.KnownIn c := fun _ _ => h.known

/-! ## Primitives -/

theorem Regular.key_primitive (h : c.Regular) (ht : (c.decl t).kind = .primitive) :
    (c.decl t).key = (c.decl t).name := by
  unfold TypeDecl.key keyOf
  rw [(h.primitive t ht).1]
  rfl

/-- A number is known by its name. -/
theorem Regular.key_mem_numbers (h : c.Regular) (ht : c.isNumeric (some t) = true) :
    (c.decl t).key ∈ numericNames := by
  simp only [isNumeric, Bool.and_eq_true, beq_iff_eq] at ht
  rw [h.key_primitive ht.1]
  simpa using ht.2

/-- What has the key of a primitive is that primitive. -/
theorem Regular.eq_of_key (h : c.Regular) {p : TypeId} {actual : Option TypeId}
    (hp : p < c.types.size) (hkind : (c.decl p).kind = .primitive)
    (hkey : c.key (some p) = c.key actual) : actual = some p := by
  have hmem : c.key actual ∈ primitiveNames := by
    rw [← hkey]
    show (c.decl p).key ∈ _
    rw [h.key_primitive hkind]
    exact (h.primitive p hkind).2
  cases actual with
  | none =>
    have hnone : Text.ofString "<nil>" ∉ primitiveNames := by decide
    exact absurd hmem hnone
  | some s =>
    by_cases hs : s < c.types.size
    · rw [h.unique p hp s hs hkey]
    · have hnone : noType.key ∉ primitiveNames := by decide
      change (c.decl s).key ∈ primitiveNames at hmem
      rw [decl_eq_noType (Nat.not_lt.mp hs)] at hmem
      exact absurd hmem hnone

/-- A boxed type has its primitive. -/
theorem Regular.unboxed (h : c.Regular) {type : Option TypeId} (hboxed : c.isBoxed type = true) :
    ∃ p < c.types.size, c.unboxed type = some p ∧ (c.decl p).kind = .primitive := by
  cases type with
  | none => cases hboxed
  | some t => exact h.boxed t (by simpa [isBoxed] using hboxed)

/-! ## Sparing what is basic -/

/-- The type is a primitive or the boxed counterpart of one. -/
def IsBasic (c : Catalog) (t : TypeId) : Prop :=
  (c.decl t).kind = .primitive ∨ (c.decl t).kind = .boxed

/-- The type is the same in both catalogs but for what it is linked to. -/
structure SameType (c c' : Catalog) (t : TypeId) : Prop where
  package : (c'.decl t).package = (c.decl t).package
  name : (c'.decl t).name = (c.decl t).name
  kind : (c'.decl t).kind = (c.decl t).kind
  unboxed : (c'.decl t).unboxed = (c.decl t).unboxed

theorem sameType_of_eq (h : c'.decl t = c.decl t) : SameType c c' t := by
  constructor <;> rw [h]

theorem SameType.isBasic_iff (h : SameType c c' t) : c'.IsBasic t ↔ c.IsBasic t := by
  unfold IsBasic
  rw [h.kind]

/-- The other catalog goes on from the first, and has no basic types but those of the first. -/
structure Spares (c c' : Catalog) : Prop where
  size : c.types.size ≤ c'.types.size
  same : ∀ t, c.IsBasic t ∨ c'.IsBasic t → SameType c c' t

instance : Std.Refl Spares := ⟨fun _ => ⟨Nat.le_refl _, fun _ _ => sameType_of_eq rfl⟩⟩

instance : IsTrans Catalog Spares where
  trans c c' c'' h h' := by
    refine ⟨Nat.le_trans h.size h'.size, fun t ht => ?_⟩
    have hmiddle : c'.IsBasic t := by
      rcases ht with hfirst | hlast
      · exact (h.same t (Or.inl hfirst)).isBasic_iff.mpr hfirst
      · exact (h'.same t (Or.inr hlast)).isBasic_iff.mp hlast
    have hsame := h.same t (Or.inr hmiddle)
    have hsame' := h'.same t (Or.inl hmiddle)
    exact ⟨hsame'.package.trans hsame.package, hsame'.name.trans hsame.name,
      hsame'.kind.trans hsame.kind, hsame'.unboxed.trans hsame.unboxed⟩

/-- Nothing but the types counts. -/
theorem Spares.of_types {c'' : Catalog} (h : Spares c c') (htypes : c''.types = c'.types) :
    Spares c c'' := by
  have hdecl : ∀ t, c''.decl t = c'.decl t := fun t => by
    unfold decl
    rw [htypes]
  refine ⟨htypes ▸ h.size, fun t ht => ?_⟩
  unfold IsBasic at ht
  rw [hdecl] at ht
  have hsame := h.same t ht
  constructor <;> rw [hdecl]
  · exact hsame.package
  · exact hsame.name
  · exact hsame.kind
  · exact hsame.unboxed

theorem spares_change {f : TypeDecl → TypeDecl} (hf : OnlyLinks f) (c : Catalog) (id : TypeId) :
    Spares c (c.change id f) := by
  refine ⟨Nat.le_of_eq (size_change c id f).symm, fun t _ => ?_⟩
  rcases decl_change c id t f with hsame | ⟨-, -, hnew⟩
  · exact sameType_of_eq hsame
  · constructor <;> rw [hnew]
    · exact hf.package _
    · exact hf.name _
    · exact hf.kind _
    · exact hf.unboxed _

theorem spares_push {d : TypeDecl} (hprimitive : d.kind ≠ .primitive) (hboxed : d.kind ≠ .boxed)
    (c : Catalog) : Spares c (c.push d).2 := by
  refine ⟨size_push c d ▸ Nat.le_succ _, fun t ht => ?_⟩
  rcases decl_push_or c d t with hsame | ⟨rfl, hnew⟩
  · exact sameType_of_eq hsame
  · unfold IsBasic at ht
    rw [hnew, decl_size] at ht
    rcases ht with (hnone | hnone) | (hkind | hkind)
    · cases hnone
    · cases hnone
    · exact absurd hkind hprimitive
    · exact absurd hkind hboxed

instance (m : Manifest) : Leads Spares (load m) := by
  refine leads_load (fun t f hf => ⟨fun c => spares_change hf c t⟩) (fun d hprimitive hboxed =>
    leads_register fun c _ => (spares_push hprimitive hboxed c).of_types rfl) (fun tag t => ?_) m
  refine ⟨fun c => ?_⟩
  show Spares c (c.setDomTag tag t)
  unfold setDomTag
  split <;> exact (Std.Refl.refl (r := Spares) c).of_types rfl

theorem spares_loadings (c : Catalog) (ms : List Manifest) : Spares c (ms.foldl loading c) := by
  induction ms generalizing c with
  | nil => exact Std.Refl.refl c
  | cons m ms ih => exact IsTrans.trans _ _ _ (Leads.leads (w := load m) c) (ih (c.loading m))

/-! ## Catalogs that are regular -/

/-- No basic type is changed or added, so basic types are what they were. -/
theorem Regular.spared (h : c.Regular) (hspares : Spares c c')
    (hknown : ∀ {key t}, c'.lookup? key = some t → t < c'.types.size ∧ (c'.decl t).key = key)
    (hunique : ∀ s < c'.types.size, ∀ t < c'.types.size,
      (c'.decl s).key = (c'.decl t).key → s = t)
    (hlookup : ∀ key, (c.lookup? key).isSome → (c'.lookup? key).isSome) : c'.Regular where
  known := hknown
  unique := hunique
  basic name hname := by
    obtain ⟨hplain, hboxed⟩ := h.basic name hname
    exact ⟨hlookup _ hplain, hlookup _ hboxed⟩
  primitive t ht := by
    have hsame := hspares.same t (Or.inr (Or.inl ht))
    rw [hsame.package, hsame.name]
    exact h.primitive t (hsame.kind ▸ ht)
  boxed t ht := by
    have hsame := hspares.same t (Or.inr (Or.inr ht))
    obtain ⟨p, hp, hunboxed, hkind⟩ := h.boxed t (hsame.kind ▸ ht)
    refine ⟨p, Nat.lt_of_lt_of_le hp hspares.size, hsame.unboxed.trans hunboxed, ?_⟩
    exact (hspares.same p (Or.inl (Or.inl hkind))).kind.trans hkind

/-- Types that are known by their keys have keys of their own. -/
theorem Linked.unique (h : c.Linked) : ∀ s < c.types.size, ∀ t < c.types.size,
    (c.decl s).key = (c.decl t).key → s = t := by
  intro s hs t ht hkey
  have hfound := h.known s hs
  rw [hkey, h.known t ht] at hfound
  exact (Option.some.inj hfound).symm

theorem regular_bare : bare.Regular where
  known hfound := by
    have hnames := loaded_bare.names hfound
    exact ⟨hnames.inside, hnames.key⟩
  unique := linked_bare.unique
  basic := by decide
  primitive t := by
    have hall : ∀ d ∈ bare.types, d.kind = .primitive →
        d.package = [] ∧ d.name ∈ primitiveNames := by
      decide
    unfold decl
    cases hfound : bare.types[t]? with
    | none => exact fun hkind => nomatch hkind
    | some d => exact hall d (Array.mem_of_getElem? hfound)
  boxed t := by
    have hall : ∀ d ∈ bare.types, d.kind = .boxed → ∃ p < bare.types.size, d.unboxed = some p ∧
        (bare.decl p).kind = .primitive := by
      decide
    unfold decl
    cases hfound : bare.types[t]? with
    | none => exact fun hkind => nomatch hkind
    | some d => exact hall d (Array.mem_of_getElem? hfound)

/-- Catalogs that were put together from manifests are regular. -/
theorem regular_loadings (ms : List Manifest) : (ms.foldl loading bare).Regular := by
  have hloaded := loaded_loadings ms
  refine regular_bare.spared (spares_loadings bare ms) (fun hfound => ?_)
    (linked_loadings ms).unique fun key hkey => ?_
  · have hnames := hloaded.names hfound
    exact ⟨hnames.inside, hnames.key⟩
  · obtain ⟨t, ht⟩ := Option.isSome_iff_exists.mp hkey
    have hshared := (loads_loadings bare ms).lookup (loaded_bare.names ht).shared
    unfold lookup?
    rw [hloaded.generated, hshared]
    rfl

/-- A unit can make a type under a key that no other type has. -/
theorem Regular.push (h : c.Regular) {d : TypeDecl} (hprimitive : d.kind ≠ .primitive)
    (hboxed : d.kind ≠ .boxed) (hfree : ∀ t < c.types.size, (c.decl t).key ≠ d.key) :
    (c.push d).2.Regular ∧ c.KnownIn (c.push d).2 := by
  have hsize : (c.push d).2.types.size = c.types.size + 1 := size_push c d
  have hknown : c.KnownIn (c.push d).2 := by
    intro key t hfound
    obtain ⟨hin, hkey⟩ := h.known hfound
    exact ⟨hsize ▸ Nat.lt_succ_of_lt hin, (congrArg _ (decl_push hin d)).trans hkey⟩
  have hlast : ∀ t < (c.push d).2.types.size, t < c.types.size ∨ t = c.types.size := by
    rw [hsize]
    omega
  refine ⟨h.spared (spares_push hprimitive hboxed c) (hknown _ _) ?_ fun _ hkey => hkey, hknown⟩
  intro s hs t ht hkey
  rcases hlast s hs with hs | rfl <;> rcases hlast t ht with ht | rfl
  · rw [decl_push hs, decl_push ht] at hkey
    exact h.unique s hs t ht hkey
  · rw [decl_push hs, decl_push_size] at hkey
    exact absurd hkey (hfree s hs)
  · rw [decl_push_size, decl_push ht] at hkey
    exact absurd hkey.symm (hfree t ht)
  · rfl

/-- A unit can make a type of the table known by its key. -/
theorem Regular.adopt (h : c.Regular) (ht : t < c.types.size) (hadopt : c.adopt t = .ok c') :
    c'.Regular ∧ c.KnownIn c' := by
  have hlookup : ∀ key, (c.lookup? key).isSome → (c'.lookup? key).isSome :=
    fun _ => lookup?_adopt hadopt
  obtain rfl := adopt_eq hadopt
  refine ⟨h.spared ((Std.Refl.refl (r := Spares) c).of_types rfl) (fun {key s} hfound => ?_)
    h.unique hlookup, h.knownIn⟩
  unfold lookup? at hfound
  rw [List.lookup_append] at hfound
  by_cases hold : c.lookup? key = some s
  · exact h.known hold
  · unfold lookup? at hold
    cases hgenerated : c.generated.lookup key with
    | some other =>
      rw [hgenerated] at hfound hold
      exact absurd hfound hold
    | none =>
      rw [hgenerated] at hfound hold
      by_cases hkey : key = (c.decl t).key
      · rw [List.lookup_cons, beq_iff_eq.mpr hkey] at hfound
        cases hfound
        exact ⟨ht, hkey.symm⟩
      · rw [List.lookup_cons, beq_eq_false_iff_ne.mpr hkey] at hfound
        exact absurd hfound hold

/-- A unit can generate a type under a key that no other type has. -/
theorem Regular.generate (h : c.Regular) {d : TypeDecl} (hprimitive : d.kind ≠ .primitive)
    (hboxed : d.kind ≠ .boxed) (hfree : ∀ t < c.types.size, (c.decl t).key ≠ d.key)
    (hgenerate : c.generate d = .ok (t, c')) : c'.Regular ∧ c.KnownIn c' := by
  obtain ⟨hpushed, -⟩ := h.push hprimitive hboxed hfree
  have hinside : c.types.size < (c.push d).2.types.size := size_push c d ▸ Nat.lt_succ_self _
  have hdone : Except.map (fun c' => (c.types.size, c')) ((c.push d).2.adopt c.types.size) =
      .ok (t, c') := hgenerate
  cases hadopt : (c.push d).2.adopt c.types.size with
  | error e =>
    rw [hadopt] at hdone
    cases hdone
  | ok c₁ =>
    rw [hadopt] at hdone
    cases hdone
    -- the type is in the table before anybody knows its key
    obtain ⟨hregular, hknown⟩ := hpushed.adopt hinside hadopt
    exact ⟨hregular, fun key t hfound => hknown key t hfound⟩

end ViewBinder.Catalog
