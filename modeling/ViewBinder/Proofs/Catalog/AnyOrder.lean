-- The order of the types of a manifest. Types are numbered in the order in which they are added, and
-- apart from their numbers they are the same in every order: a manifest whose types stand in another
-- order is loaded exactly if the manifest is, and every key leads to the same type then, as far as
-- types are told apart by their keys.
import ViewBinder.Proofs.Catalog.Closed

namespace ViewBinder

/-! ## Other numbers -/

section Renumber

variable (f : TypeId → TypeId)

/-- The parameter with types under other numbers. -/
def Param.renumber (p : Param) : Param := { p with type := p.type.map f }

/-- The method with types under other numbers. -/
def Method.renumber (m : Method) : Method :=
  { m with
    params := m.params.map (·.renumber f)
    returns := m.returns.map f
    owner := m.owner.map f }

/-- The field with its type under another number. -/
def UiField.renumber (u : UiField) : UiField := { u with type := u.type.map f }

/-- The traits with types under other numbers. -/
def Traits.renumber (t : Traits) : Traits := { t with uiFields := t.uiFields.map (·.renumber f) }

/-- The declaration with types under other numbers. -/
def TypeDecl.renumber (d : TypeDecl) : TypeDecl :=
  { d with
    super := d.super.map f
    interfaces := d.interfaces.map (·.map f)
    methods := d.methods.map (·.renumber f)
    constructors := d.constructors.map (·.renumber f)
    unboxed := d.unboxed.map f
    traits := d.traits.renumber f }

/-- The links with types under other numbers. -/
def TypeLinks.renumber (l : TypeLinks) : TypeLinks where
  super := l.super.map f
  interfaces := l.interfaces.map (·.map f)
  methods := l.methods.map (·.renumber f)
  constructors := l.constructors.map (·.renumber f)
  traits := l.traits.renumber f

variable {f}

theorem TypeLinks.renumber_put (l : TypeLinks) (d : TypeDecl) :
    (l.put d).renumber f = (l.renumber f).put (d.renumber f) := by
  simp [put, renumber, TypeDecl.renumber]

theorem map_fixed {α : Type} {g : α → α} {xs : List α} (h : ∀ a ∈ xs, g a = a) : xs.map g = xs :=
  (List.map_congr_left h).trans (List.map_id xs)

theorem option_map_fixed {n : Nat} (hf : ∀ t < n, f t = t) {found : Option TypeId}
    (h : ∀ t ∈ found, t < n) : found.map f = found := by
  cases found with
  | none => rfl
  | some t => exact congrArg some (hf t (h t rfl))

theorem Method.Below.renumber_fixed {n : Nat} (hf : ∀ t < n, f t = t) {m : Method} (h : m.Below n) :
    m.renumber f = m := by
  have hparams : m.params.map (·.renumber f) = m.params := map_fixed fun p hp => by
    unfold Param.renumber
    rw [option_map_fixed hf (h.params p hp)]
  unfold renumber
  rw [hparams, option_map_fixed hf h.returns, option_map_fixed hf h.owner]

/-- Nothing changes where the types that are referred to keep their numbers. -/
theorem TypeDecl.Below.renumber_fixed {n : Nat} (hf : ∀ t < n, f t = t) {d : TypeDecl} (h : d.Below n) :
    d.renumber f = d := by
  have huiFields : d.traits.uiFields.map (·.renumber f) = d.traits.uiFields :=
    map_fixed fun u hu => by
      unfold UiField.renumber
      rw [option_map_fixed hf (h.uiFields u hu)]
  unfold renumber Traits.renumber
  rw [huiFields, option_map_fixed hf h.super, option_map_fixed hf h.unboxed,
    map_fixed fun i hi => option_map_fixed hf (h.interfaces i hi),
    map_fixed fun m hm => (h.methods m hm).renumber_fixed hf,
    map_fixed fun m hm => (h.constructors m hm).renumber_fixed hf]

theorem TypeDecl.Alone.renumber {d : TypeDecl} (h : d.Alone) : d.renumber f = d :=
  (h.below 0).renumber_fixed fun _ ht => absurd ht (Nat.not_lt_zero _)

/-! ## Keys under other numbers -/

variable {entries entries' : Entries}

theorem Entries.find?_renumber (h : ∀ key, entries'.lookup key = (entries.lookup key).map f)
    (key : Text) : entries'.find? key = (entries.find? key).map (Option.map f) := by
  unfold find?
  split
  · rfl
  · rw [h, Option.map_map, Option.map_map]
    rfl

theorem mapM_renumber {α β : Type} {g g' : α → Option β} {h : β → β}
    (hg : ∀ a, g' a = (g a).map h) (xs : List α) : xs.mapM g' = (xs.mapM g).map (List.map h) := by
  induction xs with
  | nil => rfl
  | cons x xs ih =>
    rw [List.mapM_cons, List.mapM_cons, ih, hg]
    cases g x with
    | none => rfl
    | some b => cases xs.mapM g <;> rfl

theorem MethodSpec.linked?_renumber (h : ∀ key, entries'.lookup key = (entries.lookup key).map f)
    (owner : TypeId) (m : MethodSpec) :
    m.linked? entries' (f owner) = (m.linked? entries owner).map (·.renumber f) := by
  have hparam : ∀ p : ParamSpec, p.linked? entries' = (p.linked? entries).map (·.renumber f) := by
    intro p
    unfold ParamSpec.linked?
    rw [Entries.find?_renumber h, Option.map_map, Option.map_map]
    rfl
  unfold linked?
  rw [mapM_renumber hparam, Entries.find?_renumber h]
  cases m.params.mapM (ParamSpec.linked? entries) with
  | none => rfl
  | some params => cases entries.find? m.returns <;> rfl

/-- The links of a specification follow the numbers. -/
theorem TypeSpec.links?_renumber (h : ∀ key, entries'.lookup key = (entries.lookup key).map f)
    (t : TypeId) (spec : TypeSpec) :
    spec.links? entries' (f t) = (spec.links? entries t).map (·.renumber f) := by
  have hfield : ∀ u : UiFieldSpec, u.linked? entries' = (u.linked? entries).map (·.renumber f) := by
    intro u
    unfold UiFieldSpec.linked?
    rw [Entries.find?_renumber h, Option.map_map, Option.map_map]
    rfl
  unfold links?
  rw [Entries.find?_renumber h, mapM_renumber (Entries.find?_renumber h),
    mapM_renumber (MethodSpec.linked?_renumber h t) spec.methods,
    mapM_renumber (MethodSpec.linked?_renumber h t) spec.constructors, mapM_renumber hfield]
  cases entries.find? spec.super with
  | none => rfl
  | some super =>
    cases spec.interfaces.mapM entries.find? with
    | none => rfl
    | some interfaces =>
      cases spec.methods.mapM (MethodSpec.linked? entries t) with
      | none => rfl
      | some methods =>
        cases spec.constructors.mapM (MethodSpec.linked? entries t) with
        | none => rfl
        | some constructors =>
          cases spec.traits.uiFields.mapM (UiFieldSpec.linked? entries) with
          | none => rfl
          | some uiFields =>
            simp [TypeLinks.renumber, Traits.renumber, Method.renumber]

end Renumber

namespace Catalog

/-! ## Catalogs that differ in numbers only -/

/-- The second catalog is the first one with its types under other numbers. -/
structure Renumbered (f : TypeId → TypeId) (c c' : Catalog) : Prop where
  injective : Function.Injective f
  size : c'.types.size = c.types.size
  decl : ∀ t, c'.decl (f t) = (c.decl t).renumber f
  shared : ∀ key, c'.shared.lookup key = (c.shared.lookup key).map f
  tags : c'.domTags = c.domTags.map fun entry => (entry.1, entry.2.map f)
  others : c'.domOther = c.domOther.map f

namespace Renumbered

variable {f : TypeId → TypeId} {c c' : Catalog} {t : TypeId}

theorem key (h : c.Renumbered f c') (t : TypeId) : (c'.decl (f t)).key = (c.decl t).key := by
  rw [h.decl]
  rfl

theorem parents (h : c.Renumbered f c') (t : TypeId) : c'.parents (f t) = (c.parents t).map f := by
  have hgiven : ∀ found : List (Option TypeId),
      (found.map (Option.map f)).filterMap id = (found.filterMap id).map f := by
    intro found
    rw [List.filterMap_map, List.map_filterMap]
    rfl
  unfold Catalog.parents
  rw [h.decl, List.map_append, ← hgiven]
  unfold TypeDecl.renumber
  cases (c.decl t).super <;> rfl

theorem contains_map (hf : Function.Injective f) (xs : List TypeId) (t : TypeId) :
    (xs.map f).contains (f t) = xs.contains t := by
  rw [Bool.eq_iff_iff, List.contains_iff_mem, List.contains_iff_mem, List.mem_map_of_injective hf]

theorem eraseDups_map (hf : Function.Injective f) (xs : List TypeId) :
    (xs.map f).eraseDups = xs.eraseDups.map f := by
  induction hlength : xs.length using Nat.strongRecOn generalizing xs with
  | ind n ih =>
    cases xs with
    | nil => rfl
    | cons x xs =>
      have hothers : ((fun s => !s == f x) ∘ f) = fun s => !s == x := funext fun s => by
        simp [hf.eq_iff]
      rw [List.map_cons, List.eraseDups_cons, List.eraseDups_cons, List.map_cons, List.filter_map,
        hothers, ih _ ?_ _ rfl]
      rw [← hlength]
      exact Nat.lt_succ_of_le (List.length_filter_le _ _)

theorem climb (h : c.Renumbered f c') (fuel : Nat) (seen queue : List TypeId) :
    c'.climb fuel (seen.map f) (queue.map f) = (c.climb fuel seen queue).map f := by
  induction fuel generalizing seen queue with
  | zero => rfl
  | succ fuel ih =>
    cases queue with
    | nil => rfl
    | cons t queue =>
      have hfresh : ((c'.parents (f t)).filter fun s => !(seen.map f).contains s).eraseDups =
          (((c.parents t).filter fun s => !seen.contains s).eraseDups).map f := by
        rw [h.parents, List.filter_map, eraseDups_map h.injective]
        simp only [Function.comp_def, contains_map h.injective]
      rw [List.map_cons, Catalog.climb, Catalog.climb, hfresh, ← List.map_append, ← List.map_append]
      exact ih _ _

/-- The hierarchies are the same. -/
theorem hierarchy (h : c.Renumbered f c') (t : TypeId) :
    c'.hierarchy (f t) = (c.hierarchy t).map f := by
  unfold Catalog.hierarchy
  rw [h.size]
  exact h.climb _ [t] [t]

theorem setDomTag (h : c.Renumbered f c') (tag : Text) (type : Option TypeId) :
    (c.setDomTag tag type).Renumbered f (c'.setDomTag tag (type.map f)) := by
  unfold Catalog.setDomTag
  split
  · exact { h with others := rfl }
  · exact { h with tags := by rw [h.tags]; rfl }

theorem tagged (h : c.Renumbered f c') (tags : List (Text × Option TypeId)) :
    (c.tagged tags).Renumbered f (c'.tagged (tags.map fun e => (e.1, e.2.map f))) := by
  induction tags generalizing c c' with
  | nil => exact h
  | cons e tags ih => exact ih (h.setDomTag e.1 e.2)

end Renumbered

/-! ## Where types go in another order -/

section Moved

variable {n : Nat} {keys keys' : List Text}

/-- The number of a type when the keys that are counted from `n` on stand in another order. -/
def moved (n : Nat) (keys keys' : List Text) (t : TypeId) : TypeId :=
  if t < n then t else
  match keys[t - n]? with
  | some key => n + keys'.idxOf key
  | none => t

theorem moved_before {t : TypeId} (ht : t < n) : moved n keys keys' t = t := if_pos ht

theorem moved_counted (n : Nat) (keys' : List Text) (i : Nat) (hi : i < keys.length) :
    moved n keys keys' (n + i) = n + keys'.idxOf keys[i] := by
  unfold moved
  rw [if_neg (Nat.not_lt.mpr (Nat.le_add_right n i)), Nat.add_sub_cancel_left,
    List.getElem?_eq_getElem hi]

theorem moved_after {t : TypeId} (ht : n + keys.length ≤ t) : moved n keys keys' t = t := by
  unfold moved
  rw [if_neg (Nat.not_lt.mpr (Nat.le_trans (Nat.le_add_right _ _) ht)),
    List.getElem?_eq_none (Nat.le_sub_of_add_le' ht)]

/-- A number is that of a type before, of one that is counted, or of one after. -/
theorem number_cases (n : Nat) (keys : List Text) (t : TypeId) :
    t < n ∨ (∃ i < keys.length, t = n + i) ∨ n + keys.length ≤ t := by
  rcases Nat.lt_or_ge t n with ht | ht
  · exact Or.inl ht
  · obtain ⟨i, rfl⟩ := Nat.exists_eq_add_of_le ht
    rcases Nat.lt_or_ge i keys.length with hi | hi
    · exact Or.inr (Or.inl ⟨i, hi, rfl⟩)
    · exact Or.inr (Or.inr (Nat.add_le_add_left hi n))

/-- Where the key at a place stands in the other order. -/
theorem idxOf_lt_of_perm (hperm : keys.Perm keys') (i : Nat) (hi : i < keys.length) :
    keys'.idxOf keys[i] < keys'.length :=
  List.idxOf_lt_length_iff.mpr (hperm.mem_iff.mp (List.getElem_mem hi))

/-- Moved there and back, every type has its number again. -/
theorem moved_moved (hperm : keys.Perm keys') (hdistinct : keys.Nodup) :
    Function.LeftInverse (moved n keys' keys) (moved n keys keys') := by
  intro t
  rcases number_cases n keys t with ht | ⟨i, hi, rfl⟩ | ht
  · rw [moved_before ht, moved_before ht]
  · have hplace := idxOf_lt_of_perm hperm i hi
    rw [moved_counted n keys' i hi, moved_counted n keys _ hplace, List.getElem_idxOf hplace,
      hdistinct.idxOf_getElem]
  · rw [moved_after ht, moved_after (hperm.length_eq ▸ ht)]

end Moved

/-! ## Loading in another order -/

section Load

variable {c c₁ c₂ : Catalog} {m : Manifest} {types : List TypeSpec}

theorem Gains.shared (h : c.Gains m c₁) : c₁.shared = c.known m := by
  obtain ⟨tags, -, heq⟩ := h.rest
  rw [heq, shared_tagged]

theorem lookup_known (c : Catalog) (m : Manifest) (key : Text) : (c.known m).lookup key =
    (c.shared.lookup key).or
      (if key ∈ m.keys then some (c.types.size + m.keys.idxOf key) else none) := by
  rw [Manifest.keys_eq]
  exact lookup_extended c m.unlinked key

theorem keys_permuted (hperm : types.Perm m.types) :
    (Manifest.keys { m with types }).Perm m.keys := hperm.map _

/-- The same keys are known in every order. -/
theorem isSome_find?_permuted (c : Catalog) (hperm : types.Perm m.types) (key : Text) :
    ((c.known { m with types }).find? key).isSome = ((c.known m).find? key).isSome := by
  unfold Entries.find?
  split
  · rfl
  · rw [Option.isSome_map, Option.isSome_map, lookup_known, lookup_known, Option.isSome_or,
      Option.isSome_or]
    simp only [(keys_permuted hperm).mem_iff]
    split <;> rfl

/-- A manifest fits in every order if it fits in one. -/
theorem Fits.permuted (hperm : types.Perm m.types) (h : c.Fits m) : c.Fits { m with types } where
  package := h.package
  kinds spec hspec := h.kinds spec (hperm.mem_iff.mp hspec)
  free key hkey := h.free key ((keys_permuted hperm).mem_iff.mp hkey)
  distinct := (keys_permuted hperm).nodup_iff.mpr h.distinct
  references spec hspec key hkey := by
    rw [isSome_find?_permuted c hperm]
    exact h.references spec (hperm.mem_iff.mp hspec) key hkey
  tags e he := by
    rw [isSome_find?_permuted c hperm]
    exact h.tags e he

/-- What a key leads to moves with the types. -/
theorem lookup_known_permuted (hc : c.Closed) (hperm : types.Perm m.types) (key : Text) :
    (c.known { m with types }).lookup key = ((c.known m).lookup key).map
      (moved c.types.size m.keys (Manifest.keys { m with types })) := by
  rw [lookup_known, lookup_known]
  cases hfound : c.shared.lookup key with
  | some t =>
    have hold : t < c.types.size := hc.shared _ (mem_of_lookup hfound)
    simp [moved_before hold]
  | none =>
    by_cases hkey : key ∈ m.keys
    · have hplace := List.idxOf_lt_length_iff.mpr hkey
      have hmoved := moved_counted c.types.size (Manifest.keys { m with types }) _ hplace
      rw [List.getElem_idxOf hplace] at hmoved
      simp [hkey, (keys_permuted hperm).mem_iff, hmoved]
    · simp [hkey, (keys_permuted hperm).mem_iff]

/-- What tags get moves with the types. -/
theorem tags?_renumber {f : TypeId → TypeId} {entries entries' : Entries}
    (h : ∀ key, entries'.lookup key = (entries.lookup key).map f) (domTags : List (Text × Text)) :
    tags? entries' domTags = (tags? entries domTags).map
      (List.map fun e => (e.1, e.2.map f)) := by
  refine mapM_renumber (fun e => ?_) domTags
  rw [Entries.find?_renumber h, Option.map_map, Option.map_map]
  rfl

theorem getElem_keys (m : Manifest) (i : Nat) (hi : i < m.keys.length) : m.keys[i] =
    keyOf m.package (m.types.get ⟨i, Nat.lt_of_lt_of_eq hi (List.length_map _)⟩).name :=
  List.getElem_map _

/-- The place of a type in another order. -/
theorem getElem_permuted (hdistinct : m.keys.Nodup) (hperm : types.Perm m.types) (i : Nat)
    (hi : i < m.types.length) : ∃ (j : Nat) (hj : j < types.length), types[j] = m.types[i] ∧
      moved c.types.size m.keys (Manifest.keys { m with types }) (c.types.size + i) =
        c.types.size + j := by
  have hcounted : i < m.keys.length := Nat.lt_of_lt_of_eq hi (List.length_map _).symm
  have hplace := idxOf_lt_of_perm (keys_permuted hperm).symm i hcounted
  have hj : (Manifest.keys { m with types }).idxOf m.keys[i] < types.length :=
    Nat.lt_of_lt_of_eq hplace (List.length_map _)
  refine ⟨_, hj, ?_, moved_counted _ _ i hcounted⟩
  refine List.inj_on_of_nodup_map hdistinct (hperm.mem_iff.mp (List.getElem_mem hj))
    (List.getElem_mem hi) ?_
  exact (getElem_keys { m with types } _ hplace).symm.trans
    ((List.getElem_idxOf hplace).trans (getElem_keys m i hcounted))

/-- The types of a manifest get the same declarations in every order, under other numbers. -/
theorem decl_permuted (hc : c.Closed) (hm : c.Fits m) (hperm : types.Perm m.types)
    (h₁ : c.Gains m c₁) (h₂ : c.Gains { m with types } c₂) (t : TypeId) :
    c₂.decl (moved c.types.size m.keys (Manifest.keys { m with types }) t) = (c₁.decl t).renumber
      (moved c.types.size m.keys (Manifest.keys { m with types })) := by
  have hlength : m.keys.length = m.types.length := List.length_map _
  rcases number_cases c.types.size m.keys t with ht | ⟨i, hi, rfl⟩ | ht
  · rw [moved_before ht, h₂.old t ht, h₁.old t ht]
    exact ((hc.types t).renumber_fixed fun s hs => moved_before hs).symm
  · rw [hlength] at hi
    obtain ⟨j, hj, hspec, hmoved⟩ := getElem_permuted (c := c) hm.distinct hperm i hi
    obtain ⟨l, hl, hdecl⟩ := h₁.new i hi
    obtain ⟨l', hl', hdecl'⟩ := h₂.new j hj
    have hlinks := TypeSpec.links?_renumber (lookup_known_permuted hc hperm)
      (c.types.size + i) m.types[i]
    rw [hl, hmoved, ← hspec, hl'] at hlinks
    cases hlinks
    rw [hmoved, hdecl, hdecl', TypeLinks.renumber_put, (alone_unlinked _ _ _).renumber, hspec]
    rfl
  · rw [moved_after ht]
    rw [hlength] at ht
    have hlength' : c₂.types.size = c.types.size + m.types.length :=
      h₂.size.trans (congrArg _ hperm.length_eq)
    rw [decl_eq_noType (Nat.le_trans (Nat.le_of_eq h₁.size) ht),
      decl_eq_noType (Nat.le_trans (Nat.le_of_eq hlength') ht)]
    exact alone_noType.renumber.symm

theorem renumbered_of_gains (hc : c.Closed) (hm : c.Fits m) (hperm : types.Perm m.types)
    (h₁ : c.Gains m c₁) (h₂ : c.Gains { m with types } c₂) :
    c₁.Renumbered (moved c.types.size m.keys (Manifest.keys { m with types })) c₂ := by
  have hlookup := lookup_known_permuted hc hperm
  obtain ⟨tags, htags, heq⟩ := h₁.rest
  obtain ⟨tags', htags', heq'⟩ := h₂.rest
  rw [tags?_renumber hlookup, htags] at htags'
  cases htags'
  have hfixed : ∀ found : Option TypeId, (∀ t ∈ found, t < c.types.size) → found.map
      (moved c.types.size m.keys (Manifest.keys { m with types })) = found :=
    fun found => option_map_fixed fun t ht => moved_before ht
  have hlinked : Renumbered (moved c.types.size m.keys (Manifest.keys { m with types }))
      { c with types := c₁.types, shared := c.known m }
      { c with types := c₂.types, shared := c.known { m with types } } := by
    refine ⟨(moved_moved (keys_permuted hperm).symm hm.distinct).injective, ?_,
      fun t => decl_permuted hc hm hperm h₁ h₂ t, hlookup, ?_, (hfixed _ hc.others).symm⟩
    · exact h₂.size.trans ((congrArg _ hperm.length_eq).trans h₁.size.symm)
    · refine (map_fixed fun entry hentry => ?_).symm
      rw [hfixed _ (hc.tags entry hentry)]
  have hall := hlinked.tagged tags
  rwa [← heq, ← heq'] at hall

end Load

/-! ## Types by their keys -/

section Same

variable (c c' : Catalog)

/-- The types have the same key, or there is none. -/
def SameKey (type type' : Option TypeId) : Prop :=
  type.map (fun t => (c.decl t).key) = type'.map fun t => (c'.decl t).key

/-- The methods are the same, with types of the same keys. -/
structure SameMethod (m m' : Method) : Prop where
  name : m.name = m'.name
  params : List.Forall₂ (fun p p' => p.name = p'.name ∧ c.SameKey c' p.type p'.type)
    m.params m'.params
  returns : c.SameKey c' m.returns m'.returns
  owner : c.SameKey c' m.owner m'.owner

/-- The declarations are the same, with types of the same keys. -/
structure SameDecl (t t' : TypeId) : Prop where
  package : (c.decl t).package = (c'.decl t').package
  packageName : (c.decl t).packageName = (c'.decl t').packageName
  name : (c.decl t).name = (c'.decl t').name
  kind : (c.decl t).kind = (c'.decl t').kind
  super : c.SameKey c' (c.decl t).super (c'.decl t').super
  interfaces : List.Forall₂ (c.SameKey c') (c.decl t).interfaces (c'.decl t').interfaces
  supertypes : (c.hierarchy t).map (fun s => (c.decl s).key) =
    (c'.hierarchy t').map fun s => (c'.decl s).key
  methods : List.Forall₂ (c.SameMethod c') (c.decl t).methods (c'.decl t').methods
  constructors : List.Forall₂ (c.SameMethod c') (c.decl t).constructors (c'.decl t').constructors
  constants : (c.decl t).constants = (c'.decl t').constants
  unboxed : c.SameKey c' (c.decl t).unboxed (c'.decl t').unboxed
  uiFields : List.Forall₂ (fun u u' => u.name = u'.name ∧ u.provided = u'.provided ∧
    c.SameKey c' u.type u'.type) (c.decl t).traits.uiFields (c'.decl t').traits.uiFields
  traits : { (c.decl t).traits with uiFields := [] } = { (c'.decl t').traits with uiFields := [] }

end Same

namespace Renumbered

variable {f : TypeId → TypeId} {c c' : Catalog}

theorem sameKey (h : c.Renumbered f c') (type : Option TypeId) :
    c.SameKey c' type (type.map f) := by
  unfold SameKey
  rw [Option.map_map]
  exact congrArg (type.map ·) (funext fun t => (h.key t).symm)

theorem forall₂_map {α : Type} {R : α → α → Prop} {g : α → α} (h : ∀ a, R a (g a)) (xs : List α) :
    List.Forall₂ R xs (xs.map g) :=
  List.forall₂_map_right_iff.mpr (List.forall₂_same.mpr fun a _ => h a)

theorem sameMethod (h : c.Renumbered f c') (m : Method) : c.SameMethod c' m (m.renumber f) where
  name := rfl
  params := forall₂_map (fun p => ⟨rfl, h.sameKey p.type⟩) m.params
  returns := h.sameKey m.returns
  owner := h.sameKey m.owner

/-- The types of one number and the other are the same as far as their keys tell. -/
theorem sameDecl (h : c.Renumbered f c') (t : TypeId) : c.SameDecl c' t (f t) := by
  have hdecl := h.decl t
  constructor
  case supertypes =>
    rw [h.hierarchy, List.map_map]
    exact congrArg ((c.hierarchy t).map ·) (funext fun s => (h.key s).symm)
  all_goals rw [hdecl]
  case package | packageName | name | kind | constants | traits => rfl
  case super => exact h.sameKey _
  case interfaces => exact forall₂_map h.sameKey _
  case methods => exact forall₂_map h.sameMethod _
  case constructors => exact forall₂_map h.sameMethod _
  case unboxed => exact h.sameKey _
  case uiFields => exact forall₂_map (fun u => ⟨rfl, rfl, h.sameKey u.type⟩) _

theorem rel_lookup (h : c.Renumbered f c') (key : Text) :
    Option.Rel (c.SameDecl c') (c.shared.lookup key) (c'.shared.lookup key) := by
  rw [h.shared]
  cases c.shared.lookup key with
  | none => exact .none
  | some t => exact .some (h.sameDecl t)

theorem lookup_map (f : TypeId → TypeId) (tags : List (Text × Option TypeId)) (tag : Text) :
    (tags.map fun entry => (entry.1, entry.2.map f)).lookup tag =
      (tags.lookup tag).map (Option.map f) := by
  induction tags with
  | nil => rfl
  | cons entry tags ih =>
    rw [List.map_cons, List.lookup_cons, List.lookup_cons, ih]
    split <;> rfl

theorem sameTag (h : c.Renumbered f c') (tag : Text) :
    c.SameKey c' (c.domType? tag) (c'.domType? tag) := by
  unfold domType?
  rw [h.tags, lookup_map]
  cases c.domTags.lookup (Text.toLower tag) with
  | some type => exact h.sameKey type
  | none =>
    rw [h.others]
    exact h.sameKey c.domOther

end Renumbered

/-- The types of a manifest may stand in any order. -/
theorem types_stand_in_any_order {c : Catalog} (hc : c.Closed) (m : Manifest)
    {types : List TypeSpec} (hperm : types.Perm m.types) :
    ((∃ c', (load { m with types }).runOn c = (.ok ⟨⟩, c')) ↔
      ∃ c', (load m).runOn c = (.ok ⟨⟩, c')) ∧
    ∀ c₁ c₂, (load m).runOn c = (.ok ⟨⟩, c₁) → (load { m with types }).runOn c = (.ok ⟨⟩, c₂) →
      (∀ key, Option.Rel (c₁.SameDecl c₂) (c₁.shared.lookup key) (c₂.shared.lookup key)) ∧
      ∀ tag, c₁.SameKey c₂ (c₁.domType? tag) (c₂.domType? tag) := by
  refine ⟨?_, fun c₁ c₂ h₁ h₂ => ?_⟩
  · rw [load_succeeds_iff, load_succeeds_iff]
    exact ⟨fun h => h.permuted (m := { m with types }) hperm.symm, fun h => h.permuted hperm⟩
  · have hm := load_succeeds_iff.mp ⟨c₁, h₁⟩
    have hsame := renumbered_of_gains hc hm hperm (gains_of_load h₁) (gains_of_load h₂)
    exact ⟨hsame.rel_lookup, hsame.sameTag⟩

/-- Two classes above each other, and an interface that is above both and takes them. -/
def ring : Manifest where
  package := "a"
  types :=
    [{ name := "A", kind := "class", super := "a.B", interfaces := ["a.I"] },
     { name := "B", kind := "class", super := "a.A",
       constructors := [{ name := "NewB", params := [⟨"a", "a.A"⟩], returns := "a.B" }] },
     { name := "I", kind := "interface",
       methods := [{ name := "Take", params := [⟨"b", "a.B"⟩, ⟨"n", "int"⟩], returns := "a.I" }] }]
  domTags := [("x", "a.B")]

/-- The types of the ring from the last one to the first. -/
def ringBackwards : Manifest := { ring with types := ring.types.reverse }

theorem load_loading {c : Catalog} {m : Manifest}
    (h : ((load m).runOn c).1.toOption = some ⟨⟩) :
    (load m).runOn c = (.ok ⟨⟩, c.loading m) := Prod.ext (ok_of_toOption h) rfl

theorem ring_stands_in_any_order :
    bare.Closed ∧ ring.types.reverse.Perm ring.types ∧
      (bare.loading ring).shared.lookup (Text.ofString "a.A") = some 29 ∧
      (bare.loading ringBackwards).shared.lookup (Text.ofString "a.A") = some 31 ∧
      (∃ c', (load ringBackwards).runOn bare = (.ok ⟨⟩, c')) ∧
      ∀ key, Option.Rel ((bare.loading ring).SameDecl (bare.loading ringBackwards))
        ((bare.loading ring).shared.lookup key) ((bare.loading ringBackwards).shared.lookup key) := by
  have hperm : ring.types.reverse.Perm ring.types := List.reverse_perm _
  have hring := load_loading (c := bare) (m := ring) (by decide +kernel)
  have hbackwards := load_loading (c := bare) (m := ringBackwards) (by decide +kernel)
  have hany := types_stand_in_any_order closed_bare ring hperm
  exact ⟨closed_bare, hperm, by decide +kernel, by decide +kernel, hany.1.mpr ⟨_, hring⟩,
    (hany.2 _ _ hring hbackwards).1⟩

end Catalog

end ViewBinder
