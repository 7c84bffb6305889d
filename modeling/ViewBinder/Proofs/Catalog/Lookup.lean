-- Keys of types. In a catalog that was put together from manifests a key leads to the type of that
-- key, and it leads there for good: types that are made for one unit take no key that everybody
-- knows.
import ViewBinder.Catalog.Manifest
import ViewBinder.Proofs.Work

namespace ViewBinder.Catalog

open Work (Leads)

/-- What is found under a key is an entry of that key. -/
theorem mem_of_lookup {β : Type} {entries : List (Text × β)} {key : Text} {b : β}
    (h : entries.lookup key = some b) : (key, b) ∈ entries := by
  obtain ⟨before, after, hentries, -⟩ := List.lookup_eq_some_iff.mp h
  rw [hentries]
  exact List.mem_append_right _ List.mem_cons_self

/-! ## Declarations -/

/-- No type has a number outside the table. -/
theorem decl_eq_noType {c : Catalog} {t : TypeId} (h : c.types.size ≤ t) : c.decl t = noType := by
  unfold decl
  rw [Array.getElem?_eq_none h]
  rfl

theorem decl_push {c : Catalog} {t : TypeId} (h : t < c.types.size) (d : TypeDecl) :
    (c.push d).2.decl t = c.decl t := by
  unfold decl push
  rw [Array.getElem?_push_lt h, Array.getElem?_eq_getElem h]

theorem decl_push_size (c : Catalog) (d : TypeDecl) : (c.push d).2.decl c.types.size = d := by
  unfold decl push
  simp

theorem size_push (c : Catalog) (d : TypeDecl) :
    (c.push d).2.types.size = c.types.size + 1 := Array.size_push _

theorem key_change {c : Catalog} {f : TypeDecl → TypeDecl} (hf : ∀ d, (f d).key = d.key)
    (id t : TypeId) : ((c.change id f).decl t).key = (c.decl t).key := by
  unfold decl change
  rw [Array.getElem?_modify]
  split
  · cases c.types[t]? with
    | none => rfl
    | some d => exact hf d
  · rfl

theorem size_change (c : Catalog) (t : TypeId) (f : TypeDecl → TypeDecl) :
    (c.change t f).types.size = c.types.size := Array.size_modify

/-- The catalog goes on from the other one: every type of it keeps its name, its constants and its
primitive. -/
structure Extends (c c' : Catalog) : Prop where
  size : c.types.size ≤ c'.types.size
  name : ∀ t < c.types.size, (c'.decl t).name = (c.decl t).name
  constants : ∀ t < c.types.size, (c'.decl t).constants = (c.decl t).constants
  unboxed : ∀ t < c.types.size, (c'.decl t).unboxed = (c.decl t).unboxed

instance : Std.Refl Extends :=
  ⟨fun _ => ⟨Nat.le_refl _, fun _ _ => rfl, fun _ _ => rfl, fun _ _ => rfl⟩⟩

instance : IsTrans Catalog Extends where
  trans _ _ _ h h' :=
    ⟨Nat.le_trans h.size h'.size,
      fun t ht => (h'.name t (Nat.lt_of_lt_of_le ht h.size)).trans (h.name t ht),
      fun t ht => (h'.constants t (Nat.lt_of_lt_of_le ht h.size)).trans (h.constants t ht),
      fun t ht => (h'.unboxed t (Nat.lt_of_lt_of_le ht h.size)).trans (h.unboxed t ht)⟩

/-- The constants of a type are still there. -/
theorem Extends.mem_constants {c c' : Catalog} (h : Extends c c') {t : TypeId} {k : EnumConstant}
    (hk : k ∈ (c.decl t).constants) : k ∈ (c'.decl t).constants := by
  have ht : t < c.types.size := by
    by_contra hout
    rw [decl_eq_noType (Nat.not_lt.mp hout)] at hk
    cases hk
  rw [h.constants t ht]
  exact hk

/-- A catalog goes on from another one whose types it has. -/
theorem extends_of_decl {c c' : Catalog} (hsize : c.types.size ≤ c'.types.size)
    (h : ∀ t < c.types.size, c'.decl t = c.decl t) : Extends c c' :=
  ⟨hsize, fun t ht => by rw [h t ht], fun t ht => by rw [h t ht], fun t ht => by rw [h t ht]⟩

theorem extends_push (c : Catalog) (d : TypeDecl) : Extends c (c.push d).2 :=
  extends_of_decl (size_push c d ▸ Nat.le_succ _) fun _ ht => decl_push ht d

/-- What methods a type has does not count. -/
theorem extends_changeMethods (c : Catalog) (t : TypeId) (f : List Method → List Method) :
    Extends c (c.change t fun decl => { decl with methods := f decl.methods }) := by
  have hdecl : ∀ other < c.types.size, ∃ methods,
      (c.change t fun decl => { decl with methods := f decl.methods }).decl other =
        { c.decl other with methods } := by
    intro other hother
    simp only [decl, change, Array.getElem?_modify, Array.getElem?_eq_getElem hother]
    split
    · exact ⟨_, rfl⟩
    · exact ⟨_, rfl⟩
  refine ⟨Nat.le_of_eq (size_change c t _).symm, fun other hother => ?_, fun other hother => ?_,
    fun other hother => ?_⟩
  · obtain ⟨methods, hsame⟩ := hdecl other hother
    rw [hsame]
  · obtain ⟨methods, hsame⟩ := hdecl other hother
    rw [hsame]
  · obtain ⟨methods, hsame⟩ := hdecl other hother
    rw [hsame]

theorem extends_adopt {c c' : Catalog} {t : TypeId} (h : c.adopt t = .ok c') : Extends c c' := by
  unfold adopt at h
  dsimp only at h
  split at h
  · cases h
  · split at h
    · cases h
    · cases h
      exact extends_of_decl (Nat.le_refl _) fun _ _ => rfl

/-! ## Registering -/

theorem register_free {c : Catalog} {d : TypeDecl} (hfree : c.shared.lookup d.key = none) :
    (register d).runOn c = (.ok c.types.size,
      { (c.push d).2 with shared := c.shared ++ [(d.key, c.types.size)] }) := by
  unfold register
  rw [Work.runOn_bind, Work.runOn_get]
  dsimp only
  rw [hfree]
  rfl

theorem register_taken {c : Catalog} {d : TypeDecl} (htaken : c.shared.lookup d.key ≠ none) :
    (register d).runOn c = (.error (CatalogError.registeredTwice d.key).failure, c) := by
  unfold register
  rw [Work.runOn_bind, Work.runOn_get]
  dsimp only
  rw [if_pos (Option.isSome_iff_ne_none.mpr htaken), Work.runOn_bind, Work.runOn_throw]

/-- Registering leads wherever a new type under a free key leads. -/
theorem leads_register {R : Catalog → Catalog → Prop} [Std.Refl R] {d : TypeDecl}
    (h : ∀ c : Catalog, c.shared.lookup d.key = none →
      R c { (c.push d).2 with shared := c.shared ++ [(d.key, c.types.size)] }) :
    Leads R (register d) where
  leads c := by
    by_cases hfree : c.shared.lookup d.key = none
    · rw [register_free hfree]
      exact h c hfree
    · rw [register_taken hfree]
      exact Std.Refl.refl c

/-! ## Linking -/

/-- The change leaves alone what a type is: its package, its name, its kind, and its primitive. -/
structure OnlyLinks (f : TypeDecl → TypeDecl) : Prop where
  package : ∀ d, (f d).package = d.package := by intro; rfl
  name : ∀ d, (f d).name = d.name := by intro; rfl
  kind : ∀ d, (f d).kind = d.kind := by intro; rfl
  unboxed : ∀ d, (f d).unboxed = d.unboxed := by intro; rfl

theorem OnlyLinks.key {f : TypeDecl → TypeDecl} (h : OnlyLinks f) (d : TypeDecl) :
    (f d).key = d.key := by
  unfold TypeDecl.key
  rw [h.package, h.name]

theorem manifestKind?_ne {text : Text} {kind : TypeKind} (h : manifestKind? text = some kind) :
    kind ≠ .primitive ∧ kind ≠ .boxed := by
  unfold manifestKind? at h
  split at h
  · cases h
    decide
  · split at h
    · cases h
      decide
    · split at h
      · cases h
        decide
      · cases h

/-- Adding a type of a manifest leads wherever new types lead that are no primitives. -/
theorem leads_addType {R : Catalog → Catalog → Prop} [Std.Refl R]
    (hregister : ∀ d : TypeDecl, d.kind ≠ .primitive → d.kind ≠ .boxed → Leads R (register d))
    (package packageName : Text) (spec : TypeSpec) :
    Leads R (addType package packageName spec) := by
  unfold addType
  cases hkind : manifestKind? spec.kind with
  | none => infer_instance
  | some kind =>
    obtain ⟨hprimitive, hboxed⟩ := manifestKind?_ne hkind
    exact hregister _ hprimitive hboxed

section Linking

variable {R : Catalog → Catalog → Prop} [Std.Refl R] [IsTrans Catalog R]

instance (wrap : CatalogError → CatalogError) (key : Text) : Leads R (resolveIn wrap key) := by
  unfold resolveIn
  repeat' (first | infer_instance | split | refine Leads.bind' inferInstance fun _ => ?_)

instance (owner : TypeId) (m : MethodSpec) : Leads R (linkMethod owner m) := by
  unfold linkMethod
  infer_instance

/-- Linking a type leads wherever changes lead that leave alone what the type is. -/
theorem leads_linkType {t : TypeId}
    (hchange : ∀ f, OnlyLinks f → Leads R (modify (·.change t f) : Work Catalog Unit))
    (spec : TypeSpec) : Leads R (linkType t spec) := by
  unfold linkType
  refine Leads.bind' inferInstance fun super => ?_
  refine Leads.bind' (hchange _ {}) fun _ => ?_
  refine Leads.bind' (Leads.forIn (h := fun key _ => ?_)) fun _ => ?_
  · refine Leads.bind' inferInstance fun interface => Leads.bind' ?_ fun _ => inferInstance
    exact hchange _ {}
  refine Leads.bind' (Leads.forIn (h := fun m _ => ?_)) fun _ => ?_
  · refine Leads.bind' inferInstance fun method => Leads.bind' ?_ fun _ => inferInstance
    exact hchange _ {}
  refine Leads.bind' (Leads.forIn (h := fun m _ => ?_)) fun _ => ?_
  · refine Leads.bind' inferInstance fun method => Leads.bind' ?_ fun _ => inferInstance
    exact hchange _ {}
  refine Leads.bind' (hchange _ {}) fun _ => ?_
  refine Leads.bind' (Leads.forIn (h := fun f _ => ?_)) fun _ => inferInstance
  refine Leads.bind' inferInstance fun type => Leads.bind' ?_ fun _ => inferInstance
  exact hchange _ {}

/-- Loading a manifest leads wherever linking, new types and new tags lead. -/
theorem leads_load
    (hchange : ∀ t f, OnlyLinks f → Leads R (modify (·.change t f) : Work Catalog Unit))
    (hregister : ∀ d : TypeDecl, d.kind ≠ .primitive → d.kind ≠ .boxed → Leads R (register d))
    (htag : ∀ tag t, Leads R (modify (·.setDomTag tag t) : Work Catalog Unit)) (m : Manifest) :
    Leads R (load m) := by
  have hadd := leads_addType hregister
  have hlink := fun t => leads_linkType (hchange t)
  unfold load
  dsimp only
  split
  · exact Leads.bind' inferInstance fun _ => inferInstance
  · infer_instance

end Linking

/-! ## Loading -/

/-- What a catalog is like before any unit adds to it: all types are for everybody, each known by
its key. -/
structure Loaded (c : Catalog) : Prop where
  generated : c.generated = []
  shared : ∀ entry ∈ c.shared, entry.2 < c.types.size ∧ (c.decl entry.2).key = entry.1

/-- Loading goes on from one catalog to the other; keys lead where they led. -/
structure Loads (c c' : Catalog) : Prop where
  loaded : c.Loaded → c'.Loaded
  lookup : ∀ {key t}, c.shared.lookup key = some t → c'.shared.lookup key = some t

instance : Std.Refl Loads := ⟨fun _ => ⟨fun h => h, fun h => h⟩⟩

instance : IsTrans Catalog Loads where
  trans _ _ _ h h' := ⟨fun hloaded => h'.loaded (h.loaded hloaded), fun hfound =>
    h'.lookup (h.lookup hfound)⟩

theorem loaded_bare : bare.Loaded := ⟨by decide, by decide⟩

theorem loads_change {f : TypeDecl → TypeDecl} (hf : ∀ d, (f d).key = d.key) (t : TypeId) :
    Leads Loads (modify (·.change t f) : Work Catalog Unit) where
  leads c := by
    refine ⟨fun h => ⟨h.generated, fun entry hentry => ?_⟩, fun hfound => hfound⟩
    obtain ⟨hlt, hkey⟩ := h.shared entry hentry
    exact ⟨(size_change c t f).symm ▸ hlt, (key_change hf t entry.2).trans hkey⟩

instance (d : TypeDecl) : Leads Loads (register d) := by
  refine leads_register fun c _ => ⟨fun h => ⟨h.generated, fun entry hentry => ?_⟩, ?_⟩
  · rcases List.mem_append.mp hentry with hold | hnew
    · obtain ⟨hlt, hkey⟩ := h.shared entry hold
      refine ⟨?_, (congrArg _ (decl_push hlt d)).trans hkey⟩
      exact Nat.lt_of_lt_of_le hlt (size_push c d ▸ Nat.le_succ _)
    · rw [List.mem_singleton.mp hnew]
      exact ⟨size_push c d ▸ Nat.lt_succ_self _, congrArg _ (decl_push_size c d)⟩
  · intro key t hfound
    show (c.shared ++ [(d.key, c.types.size)]).lookup key = some t
    rw [List.lookup_append, hfound]
    rfl

instance (t : TypeId) (spec : TypeSpec) : Leads Loads (linkType t spec) :=
  leads_linkType (fun _ hf => loads_change hf.key t) spec

instance (package packageName : Text) (spec : TypeSpec) :
    Leads Loads (addType package packageName spec) :=
  leads_addType (fun _ _ _ => inferInstance) package packageName spec

instance (tag : Text) (t : Option TypeId) :
    Leads Loads (modify (·.setDomTag tag t) : Work Catalog Unit) where
  leads c := by
    show Loads c (c.setDomTag tag t)
    unfold setDomTag
    split <;> exact ⟨fun h => ⟨h.generated, h.shared⟩, fun hfound => hfound⟩

instance (m : Manifest) : Leads Loads (load m) :=
  leads_load (fun t _ hf => loads_change hf.key t) (fun _ _ _ => inferInstance)
    (fun _ _ => inferInstance) m

theorem loads_loadings (c : Catalog) (ms : List Manifest) : Loads c (ms.foldl loading c) := by
  induction ms generalizing c with
  | nil => exact Std.Refl.refl c
  | cons m ms ih => exact IsTrans.trans _ _ _ (Leads.leads (w := load m) c) (ih (c.loading m))

/-! ## Keys that everybody knows -/

/-- The key leads to a type that everybody knows by it. -/
structure Names (c : Catalog) (key : Text) (t : TypeId) : Prop where
  shared : c.shared.lookup key = some t
  own : c.generated.lookup key = none
  inside : t < c.types.size
  key : (c.decl t).key = key

variable {c : Catalog} {key : Text} {t : TypeId}

theorem Names.lookup (h : c.Names key t) : c.lookup? key = some t := by
  unfold lookup?
  rw [h.own, h.shared]
  rfl

theorem Loaded.names (h : c.Loaded) (hfound : c.lookup? key = some t) : c.Names key t := by
  unfold lookup? at hfound
  rw [h.generated] at hfound
  have hshared : c.shared.lookup key = some t := hfound
  obtain ⟨hlt, hkey⟩ := h.shared _ (mem_of_lookup hshared)
  refine ⟨hshared, ?_, hlt, hkey⟩
  rw [h.generated]
  rfl

theorem Names.push (h : c.Names key t) (d : TypeDecl) : (c.push d).2.Names key t where
  shared := h.shared
  own := h.own
  inside := Nat.lt_of_lt_of_le h.inside (size_push c d ▸ Nat.le_succ _)
  key := (congrArg _ (decl_push h.inside d)).trans h.key

theorem Names.change {f : TypeDecl → TypeDecl} (h : c.Names key t) (id : TypeId)
    (hf : ∀ d, (f d).key = d.key) : (c.change id f).Names key t where
  shared := h.shared
  own := h.own
  inside := (size_change c id f).symm ▸ h.inside
  key := (key_change hf id t).trans h.key

/-- A unit cannot take the key for a type of its own. -/
theorem Names.adopt {c' : Catalog} {id : TypeId} (h : c.Names key t)
    (hadopt : c.adopt id = .ok c') : c'.Names key t := by
  unfold Catalog.adopt at hadopt
  dsimp only at hadopt
  split at hadopt
  · cases hadopt
  · split at hadopt
    · cases hadopt
    · rename_i hfree
      cases hadopt
      refine ⟨h.shared, ?_, h.inside, h.key⟩
      have hne : key ≠ (c.decl id).key := by
        intro heq
        rw [← heq, h.shared] at hfree
        exact hfree rfl
      have hother : (key == (c.decl id).key) = false := by simpa using hne
      rw [List.lookup_append, h.own, List.lookup_cons, hother]
      rfl

theorem loaded_loadings (ms : List Manifest) : (ms.foldl loading bare).Loaded :=
  (loads_loadings bare ms).loaded loaded_bare

/-- Every catalog knows texts. -/
theorem names_string (ms : List Manifest) : ∃ t, (ms.foldl loading bare).Names "string" t := by
  have hbare : bare.shared.lookup (Text.ofString "string") = some 2 := by decide
  have hshared := (loads_loadings bare ms).lookup hbare
  refine ⟨2, (loaded_loadings ms).names ?_⟩
  unfold lookup?
  rw [(loaded_loadings ms).generated, hshared]
  rfl

end ViewBinder.Catalog
