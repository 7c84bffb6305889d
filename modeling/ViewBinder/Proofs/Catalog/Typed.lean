-- Catalogs of typed manifests. A manifest is typed if it gives the key of a type to every parameter
-- and every tag. Loading such manifests, as far as they go, leaves no parameter and no tag open;
-- the default library is one of them, so whatever typed manifests are loaded after it, the
-- catalog is complete.
import ViewBinder.Library
import ViewBinder.Proofs.Catalog.Complete
import ViewBinder.Proofs.Catalog.Linking
import ViewBinder.Proofs.Safe

namespace ViewBinder

open Work (Leads Safe)

/-- Every parameter has the key of a type. -/
def MethodSpec.Typed (m : MethodSpec) : Prop := ∀ p ∈ m.params, p.type.isEmpty = false

/-- Every parameter and every tag has the key of a type. -/
structure Manifest.Typed (m : Manifest) : Prop where
  methods : ∀ spec ∈ m.types, ∀ method ∈ spec.methods ++ spec.constructors, method.Typed
  tags : ∀ entry ∈ m.domTags, entry.2.isEmpty = false

instance (m : MethodSpec) : Decidable m.Typed :=
  inferInstanceAs (Decidable (∀ p ∈ m.params, p.type.isEmpty = false))

instance (m : Manifest) : Decidable m.Typed :=
  decidable_of_iff ((∀ spec ∈ m.types, ∀ method ∈ spec.methods ++ spec.constructors, method.Typed) ∧
    ∀ entry ∈ m.domTags, entry.2.isEmpty = false)
    ⟨fun h => ⟨h.1, h.2⟩, fun h => ⟨h.methods, h.tags⟩⟩

/-- Every method and every constructor has typed parameters. -/
structure TypeDecl.Typed (d : TypeDecl) : Prop where
  methods : ∀ m ∈ d.methods, m.Typed
  constructors : ∀ m ∈ d.constructors, m.Typed

namespace Catalog

/-- What loading typed manifests keeps: no parameter and no tag is without a type, tags that are not
known have a type if they had one before, and all keys are among the ones given. -/
structure Filled (keys : List Text) (others : Bool) (c : Catalog) : Prop where
  types : ∀ t, (c.decl t).Typed
  tags : ∀ entry ∈ c.domTags, entry.2.isSome
  others : others = true → c.domOther.isSome
  keys : ∀ entry ∈ c.shared, entry.1 ∈ keys

variable {keys : List Text} {others : Bool} {I B : Catalog → Prop} {c : Catalog}

theorem typed_noType : noType.Typed := by
  constructor <;> (intro _ h; cases h)

theorem failure_ne_crash {e : CatalogError} : e.failure ≠ .crash := by
  intro h
  cases h

/-- The catalog that every other one extends has no methods at all. -/
theorem filled_bare : bare.Filled (bare.shared.map (·.1)) false where
  types t := by
    have hnone : ∀ d ∈ bare.types, d.methods = [] ∧ d.constructors = [] := by decide
    unfold decl
    cases hfound : bare.types[t]? with
    | none => exact typed_noType
    | some d =>
      obtain ⟨hmethods, hconstructors⟩ := hnone d (Array.mem_of_getElem? hfound)
      refine ⟨fun m hm => ?_, fun m hm => ?_⟩
      · rw [Option.getD_some, hmethods] at hm
        cases hm
      · rw [Option.getD_some, hconstructors] at hm
        cases hm
  tags := by decide
  others h := absurd h Bool.false_ne_true
  keys _ hentry := List.mem_map_of_mem hentry

/-! ## Work on typed manifests -/

theorem safe_change (t : TypeId) {f : TypeDecl → TypeDecl} (hf : ∀ d, d.Typed → (f d).Typed) :
    Safe (Filled keys others) B (modify (·.change t f) : Work Catalog Unit) := by
  refine Safe.modify fun c hc => ⟨fun s => ?_, hc.tags, hc.others, hc.keys⟩
  rcases decl_change c t s f with hsame | ⟨-, -, hnew⟩
  · exact hsame ▸ hc.types s
  · exact hnew ▸ hf _ (hc.types s)

instance (wrap : CatalogError → CatalogError) (key : Text) : Safe I B (resolveIn wrap key) := by
  unfold resolveIn
  split
  · infer_instance
  · refine Safe.bind' inferInstance fun c => ?_
    split
    · infer_instance
    · exact Safe.throw failure_ne_crash

/-- A key that is there leads to a type, or nothing goes on. -/
theorem isSome_of_resolveIn {wrap : CatalogError → CatalogError} {key : Text} {c c' : Catalog}
    {type : Option TypeId} (hkey : key.isEmpty = false)
    (h : (resolveIn wrap key).runOn c = (.ok type, c')) : type.isSome := by
  unfold resolveIn at h
  rw [hkey, if_neg Bool.false_ne_true] at h
  obtain ⟨_, _, hget, h⟩ := Work.bind_ok h
  cases hget
  split at h
  · cases h
    rfl
  · cases h

instance (owner : TypeId) (m : MethodSpec) : Safe I B (linkMethod owner m) := by
  unfold linkMethod
  infer_instance

theorem typed_of_linkMethod {owner : TypeId} {m : MethodSpec} {c c' : Catalog} {method : Method}
    (hm : m.Typed) (h : (linkMethod owner m).runOn c = (.ok method, c')) : method.Typed := by
  unfold linkMethod at h
  obtain ⟨_, _, -, h⟩ := Work.bind_ok h
  obtain ⟨params, c₁, hparams, h⟩ := Work.bind_ok h
  obtain ⟨_, _, -, h⟩ := Work.bind_ok h
  cases h
  have hall : List.Forall₂ (fun _ p => p.type.isSome = true) m.params params := by
    refine (Work.mapM_ok (P := fun _ => True) (fun p hp _ _ _ _ hrun => ?_) trivial hparams).2
    obtain ⟨type, _, htype, hrun⟩ := Work.bind_ok hrun
    cases hrun
    exact ⟨trivial, isSome_of_resolveIn (hm p hp) htype⟩
  obtain ⟨hlength, hgiven⟩ := List.forall₂_iff_get.mp hall
  intro p hp
  obtain ⟨i, rfl⟩ := List.mem_iff_get.mp hp
  exact hgiven i (Nat.lt_of_lt_of_eq i.2 hlength.symm) i.2

/-- One more method or constructor of a typed specification. -/
theorem safe_linked (t : TypeId) {m : MethodSpec} (hm : m.Typed) {f : Method → TypeDecl → TypeDecl}
    (hf : ∀ method d, method.Typed → d.Typed → (f method d).Typed) :
    Safe (Filled keys others) B (do
      let method ← linkMethod t m
      modify (·.change t (f method))
      pure (ForInStep.yield ()) : Work Catalog (ForInStep Unit)) := by
  refine Safe.after inferInstance (fun _ hrun => typed_of_linkMethod hm hrun) fun method hmethod => ?_
  exact Safe.bind' (safe_change t fun d hd => hf method d hmethod hd) fun _ => inferInstance

theorem safe_linkType (t : TypeId) {spec : TypeSpec}
    (hspec : ∀ method ∈ spec.methods ++ spec.constructors, method.Typed) :
    Safe (Filled keys others) B (linkType t spec) := by
  have hadded : ∀ {ms : List Method} {m : Method}, (∀ m ∈ ms, m.Typed) → m.Typed →
      ∀ m' ∈ ms ++ [m], m'.Typed := by
    intro ms m hms hm m' hm'
    rcases List.mem_append.mp hm' with hold | hnew
    · exact hms m' hold
    · exact List.mem_singleton.mp hnew ▸ hm
  unfold linkType
  refine Safe.bind' inferInstance fun super => ?_
  refine Safe.bind' (safe_change t fun _ hd => ⟨hd.methods, hd.constructors⟩) fun _ => ?_
  refine Safe.bind' (Safe.forInMem fun key _ _ => ?_) fun _ => ?_
  · refine Safe.bind' inferInstance fun interface => ?_
    exact Safe.bind' (safe_change t fun _ hd => ⟨hd.methods, hd.constructors⟩) fun _ => inferInstance
  refine Safe.bind' (Safe.forInMem fun m hm _ => ?_) fun _ => ?_
  · refine safe_linked t (hspec m (List.mem_append_left _ hm)) fun method d hmethod hd => ?_
    exact ⟨hadded hd.methods hmethod, hd.constructors⟩
  refine Safe.bind' (Safe.forInMem fun m hm _ => ?_) fun _ => ?_
  · refine safe_linked t (hspec m (List.mem_append_right _ hm)) fun method d hmethod hd => ?_
    exact ⟨hd.methods, hadded hd.constructors hmethod⟩
  refine Safe.bind' (safe_change t fun _ hd => ⟨hd.methods, hd.constructors⟩) fun _ => ?_
  refine Safe.bind' (Safe.forInMem fun f _ _ => ?_) fun _ => inferInstance
  refine Safe.bind' inferInstance fun type => ?_
  exact Safe.bind' (safe_change t fun _ hd => ⟨hd.methods, hd.constructors⟩) fun _ => inferInstance

theorem Filled.push (hc : c.Filled keys others) {d : TypeDecl} (hd : d.Typed) :
    (c.push d).2.Filled keys others where
  types t := by
    rcases decl_push_or c d t with hsame | ⟨-, hnew⟩
    · exact hsame ▸ hc.types t
    · rwa [hnew]
  tags := hc.tags
  others := hc.others
  keys := hc.keys

theorem safe_register {d : TypeDecl} (hd : d.Typed) (hkey : d.key ∈ keys) :
    Safe (Filled keys others) B (register d) where
  safe c hc := by
    have hpushed := hc.push hd
    unfold Work.SafeAt
    by_cases hfree : c.shared.lookup d.key = none
    · rw [register_free hfree]
      refine ⟨⟨hpushed.types, hpushed.tags, hpushed.others, fun entry hentry => ?_⟩, fun h => ?_⟩
      · rcases List.mem_append.mp hentry with hold | hnew
        · exact hc.keys entry hold
        · exact List.mem_singleton.mp hnew ▸ hkey
      · cases h
    · rw [register_taken hfree]
      exact ⟨hc, fun h => absurd (Except.error.inj h) failure_ne_crash⟩

theorem safe_load {m : Manifest} (hm : m.Typed) (hkeys : m.keys ⊆ keys) :
    Safe (Filled keys others) B (load m) := by
  have hadd : ∀ packageName, ∀ spec ∈ m.types,
      Safe (Filled keys others) B (addType m.package packageName spec) := by
    intro packageName spec hspec
    unfold addType
    split
    · exact Safe.throw failure_ne_crash
    · refine safe_register ⟨fun _ h => ?_, fun _ h => ?_⟩ (hkeys (List.mem_map_of_mem hspec)) <;>
        cases h
  unfold load
  dsimp only
  refine Safe.checked (Safe.throw failure_ne_crash) fun _ => ?_
  refine Safe.bind' (Safe.mapMMem (hadd _)) fun ids => ?_
  refine Safe.bind' (Safe.forInMem fun entry hentry _ => ?_) fun _ => ?_
  · have hspec := (List.of_mem_zip hentry).2
    exact Safe.bind' (safe_linkType entry.1 (hm.methods entry.2 hspec)) fun _ => inferInstance
  refine Safe.bind' (Safe.forInMem fun entry hentry _ => ?_) fun _ => inferInstance
  refine Safe.after inferInstance (fun _ hrun => isSome_of_resolveIn (hm.tags entry hentry) hrun)
    fun type htype => Safe.bind' (Safe.modify fun c hc => ?_) fun _ => inferInstance
  unfold setDomTag
  split
  · exact ⟨hc.types, hc.tags, fun _ => htype, hc.keys⟩
  · exact ⟨hc.types, List.forall_mem_cons.mpr ⟨htype, hc.tags⟩, hc.others, hc.keys⟩

theorem Filled.mono (hc : c.Filled keys others) {keys' : List Text} (h : keys ⊆ keys') :
    c.Filled keys' others := { hc with keys := fun entry hentry => h (hc.keys entry hentry) }

/-- Whatever typed manifests are loaded, only their keys come in. -/
theorem Filled.loadings (hc : c.Filled keys others) (ms : List Manifest)
    (hms : ∀ m ∈ ms, m.Typed) :
    (ms.foldl loading c).Filled (keys ++ ms.flatMap Manifest.keys) others := by
  induction ms generalizing c keys with
  | nil => exact hc.mono (List.subset_append_left _ _)
  | cons m ms ih =>
    obtain ⟨hm, hms⟩ := List.forall_mem_cons.mp hms
    have hload : (c.loading m).Filled (keys ++ m.keys) others :=
      ((safe_load (B := fun _ => True) hm (List.subset_append_right _ _)).safe c
        (hc.mono (List.subset_append_left _ _))).1
    rw [List.flatMap_cons, ← List.append_assoc]
    exact ih hload hms

/-- Tags have types, the ones that are known and all others. -/
theorem Filled.complete (hc : c.Filled keys true)
    (hattributes : ∀ key ∈ attributeTypes, (c.lookup? key).isSome) : c.Complete where
  methods t := (hc.types t).methods
  constructors t := (hc.types t).constructors
  tags tag := by
    unfold domType?
    split
    · rename_i type hfound
      exact hc.tags (Text.toLower tag, type) (mem_of_lookup hfound)
    · exact hc.others rfl
  attributes := hattributes

/-! ## The first types of a manifest -/

/-- Types at the front of a manifest are known when it is loaded, however far that goes. -/
theorem lookup_loading {m : Manifest} {specs after : List TypeSpec} (hm : m.package.isEmpty = false)
    (htypes : m.types = specs ++ after)
    (hkinds : ∀ spec ∈ specs, (manifestKind? spec.kind).isSome)
    (hfree : ∀ spec ∈ specs, c.shared.lookup (keyOf m.package spec.name) = none)
    (hnodup : (specs.map fun spec => keyOf m.package spec.name).Nodup) :
    ∀ spec ∈ specs, ((c.loading m).shared.lookup (keyOf m.package spec.name)).isSome := by
  intro spec hspec
  have hrun : (specs.mapM (addType m.package m.qualifier)).runOn c =
      (.ok (List.range' c.types.size specs.length),
        c.extended (specs.map (·.unlinked m.package m.qualifier))) :=
    addTypes_ok_iff.mpr ⟨hkinds, List.forall_mem_map.mpr hfree, hnodup, rfl, rfl⟩
  have hlinks : ∀ pairs, Leads Loads (linkTypes pairs >>= fun _ => tagTypes m.domTags) :=
    fun pairs => leads_linking (fun p _ f hf => loads_change hf.key p.1) (fun _ _ => inferInstance) _
  have hloads : Loads (c.extended (specs.map (·.unlinked m.package m.qualifier))) (c.loading m) := by
    unfold loading
    rw [load_eq hm, htypes, List.mapM_append, bind_assoc, Work.runOn_bind, hrun]
    exact Leads.leads _
  have hfound : ((c.extended (specs.map (·.unlinked m.package m.qualifier))).shared.lookup
      (keyOf m.package spec.name)).isSome := by
    rw [lookup_extended, hfree spec hspec, if_pos]
    · rfl
    · exact List.mem_map_of_mem (List.mem_map_of_mem hspec)
  obtain ⟨t, ht⟩ := Option.isSome_iff_exists.mp hfound
  rw [hloads.lookup ht]
  rfl

/-- They stay known, whatever is loaded later. -/
theorem lookup_loadings (before after : List Manifest) (m : Manifest) (specs : List TypeSpec)
    {rest : List TypeSpec}
    (hbefore : ∀ m ∈ before, m.Typed) (hm : m.package.isEmpty = false)
    (htypes : m.types = specs ++ rest)
    (hkinds : ∀ spec ∈ specs, (manifestKind? spec.kind).isSome)
    (hfree : ∀ spec ∈ specs, keyOf m.package spec.name ∉
      bare.shared.map (·.1) ++ before.flatMap Manifest.keys)
    (hnodup : (specs.map fun spec => keyOf m.package spec.name).Nodup) :
    ∀ key ∈ specs.map fun spec => keyOf m.package spec.name,
      (((before ++ m :: after).foldl loading bare).lookup? key).isSome := by
  intro key hkey
  obtain ⟨spec, hspec, rfl⟩ := List.mem_map.mp hkey
  have hfilled := filled_bare.loadings before hbefore
  have hfound := lookup_loading hm htypes hkinds (fun other hother => by
    rw [List.lookup_eq_none_iff]
    intro entry hentry
    refine bne_iff_ne.mpr fun heq => hfree other hother ?_
    exact heq ▸ hfilled.keys entry hentry) hnodup spec hspec
  obtain ⟨t, ht⟩ := Option.isSome_iff_exists.mp hfound
  have hlater : ((before ++ m :: after).foldl loading bare).shared.lookup
      (keyOf m.package spec.name) = some t := by
    rw [List.foldl_append, List.foldl_cons]
    exact (loads_loadings _ after).lookup ht
  unfold lookup?
  rw [(loaded_loadings _).generated, hlater]
  rfl

end Catalog

/-! ## The default library -/

namespace Library

theorem typed_manifests : ∀ m ∈ manifests, m.Typed := by decide +kernel

/-- The default library leaves nothing open, nor does whatever typed manifests add to it. -/
theorem complete_loadings {ms : List Manifest} (hms : ∀ m ∈ ms, m.Typed) :
    ((manifests ++ ms).foldl Catalog.loading Catalog.bare).Complete := by
  have hall : ∀ m ∈ manifests ++ ms, m.Typed := List.forall_mem_append.mpr ⟨typed_manifests, hms⟩
  have hothers : ((manifests.take 2).foldl Catalog.loading Catalog.bare).domOther.isSome := by
    decide +kernel
  have hearly := Catalog.filled_bare.loadings (manifests.take 2) fun m hm =>
    typed_manifests m (List.mem_of_mem_take hm)
  have hfilled : Catalog.Filled _ true ((manifests.take 2).foldl Catalog.loading Catalog.bare) :=
    { hearly with others := fun _ => hothers }
  have hloaded := hfilled.loadings (manifests.drop 2 ++ ms) fun m hm =>
    (List.mem_append.mp hm).elim (fun h => typed_manifests m (List.mem_of_mem_drop h)) (hms m)
  rw [← List.foldl_append, ← List.append_assoc, List.take_append_drop] at hloaded
  have hwidgets := Catalog.lookup_loadings (manifests.take 4) ms manifests[4] (events.take 3)
    (fun m hm => typed_manifests m (List.mem_of_mem_take hm)) rfl rfl
    (by decide) (by decide +kernel) (by decide +kernel)
  have hresources := Catalog.lookup_loadings (manifests.take 2) (manifests.drop 3 ++ ms)
    manifests[2] (resourceTypes.take 1)
    (fun m hm => typed_manifests m (List.mem_of_mem_take hm)) rfl rfl
    (by decide) (by decide +kernel) (by decide +kernel)
  have hkeys : ∀ key ∈ Catalog.attributeTypes,
      key ∈ ((events.take 3).map fun spec => keyOf manifests[4].package spec.name) ∨
        key ∈ (resourceTypes.take 1).map fun spec => keyOf manifests[2].package spec.name := by
    decide +kernel
  exact hloaded.complete fun key hkey => (hkeys key hkey).elim (hwidgets key) (hresources key)

end Library

end ViewBinder
