-- References that lead somewhere. The catalog that every other one extends refers to types of the
-- table only, and whatever manifests are loaded, however far that goes, it stays so: what a type is
-- linked to was found by a key. So what is known of its types is known wherever they are declared
-- again.
import ViewBinder.Proofs.Catalog.Typed

namespace ViewBinder

open Work (Leads Safe)

/-! ## References of declarations -/

/-- The method refers to the first types only. -/
structure Method.Below (n : Nat) (m : Method) : Prop where
  params : ∀ p ∈ m.params, ∀ t ∈ p.type, t < n
  returns : ∀ t ∈ m.returns, t < n
  owner : ∀ t ∈ m.owner, t < n

/-- The declaration refers to the first types only. -/
structure TypeDecl.Below (n : Nat) (d : TypeDecl) : Prop where
  super : ∀ t ∈ d.super, t < n
  interfaces : ∀ i ∈ d.interfaces, ∀ t ∈ i, t < n
  methods : ∀ m ∈ d.methods, m.Below n
  constructors : ∀ m ∈ d.constructors, m.Below n
  unboxed : ∀ t ∈ d.unboxed, t < n
  uiFields : ∀ f ∈ d.traits.uiFields, ∀ t ∈ f.type, t < n

section Below

variable {n k : Nat}

theorem Method.Below.mono {m : Method} (h : m.Below n) (hk : n ≤ k) : m.Below k where
  params p hp t ht := Nat.lt_of_lt_of_le (h.params p hp t ht) hk
  returns t ht := Nat.lt_of_lt_of_le (h.returns t ht) hk
  owner t ht := Nat.lt_of_lt_of_le (h.owner t ht) hk

theorem TypeDecl.Below.mono {d : TypeDecl} (h : d.Below n) (hk : n ≤ k) : d.Below k where
  super t ht := Nat.lt_of_lt_of_le (h.super t ht) hk
  interfaces i hi t ht := Nat.lt_of_lt_of_le (h.interfaces i hi t ht) hk
  methods m hm := (h.methods m hm).mono hk
  constructors m hm := (h.constructors m hm).mono hk
  unboxed t ht := Nat.lt_of_lt_of_le (h.unboxed t ht) hk
  uiFields f hf t ht := Nat.lt_of_lt_of_le (h.uiFields f hf t ht) hk

/-- A declaration that refers to nothing. -/
structure TypeDecl.Alone (d : TypeDecl) : Prop where
  super : d.super = none := by rfl
  interfaces : d.interfaces = [] := by rfl
  methods : d.methods = [] := by rfl
  constructors : d.constructors = [] := by rfl
  unboxed : d.unboxed = none := by rfl
  uiFields : d.traits.uiFields = [] := by rfl

theorem TypeDecl.Alone.below {d : TypeDecl} (h : d.Alone) (n : Nat) : d.Below n where
  super t ht := by
    rw [h.super] at ht
    cases ht
  interfaces i hi := by
    rw [h.interfaces] at hi
    cases hi
  methods m hm := by
    rw [h.methods] at hm
    cases hm
  constructors m hm := by
    rw [h.constructors] at hm
    cases hm
  unboxed t ht := by
    rw [h.unboxed] at ht
    cases ht
  uiFields f hf := by
    rw [h.uiFields] at hf
    cases hf

theorem alone_unlinked (package packageName : Text) (spec : TypeSpec) :
    (spec.unlinked package packageName).Alone := {}

/-! ## What keys lead to -/

variable {entries : Entries}

theorem Entries.find?_below (h : ∀ entry ∈ entries, entry.2 < n) {key : Text}
    {found : Option TypeId} (hfound : entries.find? key = some found) : ∀ t ∈ found, t < n := by
  unfold find? at hfound
  split at hfound
  · cases hfound
    exact nofun
  · obtain ⟨t, ht, rfl⟩ := Option.map_eq_some_iff.mp hfound
    intro s hs
    cases hs
    exact h _ (Catalog.mem_of_lookup ht)

theorem mem_of_mapM {α β : Type} {f : α → Option β} {xs : List α} {ys : List β}
    (h : xs.mapM f = some ys) {y : β} (hy : y ∈ ys) : ∃ x ∈ xs, f x = some y := by
  induction xs generalizing ys with
  | nil =>
    cases h
    cases hy
  | cons x xs ih =>
    rw [List.mapM_cons] at h
    obtain ⟨b, hb, h⟩ := Option.bind_eq_some_iff.mp h
    obtain ⟨bs, hbs, h⟩ := Option.bind_eq_some_iff.mp h
    cases h
    rcases List.mem_cons.mp hy with rfl | hy
    · exact ⟨x, List.mem_cons_self, hb⟩
    · obtain ⟨a, ha, hfound⟩ := ih hbs hy
      exact ⟨a, List.mem_cons_of_mem _ ha, hfound⟩

theorem MethodSpec.linked?_below (h : ∀ entry ∈ entries, entry.2 < n) {owner : TypeId}
    (howner : owner < n) {m : MethodSpec} {method : Method}
    (hmethod : m.linked? entries owner = some method) : method.Below n := by
  unfold linked? at hmethod
  obtain ⟨params, hparams, hmethod⟩ := Option.bind_eq_some_iff.mp hmethod
  obtain ⟨returns, hreturns, hmethod⟩ := Option.bind_eq_some_iff.mp hmethod
  cases hmethod
  refine ⟨fun p hp => ?_, Entries.find?_below h hreturns, fun t ht => ?_⟩
  · obtain ⟨spec, -, hspec⟩ := mem_of_mapM hparams hp
    obtain ⟨type, htype, rfl⟩ := Option.map_eq_some_iff.mp hspec
    exact Entries.find?_below h htype
  · cases ht
    exact howner

end Below

namespace Catalog

/-! ## References of catalogs -/

/-- The catalog refers to the first types only. -/
structure Below (n : Nat) (c : Catalog) : Prop where
  shared : ∀ entry ∈ c.shared, entry.2 < n
  types : ∀ t, (c.decl t).Below n
  tags : ∀ entry ∈ c.domTags, ∀ t ∈ entry.2, t < n
  others : ∀ t ∈ c.domOther, t < n

/-- All that the catalog refers to is in its table. -/
def Closed (c : Catalog) : Prop := c.Below c.types.size

variable {c : Catalog} {n : Nat} {t : TypeId} {B : Catalog → Prop}

theorem Below.mono {k : Nat} (h : c.Below n) (hk : n ≤ k) : c.Below k where
  shared entry hentry := Nat.lt_of_lt_of_le (h.shared entry hentry) hk
  types t := (h.types t).mono hk
  tags entry hentry t ht := Nat.lt_of_lt_of_le (h.tags entry hentry t ht) hk
  others t ht := Nat.lt_of_lt_of_le (h.others t ht) hk

theorem alone_noType : noType.Alone := {}

theorem closed_bare : bare.Closed where
  shared := by decide
  types t := by
    have hlinks : ∀ d ∈ bare.types, d.super = none ∧ d.interfaces = [] ∧ d.methods = [] ∧
        d.constructors = [] ∧ (∀ t ∈ d.unboxed, t < bare.types.size) ∧ d.traits.uiFields = [] := by
      decide
    unfold decl
    cases hfound : bare.types[t]? with
    | none => exact alone_noType.below _
    | some d =>
      obtain ⟨hsuper, hinterfaces, hmethods, hconstructors, hunboxed, huiFields⟩ :=
        hlinks d (Array.mem_of_getElem? hfound)
      have halone : { d with unboxed := none }.Alone :=
        ⟨hsuper, hinterfaces, hmethods, hconstructors, rfl, huiFields⟩
      exact { halone.below _ with unboxed := hunboxed }
  tags := by decide
  others := by decide

/-! ## Linking -/

theorem safe_changeBelow (t : TypeId) {f : TypeDecl → TypeDecl}
    (hf : ∀ d, d.Below n → (f d).Below n) :
    Safe (Below n) B (modify (·.change t f) : Work Catalog Unit) := by
  refine Safe.modify fun c hc => ⟨hc.shared, fun s => ?_, hc.tags, hc.others⟩
  rcases decl_change c t s f with hsame | ⟨-, -, hnew⟩
  · exact hsame ▸ hc.types s
  · exact hnew ▸ hf _ (hc.types s)

/-- What follows is looked at for types that were found by a key. -/
theorem safe_afterFound {α : Type} {wrap : CatalogError → CatalogError} {key : Text}
    {k : Option TypeId → Work Catalog α}
    (hk : ∀ found, (∀ t ∈ found, t < n) → Safe (Below n) B (k found)) :
    Safe (Below n) B (resolveIn wrap key >>= k) :=
  Safe.after inferInstance
    (fun hc hrun => Entries.find?_below hc.shared ((finds_resolveIn _ _).ok.mp hrun).1) hk

theorem forall_mem_snoc {α : Type} {P : α → Prop} {xs : List α} {x : α} (hxs : ∀ y ∈ xs, P y)
    (hx : P x) : ∀ y ∈ xs ++ [x], P y :=
  List.forall_mem_append.mpr ⟨hxs, List.forall_mem_singleton.mpr hx⟩

/-- One more method or constructor. -/
theorem safe_linkedBelow (ht : t < n) (m : MethodSpec) {f : Method → TypeDecl → TypeDecl}
    (hf : ∀ method d, method.Below n → d.Below n → (f method d).Below n) :
    Safe (Below n) B (do
      let method ← linkMethod t m
      modify (·.change t (f method))
      pure (ForInStep.yield ()) : Work Catalog (ForInStep Unit)) :=
  Safe.after inferInstance
    (fun hc hrun => MethodSpec.linked?_below hc.shared ht ((finds_linkMethod t m).ok.mp hrun).1)
    fun method hmethod => Safe.bind' (safe_changeBelow t fun d hd => hf method d hmethod hd)
      fun _ => inferInstance

theorem safe_linkTypeBelow (ht : t < n) (spec : TypeSpec) :
    Safe (Below n) B (linkType t spec) := by
  unfold linkType
  refine safe_afterFound fun super hsuper => ?_
  refine Safe.bind' (safe_changeBelow t fun d hd => { hd with super := hsuper }) fun _ => ?_
  refine Safe.bind' (Safe.forInMem fun key _ _ => ?_) fun _ => ?_
  · refine safe_afterFound fun interface hinterface => Safe.bind' ?_ fun _ => inferInstance
    exact safe_changeBelow t fun d hd =>
      { hd with interfaces := forall_mem_snoc hd.interfaces hinterface }
  refine Safe.bind' (Safe.forInMem fun m _ _ => ?_) fun _ => ?_
  · exact safe_linkedBelow ht m fun method d hmethod hd =>
      { hd with methods := forall_mem_snoc hd.methods hmethod }
  refine Safe.bind' (Safe.forInMem fun m _ _ => ?_) fun _ => ?_
  · refine safe_linkedBelow ht m fun method d hmethod hd =>
      { hd with constructors := forall_mem_snoc hd.constructors ⟨hmethod.params, ?_, hmethod.owner⟩ }
    intro s hs
    cases hs
    exact ht
  refine Safe.bind' (safe_changeBelow t fun d hd =>
    { hd with uiFields := List.forall_mem_nil _ }) fun _ => ?_
  refine Safe.bind' (Safe.forInMem fun f _ _ => ?_) fun _ => inferInstance
  refine safe_afterFound fun type htype => Safe.bind' ?_ fun _ => inferInstance
  exact safe_changeBelow t fun d hd => { hd with uiFields := forall_mem_snoc hd.uiFields htype }

theorem safe_linkTypesBelow {pairs : List (TypeId × TypeSpec)} (h : ∀ p ∈ pairs, p.1 < n) :
    Safe (Below n) B (linkTypes pairs) := by
  unfold linkTypes
  exact Safe.forInMem fun p hp _ => Safe.bind' (safe_linkTypeBelow (h p hp) p.2) fun _ =>
    inferInstance

theorem safe_tagTypesBelow (domTags : List (Text × Text)) :
    Safe (Below n) B (tagTypes domTags) := by
  unfold tagTypes
  refine Safe.forInMem fun e _ _ => safe_afterFound fun type htype => ?_
  refine Safe.bind' (Safe.modify fun c hc => ?_) fun _ => inferInstance
  unfold setDomTag
  split
  · exact { hc with others := htype }
  · exact { hc with tags := List.forall_mem_cons.mpr ⟨htype, hc.tags⟩ }

/-! ## Loading -/

/-- A catalog that refers to types of its table only leads to such catalogs. -/
def StaysClosed (c c' : Catalog) : Prop := c.Closed → c'.Closed

instance : Std.Refl StaysClosed := ⟨fun _ h => h⟩

instance : IsTrans Catalog StaysClosed := ⟨fun _ _ _ h h' hc => h' (h hc)⟩

/-- Types that refer to nothing may be added. -/
theorem Closed.extended (h : c.Closed) {ds : List TypeDecl} (hds : ∀ d ∈ ds, d.Alone) :
    (c.extended ds).Closed := by
  have hmore : c.Below (c.extended ds).types.size :=
    h.mono (size_extended c ds ▸ Nat.le_add_right _ _)
  refine ⟨fun entry hentry => ?_, fun t => ?_, hmore.tags, hmore.others⟩
  · rcases List.mem_append.mp hentry with hold | hnew
    · exact hmore.shared entry hold
    · have hid := (List.of_mem_zip hnew).2
      rw [size_extended]
      exact (List.mem_range'_1.mp hid).2
  · rcases Nat.lt_or_ge t c.types.size with ht | ht
    · rw [decl_extended_old ds ht]
      exact hmore.types t
    · obtain ⟨i, rfl⟩ := Nat.exists_eq_add_of_le ht
      rcases Nat.lt_or_ge i ds.length with hi | hi
      · rw [decl_extended_new c ds i hi]
        exact (hds _ (List.getElem_mem hi)).below _
      · rw [decl_eq_noType (size_extended c ds ▸ Nat.add_le_add_left hi _)]
        exact alone_noType.below _

theorem staysClosed_register {d : TypeDecl} (hd : d.Alone) : Leads StaysClosed (register d) :=
  leads_register fun c _ hc => extended_one c d ▸ hc.extended (List.forall_mem_singleton.mpr hd)

instance (package packageName : Text) (spec : TypeSpec) :
    Leads StaysClosed (addType package packageName spec) := by
  unfold addType
  split
  · infer_instance
  · exact staysClosed_register {}

/-- No type goes away. -/
def Grows (c c' : Catalog) : Prop := c.types.size ≤ c'.types.size

instance : Std.Refl Grows := ⟨fun _ => Nat.le_refl _⟩

instance : IsTrans Catalog Grows := ⟨fun _ _ _ h h' => Nat.le_trans h h'⟩

theorem grows_linking (pairs : List (TypeId × TypeSpec)) (domTags : List (Text × Text)) :
    Leads Grows (linkTypes pairs >>= fun _ => tagTypes domTags) :=
  leads_linking (fun p _ f _ => ⟨fun c => Nat.le_of_eq (size_change c p.1 f).symm⟩)
    (fun tag type => ⟨fun c => Nat.le_of_eq (congrArg _ (types_setDomTag c tag type).symm)⟩) domTags

theorem staysClosed_loading (c : Catalog) (m : Manifest) : StaysClosed c (c.loading m) := by
  refine leads_loading (fun _ => inferInstance) fun hc => ?_
  have hinside : ∀ p ∈ c.numbered m, p.1 < (c.extended m.unlinked).types.size := fun p hp => by
    rw [size_extended_unlinked]
    exact (List.mem_range'_1.mp (List.of_mem_zip hp).1).2
  have hlink : Safe (Below (c.extended m.unlinked).types.size) (fun _ => True)
      (linkTypes (c.numbered m) >>= fun _ => tagTypes m.domTags) :=
    Safe.bind' (safe_linkTypesBelow hinside) fun _ => safe_tagTypesBelow m.domTags
  exact (hlink.safe _ hc).1.mono ((grows_linking _ _).leads _)

/-- All that is loaded refers to types of the table only. -/
theorem closed_loadings (ms : List Manifest) : (ms.foldl loading bare).Closed := by
  suffices h : ∀ c, StaysClosed c (ms.foldl loading c) from h bare closed_bare
  intro c
  induction ms generalizing c with
  | nil => exact Std.Refl.refl c
  | cons m ms ih => exact IsTrans.trans _ _ _ (staysClosed_loading c m) (ih (c.loading m))

/-! ## Catalogs that say the same -/

section Agreement

variable {c c' : Catalog} {t : TypeId}

theorem Closed.parents_lt (hc : c.Closed) {s : TypeId} (hs : s ∈ c.parents t) :
    s < c.types.size := by
  rcases List.mem_append.mp hs with hinterface | hsuper
  · obtain ⟨i, hi, hsome⟩ := List.mem_filterMap.mp hinterface
    exact (hc.types t).interfaces i hi s hsome
  · exact (hc.types t).super s (Option.mem_toList.mp hsuper)

theorem Closed.grounded (hc : c.Closed) (t : TypeId) : c.Grounded t :=
  grounded_of_parents (fun _ _ _ hs => hc.parents_lt hs) t

theorem Closed.hierarchy_lt (hc : c.Closed) (ht : t < c.types.size) {s : TypeId}
    (hs : s ∈ c.hierarchy t) : s < c.types.size := by
  obtain ⟨n, hsteps⟩ := (mem_hierarchy_iff (hc.grounded t)).mp hs
  cases hsteps with
  | here => exact ht
  | up _ hparent => exact hc.parents_lt hparent

/-- Only one climb starts from some types. -/
theorem Climbs.unique {seen queue all all' : List TypeId} (h : c.Climbs seen queue all)
    (h' : c.Climbs seen queue all') : all = all' := by
  induction h with
  | done =>
    cases h'
    rfl
  | on _ ih =>
    cases h' with
    | on hrest => exact ih hrest

/-- The types of one catalog are declared in another one as well; that may have more types. -/
structure Repeated (c c' : Catalog) : Prop where
  size : c.types.size ≤ c'.types.size
  decl : ∀ t < c.types.size, c'.decl t = c.decl t

variable (h : c.Repeated c')
include h

theorem Repeated.parents (ht : t < c.types.size) : c'.parents t = c.parents t := by
  unfold Catalog.parents
  rw [h.decl t ht]

theorem Repeated.climbs (hc : c.Closed) {seen queue all : List TypeId}
    (hqueue : ∀ s ∈ queue, s < c.types.size) (hclimbs : c.Climbs seen queue all) :
    c'.Climbs seen queue all := by
  induction hclimbs with
  | done => exact .done
  | @on t seen queue all _ ih =>
    obtain ⟨ht, hrest⟩ := List.forall_mem_cons.mp hqueue
    have hsame : c'.unseenAbove seen t = c.unseenAbove seen t := by
      unfold unseenAbove
      rw [h.parents ht]
    refine .on ?_
    rw [hsame]
    refine ih (List.forall_mem_append.mpr ⟨hrest, fun s hs => ?_⟩)
    exact hc.parents_lt (List.mem_filter.mp (List.mem_eraseDups.mp hs)).1

theorem Repeated.hierarchy (hc : c.Closed) (ht : t < c.types.size) :
    c'.hierarchy t = c.hierarchy t := by
  have hsteps : ∀ n s, c'.Steps t n s → s < c.types.size := by
    intro n s hsteps
    induction hsteps with
    | here => exact ht
    | up _ hparent ih => exact hc.parents_lt (h.parents ih ▸ hparent)
  have hgrounded : c'.Grounded t := fun n s hup => Nat.lt_of_lt_of_le (hsteps _ s hup) h.size
  have hqueue : ∀ s ∈ [t], s < c.types.size := fun s hs => List.mem_singleton.mp hs ▸ ht
  exact (climbs_hierarchy hgrounded).unique
    (h.climbs hc hqueue (climbs_hierarchy (hc.grounded t)))

theorem Repeated.method? (hc : c.Closed) (ht : t < c.types.size) (name : Text) :
    c'.method? (some t) name = c.method? (some t) name := by
  show (c'.hierarchy t).findSome? _ = (c.hierarchy t).findSome? _
  rw [h.hierarchy hc ht, ← List.head?_filterMap, ← List.head?_filterMap]
  refine congrArg List.head? (List.filterMap_congr fun s hs => ?_)
  unfold declaredMethod?
  rw [h.decl s (hc.hierarchy_lt ht hs)]

theorem Repeated.key {t? : Option TypeId} (ht : ∀ t ∈ t?, t < c.types.size) :
    c'.key t? = c.key t? := by
  cases t? with
  | none => rfl
  | some t =>
    show (c'.decl t).key = (c.decl t).key
    rw [h.decl t (ht t rfl)]

/-- Two descriptors of a type are worked out alike. -/
theorem Repeated.describe (hc : c.Closed) (ht : t < c.types.size) :
    c'.describe t = c.describe t := by
  -- while traits are added, the descriptors remain those of the type
  let Same (d' d : Descriptor) : Prop := d' = d ∧ d.type = some t
  have hslot : ∀ tag d' d, Same d' d →
      Same (Descriptor.addSlot c' d' tag) (Descriptor.addSlot c d tag) := by
    rintro tag _ d ⟨rfl, hd⟩
    unfold Descriptor.addSlot
    rw [hd, h.method? hc ht]
    split
    · exact ⟨rfl, hd⟩
    · split
      · exact ⟨rfl, rfl⟩
      · exact ⟨rfl, hd⟩
  have hfactory : ∀ name d' d, Same d' d →
      Same (Descriptor.addFactory c' d' name) (Descriptor.addFactory c d name) := by
    rintro name _ d ⟨rfl, hd⟩
    unfold Descriptor.addFactory
    rw [hd, h.method? hc ht]
    split
    · rename_i m hmethod
      obtain ⟨n, s, -, hm, -⟩ := method?_some hmethod
      rw [h.key ((hc.types s).methods m hm).returns]
      split
      · exact ⟨rfl, hd⟩
      · exact ⟨rfl, rfl⟩
    · exact ⟨rfl, hd⟩
  have htraits : ∀ s ∈ c.hierarchy t, ∀ d' d, Same d' d →
      Same (Descriptor.addTraits c' d' s) (Descriptor.addTraits c d s) := by
    rintro s hs _ d ⟨rfl, hd⟩
    unfold Descriptor.addTraits
    rw [h.decl s (hc.hierarchy_lt ht hs)]
    exact List.foldl_rel (List.foldl_rel ⟨rfl, hd⟩ fun tag _ => hslot tag) fun name _ =>
      hfactory name
  have hown : Same (Descriptor.addOwn c' { type := t } t) (Descriptor.addOwn c { type := t } t) := by
    unfold Descriptor.addOwn
    rw [h.decl t ht]
    refine ⟨rfl, ?_⟩
    dsimp only
    split
    · rfl
    · split <;> rfl
  show (c'.hierarchy t).foldl _ _ = (c.hierarchy t).foldl _ _
  rw [h.hierarchy hc ht]
  exact (List.foldl_rel hown htraits).1

end Agreement

end Catalog

end ViewBinder
