-- Loading a manifest, put in one step. The types of a manifest are added in their order, and what
-- each is linked to follows from its specification and from what everybody knows then. So a manifest
-- is loaded exactly if its types are of known kinds and under keys of their own, and if every key
-- that it refers to is known. Types that were there before are left alone.
import ViewBinder.Proofs.Catalog.Hierarchy

namespace ViewBinder

open Work (Leads)

/-! ## What keys lead to -/

/-- Types by their keys. -/
abbrev Entries := List (Text × TypeId)

/-- What a key leads to; the empty key leads to no type. -/
def Entries.find? (entries : Entries) (key : Text) : Option (Option TypeId) :=
  if key.isEmpty then some none else (entries.lookup key).map some

/-- The parameter of a specification. -/
def ParamSpec.linked? (entries : Entries) (p : ParamSpec) : Option Param :=
  (entries.find? p.type).map fun type => ⟨p.name, type⟩

/-- The method of a specification. -/
def MethodSpec.linked? (entries : Entries) (owner : TypeId) (m : MethodSpec) : Option Method := do
  let params ← m.params.mapM (ParamSpec.linked? entries)
  let returns ← entries.find? m.returns
  return ⟨m.name, params, returns, some owner⟩

/-- The field of a specification. -/
def UiFieldSpec.linked? (entries : Entries) (f : UiFieldSpec) : Option UiField :=
  (entries.find? f.type).map fun type => ⟨f.name, type, f.provided⟩

/-- What a type is linked to. -/
structure TypeLinks where
  super : Option TypeId
  interfaces : List (Option TypeId)
  methods : List Method
  constructors : List Method
  traits : Traits

/-- The links of a specification. -/
def TypeSpec.links? (entries : Entries) (t : TypeId) (spec : TypeSpec) : Option TypeLinks := do
  let super ← entries.find? spec.super
  let interfaces ← spec.interfaces.mapM entries.find?
  let methods ← spec.methods.mapM (MethodSpec.linked? entries t)
  let constructors ← spec.constructors.mapM (MethodSpec.linked? entries t)
  let uiFields ← spec.traits.uiFields.mapM (UiFieldSpec.linked? entries)
  let traits : Traits :=
    { renderable := spec.traits.renderable, childTags := spec.traits.childTags,
      constructor := spec.traits.constructor, constructorParams := spec.traits.constructorParams,
      uiFields, factories := spec.traits.factories, handlers := spec.traits.handlers }
  return { super, interfaces, methods, traits,
           constructors := constructors.map fun m => { m with returns := some t } }

/-- Puts the links into a declaration. -/
def TypeLinks.put (l : TypeLinks) (d : TypeDecl) : TypeDecl :=
  { d with
    super := l.super
    interfaces := d.interfaces ++ l.interfaces
    methods := d.methods ++ l.methods
    constructors := d.constructors ++ l.constructors
    traits := l.traits }

/-- The declaration of a specification before it is linked. -/
def TypeSpec.unlinked (package packageName : Text) (spec : TypeSpec) : TypeDecl :=
  { package, packageName, name := spec.name, kind := (manifestKind? spec.kind).getD .object,
    constants := spec.constants }

/-- How programs qualify the package of a manifest. -/
def Manifest.qualifier (m : Manifest) : Text :=
  if m.name.isEmpty then Path.base m.package else m.name

/-- The declarations of a manifest before they are linked. -/
def Manifest.unlinked (m : Manifest) : List TypeDecl :=
  m.types.map (·.unlinked m.package m.qualifier)

/-- The keys of the types. -/
def Manifest.keys (m : Manifest) : List Text := m.types.map fun spec => keyOf m.package spec.name

theorem Manifest.keys_eq (m : Manifest) : m.keys = m.unlinked.map (·.key) := by
  unfold keys unlinked
  rw [List.map_map]
  rfl

/-! ## References of specifications -/

/-- The keys of the types that a method refers to. -/
def MethodSpec.references (m : MethodSpec) : List Text := m.params.map (·.type) ++ [m.returns]

/-- The keys of the types that a type refers to. -/
def TypeSpec.references (spec : TypeSpec) : List Text :=
  spec.super :: spec.interfaces ++ spec.methods.flatMap (·.references) ++
    spec.constructors.flatMap (·.references) ++ spec.traits.uiFields.map (·.type)

section References

variable {α β : Type}

theorem isSome_mapM_iff {f : α → Option β} {xs : List α} :
    (xs.mapM f).isSome ↔ ∀ x ∈ xs, (f x).isSome := by
  induction xs with
  | nil => simp
  | cons x xs ih =>
    rw [List.mapM_cons, List.forall_mem_cons, ← ih]
    cases f x with
    | none => simp
    | some b => cases xs.mapM f <;> simp

theorem isSome_bind_iff {x : Option α} {k : α → Option β} {p : Prop}
    (hk : ∀ a, (k a).isSome ↔ p) : (x >>= k).isSome ↔ x.isSome ∧ p := by
  cases x with
  | none => simp
  | some a => simpa using hk a

theorem MethodSpec.isSome_linked?_iff {entries : Entries} {owner : TypeId} {m : MethodSpec} :
    (m.linked? entries owner).isSome ↔ ∀ key ∈ m.references, (entries.find? key).isSome := by
  unfold linked? references ParamSpec.linked?
  rw [isSome_bind_iff fun params => isSome_bind_iff fun returns => iff_of_true rfl trivial,
    isSome_mapM_iff]
  simp [or_imp, forall_and]

/-- A type can be linked where everything it refers to is known. -/
theorem TypeSpec.isSome_links?_iff {entries : Entries} {t : TypeId} {spec : TypeSpec} :
    (spec.links? entries t).isSome ↔ ∀ key ∈ spec.references, (entries.find? key).isSome := by
  unfold links? references UiFieldSpec.linked?
  rw [isSome_bind_iff fun super => isSome_bind_iff fun interfaces => isSome_bind_iff fun methods =>
    isSome_bind_iff fun constructors => isSome_bind_iff fun uiFields => iff_of_true rfl trivial]
  simp only [isSome_mapM_iff, MethodSpec.isSome_linked?_iff, Option.isSome_map, and_true,
    List.forall_mem_append, List.forall_mem_cons, List.forall_mem_map, List.forall_mem_flatMap,
    and_assoc]

end References

namespace Catalog

variable {c c' : Catalog} {t : TypeId} {α β : Type}

/-! ## Work that only looks up -/

/-- The work succeeds exactly with the answer that follows from what everybody knows, and changes
nothing. -/
structure Finds (w : Work Catalog α) (answer? : Entries → Option α) : Prop where
  ok : ∀ {c a c'}, w.runOn c = (.ok a, c') ↔ answer? c.shared = some a ∧ c' = c

theorem finds_pure (a : α) : Finds (pure a) fun _ => some a where
  ok {c b c'} := by
    rw [Work.runOn_pure, Prod.mk.injEq, Except.ok.injEq, Option.some.injEq, eq_comm (a := c)]

theorem Finds.bind {w : Work Catalog α} {k : α → Work Catalog β} {first? : Entries → Option α}
    {next? : Entries → α → Option β} (hw : Finds w first?) (hk : ∀ a, Finds (k a) (next? · a)) :
    Finds (w >>= k) fun entries => (first? entries).bind (next? entries) where
  ok {c b c'} := by
    rw [Option.bind_eq_some_iff]
    constructor
    · intro hrun
      obtain ⟨a, c₁, hfirst, hnext⟩ := Work.bind_ok hrun
      obtain ⟨ha, rfl⟩ := hw.ok.mp hfirst
      obtain ⟨hb, rfl⟩ := (hk a).ok.mp hnext
      exact ⟨⟨a, ha, hb⟩, rfl⟩
    · rintro ⟨⟨a, ha, hb⟩, rfl⟩
      rw [Work.runOn_bind, hw.ok.mpr ⟨ha, rfl⟩]
      exact (hk a).ok.mpr ⟨hb, rfl⟩

/-- What is read of the catalog for messages only does not count. -/
theorem finds_get {k : Catalog → Work Catalog α} {answer? : Entries → Option α}
    (hk : ∀ c, Finds (k c) answer?) : Finds (get >>= k) answer? where
  ok {c a c'} := by
    rw [Work.runOn_bind, Work.runOn_get]
    exact (hk c).ok

theorem Finds.mapM {f : α → Work Catalog β} {answer? : Entries → α → Option β}
    (hf : ∀ a, Finds (f a) (answer? · a)) (xs : List α) :
    Finds (xs.mapM f) fun entries => xs.mapM (answer? entries) := by
  induction xs with
  | nil => exact finds_pure []
  | cons x xs ih =>
    simp only [List.mapM_cons]
    exact (hf x).bind fun b => ih.bind fun bs => finds_pure (b :: bs)

theorem finds_resolveIn (wrap : CatalogError → CatalogError) (key : Text) :
    Finds (resolveIn wrap key) (·.find? key) where
  ok {c found c'} := by
    unfold resolveIn Entries.find?
    split
    · exact (finds_pure none).ok
    · rw [Work.runOn_bind, Work.runOn_get]
      have hbase : c.base.lookup? key = c.shared.lookup key := rfl
      dsimp only
      rw [Catalog.resolve, hbase]
      cases c.shared.lookup key with
      | some t => exact (finds_pure (some t)).ok
      | none =>
        rw [Work.runOn_throw]
        simp

theorem finds_linkMethod (owner : TypeId) (m : MethodSpec) :
    Finds (linkMethod owner m) (m.linked? · owner) := by
  unfold linkMethod
  refine finds_get fun c => ?_
  refine Finds.bind (Finds.mapM (fun p => ?_) m.params) fun params => ?_
  · unfold ParamSpec.linked?
    simp only [Option.map_eq_bind]
    exact (finds_resolveIn _ _).bind fun _ => finds_pure _
  · exact (finds_resolveIn _ _).bind fun _ => finds_pure _

/-! ## Work that links a type -/

theorem change_change (c : Catalog) (t : TypeId) (f g : TypeDecl → TypeDecl) :
    (c.change t f).change t g = c.change t (g ∘ f) := by
  unfold change
  congr 1
  refine Array.ext_getElem? fun i => ?_
  simp only [Array.getElem?_modify]
  split <;> simp

/-- The work succeeds exactly where the change follows from what everybody knows, and makes it. -/
structure Puts (t : TypeId) (w : Work Catalog PUnit)
    (change? : Entries → Option (TypeDecl → TypeDecl)) : Prop where
  ok : ∀ {c u c'}, w.runOn c = (.ok u, c') ↔ ∃ f, change? c.shared = some f ∧ c' = c.change t f

theorem Puts.congr {w : Work Catalog PUnit} {change? change'? : Entries → Option (TypeDecl → TypeDecl)}
    (hw : Puts t w change?) (h : ∀ entries, change? entries = change'? entries) :
    Puts t w change'? := (funext h : change? = change'?) ▸ hw

theorem puts_nothing (t : TypeId) : Puts t (pure ⟨⟩) fun _ => some id where
  ok {c u c'} := by
    have hsame : c.change t id = c := by
      unfold change
      congr 1
      refine Array.ext_getElem? fun i => ?_
      rw [Array.getElem?_modify]
      split <;> simp
    rw [Work.runOn_pure]
    simp [hsame, eq_comm]

/-- A change that is always made, before others. -/
theorem Puts.first {f : TypeDecl → TypeDecl} {w : Work Catalog PUnit}
    {rest? : Entries → Option (TypeDecl → TypeDecl)} (hw : Puts t w rest?) :
    Puts t (modify (·.change t f) >>= fun _ => w) fun entries => (rest? entries).map (· ∘ f) where
  ok {c u c'} := by
    rw [Work.runOn_bind, Work.runOn_modify]
    dsimp only
    rw [hw.ok]
    simp only [Option.map_eq_some_iff, change_change]
    constructor
    · rintro ⟨g, hg, rfl⟩
      exact ⟨_, ⟨g, hg, rfl⟩, rfl⟩
    · rintro ⟨_, ⟨g, hg, rfl⟩, rfl⟩
      exact ⟨g, hg, rfl⟩

theorem Puts.after {w : Work Catalog α} {answer? : Entries → Option α}
    {k : α → Work Catalog PUnit} {rest? : Entries → α → Option (TypeDecl → TypeDecl)}
    (hw : Finds w answer?) (hk : ∀ a, Puts t (k a) (rest? · a)) :
    Puts t (w >>= k) fun entries => (answer? entries).bind (rest? entries) where
  ok {c u c'} := by
    simp only [Option.bind_eq_some_iff]
    constructor
    · intro hrun
      obtain ⟨a, c₁, hfirst, hnext⟩ := Work.bind_ok hrun
      obtain ⟨ha, rfl⟩ := hw.ok.mp hfirst
      obtain ⟨f, hf, rfl⟩ := (hk a).ok.mp hnext
      exact ⟨f, ⟨a, ha, hf⟩, rfl⟩
    · rintro ⟨f, ⟨a, ha, hf⟩, rfl⟩
      rw [Work.runOn_bind, hw.ok.mpr ⟨ha, rfl⟩]
      exact (hk a).ok.mpr ⟨f, hf, rfl⟩

/-- A loop that puts in one value after the other puts in all of them. -/
theorem Puts.loop {γ : Type} {g : α → Work Catalog β} {answer? : Entries → α → Option β}
    {w : Work Catalog PUnit} {rest? : Entries → Option (TypeDecl → TypeDecl)} (xs : List α)
    (value : α → β → γ) (put : α → β → TypeDecl → TypeDecl) (all : List γ → TypeDecl → TypeDecl)
    (hg : ∀ a, Finds (g a) (answer? · a)) (hnil : ∀ d, all [] d = d)
    (hcons : ∀ a b cs d, all cs (put a b d) = all (value a b :: cs) d) (hw : Puts t w rest?) :
    Puts t (forIn xs PUnit.unit (fun a _ => do
        let b ← g a
        modify (·.change t (put a b))
        pure (ForInStep.yield PUnit.unit)) >>= fun _ => w)
      fun entries => (xs.mapM fun a => (answer? entries a).map (value a)).bind fun cs =>
        (rest? entries).map (· ∘ all cs) := by
  induction xs with
  | nil =>
    have hall : all [] = id := funext hnil
    simpa [hall] using hw
  | cons x xs ih =>
    rw [List.forIn_cons]
    simp only [bind_assoc, pure_bind]
    have hstep := Puts.after (hg x) fun b => (ih.first (f := put x b))
    refine hstep.congr fun entries => ?_
    have hall : ∀ b cs, all (value x b :: cs) = all cs ∘ put x b :=
      fun b cs => funext fun d => (hcons x b cs d).symm
    simp only [List.mapM_cons]
    cases answer? entries x with
    | none => rfl
    | some b =>
      cases xs.mapM fun a => (answer? entries a).map (value a) with
      | none => rfl
      | some cs =>
        cases rest? entries with
        | none => rfl
        | some f =>
          show some ((f ∘ all cs) ∘ put x b) = some (f ∘ all (value x b :: cs))
          rw [hall, Function.comp_assoc]

/-- A type is linked as its specification says. -/
theorem puts_linkType (t : TypeId) (spec : TypeSpec) :
    Puts t (linkType t spec) fun entries => (spec.links? entries t).map TypeLinks.put := by
  have huiFields : Puts t _ _ := Puts.loop spec.traits.uiFields
    (fun f type => UiField.mk f.name type f.provided)
    (fun f type d =>
      { d with traits.uiFields := d.traits.uiFields ++ [⟨f.name, type, f.provided⟩] })
    (fun fs d => { d with traits.uiFields := d.traits.uiFields ++ fs })
    (fun f => finds_resolveIn (.inUiField spec.name f.name) f.type) (by simp) (by simp)
    (puts_nothing t)
  have htraits := huiFields.first (f := fun d => { d with
    traits := { renderable := spec.traits.renderable, childTags := spec.traits.childTags,
                constructor := spec.traits.constructor,
                constructorParams := spec.traits.constructorParams,
                factories := spec.traits.factories, handlers := spec.traits.handlers } })
  have hconstructors := Puts.loop spec.constructors (fun _ m => m)
    (fun _ m d => { d with constructors := d.constructors ++ [{ m with returns := some t }] })
    (fun ms d =>
      { d with constructors := d.constructors ++ ms.map fun m => { m with returns := some t } })
    (finds_linkMethod t) (by simp) (by simp) htraits
  have hmethods := Puts.loop spec.methods (fun _ m => m)
    (fun _ m d => { d with methods := d.methods ++ [m] })
    (fun ms d => { d with methods := d.methods ++ ms })
    (finds_linkMethod t) (by simp) (by simp) hconstructors
  have hinterfaces := Puts.loop spec.interfaces (fun _ i => i)
    (fun _ i d => { d with interfaces := d.interfaces ++ [i] })
    (fun is d => { d with interfaces := d.interfaces ++ is })
    (finds_resolveIn (.inType spec.name)) (by simp) (by simp) hmethods
  have hsuper := Puts.after (finds_resolveIn (.inType spec.name) spec.super) fun super =>
    hinterfaces.first (f := fun d => { d with super })
  unfold linkType
  refine hsuper.congr fun entries => ?_
  unfold TypeSpec.links? UiFieldSpec.linked?
  simp only [Option.map_id']
  cases entries.find? spec.super with
  | none => rfl
  | some super =>
    cases spec.interfaces.mapM entries.find? with
    | none => rfl
    | some interfaces =>
      cases spec.methods.mapM (MethodSpec.linked? entries t) with
      | none => rfl
      | some methods =>
        cases spec.constructors.mapM (MethodSpec.linked? entries t) with
        | none => rfl
        | some constructors =>
          cases spec.traits.uiFields.mapM fun f =>
              (entries.find? f.type).map fun type => UiField.mk f.name type f.provided with
          | none => rfl
          | some uiFields => rfl

/-! ## Adding types -/

/-- The catalog with more types that everybody knows by their keys. -/
def extended (c : Catalog) (ds : List TypeDecl) : Catalog :=
  { c with
    types := c.types ++ ds.toArray
    shared := c.shared ++ (ds.map (·.key)).zip (List.range' c.types.size ds.length) }

theorem size_extended (c : Catalog) (ds : List TypeDecl) :
    (c.extended ds).types.size = c.types.size + ds.length := by
  simp [extended]

theorem decl_extended_old (ds : List TypeDecl) (ht : t < c.types.size) :
    (c.extended ds).decl t = c.decl t := by
  unfold decl extended
  rw [Array.getElem?_append_left ht]

theorem decl_extended_new (c : Catalog) (ds : List TypeDecl) (i : Nat) (hi : i < ds.length) :
    (c.extended ds).decl (c.types.size + i) = ds[i] := by
  unfold decl extended
  rw [Array.getElem?_append_right (Nat.le_add_right _ _)]
  simp [hi]

theorem extended_nil (c : Catalog) : c.extended [] = c := by
  simp [extended]

theorem extended_cons (c : Catalog) (d : TypeDecl) (ds : List TypeDecl) :
    (c.extended [d]).extended ds = c.extended (d :: ds) := by
  simp [extended, List.range'_succ]

/-- A type that is registered is one more that everybody knows. -/
theorem extended_one (c : Catalog) (d : TypeDecl) : c.extended [d] =
    { (c.push d).2 with shared := c.shared ++ [(d.key, c.types.size)] } := by
  simp [push, extended]

theorem lookup_zip_range' (n : Nat) (keys : List Text) (key : Text) :
    (keys.zip (List.range' n keys.length)).lookup key =
      if key ∈ keys then some (n + keys.idxOf key) else none := by
  induction keys generalizing n with
  | nil => rfl
  | cons k keys ih =>
    rw [List.length_cons, List.range'_succ, List.zip_cons_cons, List.lookup_cons]
    by_cases hkey : key = k
    · simp [hkey]
    · rw [beq_eq_false_iff_ne.mpr hkey, ih, List.idxOf_cons_ne _ (Ne.symm hkey)]
      simp only [List.mem_cons, hkey, false_or]
      split
      · exact congrArg some (Nat.succ_add n _)
      · rfl

/-- What is known by a key is what was known by it before, or else the first new type of that key. -/
theorem lookup_extended (c : Catalog) (ds : List TypeDecl) (key : Text) :
    (c.extended ds).shared.lookup key = (c.shared.lookup key).or
      (if key ∈ ds.map (·.key) then some (c.types.size + (ds.map (·.key)).idxOf key) else none) := by
  show (c.shared ++ (ds.map (·.key)).zip (List.range' c.types.size ds.length)).lookup key = _
  rw [List.lookup_append, ← lookup_zip_range', List.length_map]

/-- A type is added for everybody where nobody has its key. -/
theorem register_ok_iff {d : TypeDecl} : (register d).runOn c = (.ok t, c') ↔
    c.shared.lookup d.key = none ∧ t = c.types.size ∧ c' = c.extended [d] := by
  by_cases hfree : c.shared.lookup d.key = none
  · rw [register_free hfree, ← extended_one, Prod.mk.injEq, Except.ok.injEq, eq_comm (a := t),
      eq_comm (a := c')]
    exact (and_iff_right hfree).symm
  · rw [register_taken hfree, Prod.mk.injEq]
    exact iff_of_false (fun h => nomatch h.1) fun h => hfree h.1

theorem addType_ok_iff {package packageName : Text} {spec : TypeSpec} :
    (addType package packageName spec).runOn c = (.ok t, c') ↔
      (manifestKind? spec.kind).isSome ∧ c.shared.lookup (keyOf package spec.name) = none ∧
        t = c.types.size ∧ c' = c.extended [spec.unlinked package packageName] := by
  unfold addType TypeSpec.unlinked
  cases manifestKind? spec.kind with
  | none => simp
  | some kind => exact register_ok_iff.trans (and_iff_right rfl).symm

/-- The types of a manifest are added where their kinds are known and their keys are new. -/
theorem addTypes_ok_iff {package packageName : Text} {specs : List TypeSpec} {ids : List TypeId} :
    (specs.mapM (addType package packageName)).runOn c = (.ok ids, c') ↔
      (∀ spec ∈ specs, (manifestKind? spec.kind).isSome) ∧
        (∀ key ∈ specs.map fun spec => keyOf package spec.name, c.shared.lookup key = none) ∧
        (specs.map fun spec => keyOf package spec.name).Nodup ∧
        ids = List.range' c.types.size specs.length ∧
        c' = c.extended (specs.map (·.unlinked package packageName)) := by
  induction specs generalizing c ids with
  | nil =>
    rw [List.mapM_nil, Work.runOn_pure, Prod.mk.injEq, Except.ok.injEq, eq_comm (a := ids),
      eq_comm (a := c')]
    simp [extended_nil]
  | cons spec specs ih =>
    have hfree : ∀ key, (c.extended [spec.unlinked package packageName]).shared.lookup key = none ↔
        c.shared.lookup key = none ∧ key ≠ keyOf package spec.name := by
      intro key
      rw [lookup_extended, Option.or_eq_none_iff]
      refine and_congr_right fun _ => ?_
      show (if key ∈ [keyOf package spec.name] then _ else none) = none ↔ _
      split
      · rename_i hkey
        exact iff_of_false (by simp) (not_not.mpr (List.mem_singleton.mp hkey))
      · rename_i hkey
        exact iff_of_true rfl (mt List.mem_singleton.mpr hkey)
    have hids : List.range' c.types.size (spec :: specs).length = c.types.size ::
        List.range' (c.extended [spec.unlinked package packageName]).types.size specs.length := by
      rw [size_extended, List.length_cons, List.range'_succ]
      rfl
    rw [List.mapM_cons, List.map_cons, List.map_cons, List.forall_mem_cons, List.forall_mem_cons,
      List.nodup_cons, hids]
    constructor
    · intro hrun
      obtain ⟨t, c₁, hfirst, hrun⟩ := Work.bind_ok hrun
      obtain ⟨ts, c₂, hothers, hrun⟩ := Work.bind_ok hrun
      cases hrun
      obtain ⟨hkind, hnew, rfl, rfl⟩ := addType_ok_iff.mp hfirst
      obtain ⟨hkinds, hnews, hdistinct, rfl, rfl⟩ := ih.mp hothers
      refine ⟨⟨hkind, hkinds⟩, ⟨hnew, fun key hkey => ((hfree key).mp (hnews key hkey)).1⟩,
        ⟨fun hmem => ?_, hdistinct⟩, rfl, extended_cons c _ _⟩
      exact ((hfree _).mp (hnews _ hmem)).2 rfl
    · rintro ⟨⟨hkind, hkinds⟩, ⟨hnew, hnews⟩, ⟨hother, hdistinct⟩, rfl, rfl⟩
      rw [Work.runOn_bind, addType_ok_iff.mpr ⟨hkind, hnew, rfl, rfl⟩]
      dsimp only
      have hrest : ∀ key ∈ specs.map fun spec => keyOf package spec.name,
          (c.extended [spec.unlinked package packageName]).shared.lookup key = none :=
        fun key hkey => (hfree key).mpr ⟨hnews key hkey, fun heq => hother (heq ▸ hkey)⟩
      rw [Work.runOn_bind, ih.mpr ⟨hkinds, hrest, hdistinct, rfl, (extended_cons c _ _).symm⟩]
      rfl

/-! ## Linking all types -/

theorem decl_change_self (ht : t < c.types.size) (f : TypeDecl → TypeDecl) :
    (c.change t f).decl t = f (c.decl t) := by
  unfold decl change
  rw [Array.getElem?_modify, if_pos rfl, Array.getElem?_eq_getElem ht]
  rfl

theorem decl_change_ne {s : TypeId} (hs : s ≠ t) (f : TypeDecl → TypeDecl) :
    (c.change t f).decl s = c.decl s := by
  rcases decl_change c t s f with hsame | ⟨-, heq, -⟩
  · exact hsame
  · exact absurd heq hs

/-- Links types one after the other. -/
def linkTypes (pairs : List (TypeId × TypeSpec)) : Work Catalog PUnit :=
  forIn pairs PUnit.unit fun p _ => do
    linkType p.1 p.2
    pure (ForInStep.yield PUnit.unit)

theorem linkTypes_cons (p : TypeId × TypeSpec) (pairs : List (TypeId × TypeSpec)) :
    linkTypes (p :: pairs) = linkType p.1 p.2 >>= fun _ => linkTypes pairs := by
  unfold linkTypes
  rw [List.forIn_cons, bind_assoc]
  simp only [pure_bind]

/-- Linking types links each as its specification says. -/
theorem linkTypes_ok {pairs : List (TypeId × TypeSpec)} (hdistinct : (pairs.map (·.1)).Nodup)
    {u : PUnit} (hrun : (linkTypes pairs).runOn c = (.ok u, c')) :
    c' = { c with types := c'.types } ∧ c'.types.size = c.types.size ∧
      (∀ s ∉ pairs.map (·.1), c'.decl s = c.decl s) ∧
      ∀ p ∈ pairs, ∃ l, p.2.links? c.shared p.1 = some l ∧
        (p.1 < c.types.size → c'.decl p.1 = l.put (c.decl p.1)) := by
  induction pairs generalizing c with
  | nil =>
    cases hrun
    exact ⟨rfl, rfl, fun _ _ => rfl, List.forall_mem_nil _⟩
  | cons p pairs ih =>
    obtain ⟨hnew, hdistinct⟩ := List.nodup_cons.mp hdistinct
    rw [linkTypes_cons] at hrun
    obtain ⟨_, c₁, hfirst, hrun⟩ := Work.bind_ok hrun
    obtain ⟨f, hf, rfl⟩ := (puts_linkType p.1 p.2).ok.mp hfirst
    obtain ⟨l, hlinks, rfl⟩ := Option.map_eq_some_iff.mp hf
    obtain ⟨hrest, hsize, hothers, hlinked⟩ := ih hdistinct hrun
    rw [size_change] at hsize
    refine ⟨hrest, hsize, fun s hs => ?_, List.forall_mem_cons.mpr ⟨⟨l, hlinks, ?_⟩, ?_⟩⟩
    · rw [List.map_cons, List.mem_cons, not_or] at hs
      rw [hothers s hs.2, decl_change_ne hs.1]
    · intro hinside
      rw [hothers p.1 hnew, decl_change_self hinside]
    · intro q hq
      obtain ⟨k, hlinks, hput⟩ := hlinked q hq
      have hne : q.1 ≠ p.1 := fun heq => hnew (List.mem_map.mpr ⟨q, hq, heq⟩)
      refine ⟨k, hlinks, fun hinside => ?_⟩
      rw [hput ((size_change c p.1 l.put).symm ▸ hinside), decl_change_ne hne]

/-- Types that can be linked are. -/
theorem linkTypes_runs {pairs : List (TypeId × TypeSpec)}
    (h : ∀ p ∈ pairs, (p.2.links? c.shared p.1).isSome) :
    ∃ c', (linkTypes pairs).runOn c = (.ok ⟨⟩, c') := by
  induction pairs generalizing c with
  | nil => exact ⟨c, rfl⟩
  | cons p pairs ih =>
    obtain ⟨hfirst, hothers⟩ := List.forall_mem_cons.mp h
    obtain ⟨l, hlinks⟩ := Option.isSome_iff_exists.mp hfirst
    have hrun : (linkType p.1 p.2).runOn c = (.ok ⟨⟩, c.change p.1 l.put) :=
      (puts_linkType p.1 p.2).ok.mpr ⟨l.put, by rw [hlinks]; rfl, rfl⟩
    obtain ⟨c', hrest⟩ := ih (c := c.change p.1 l.put) hothers
    refine ⟨c', ?_⟩
    rw [linkTypes_cons, Work.runOn_bind, hrun]
    exact hrest

/-! ## Tags -/

/-- Gives tags their types one after the other. -/
def tagTypes (domTags : List (Text × Text)) : Work Catalog PUnit :=
  forIn domTags PUnit.unit fun e _ => do
    let t ← resolveIn (.inTag e.1) e.2
    modify (·.setDomTag e.1 t)
    pure (ForInStep.yield PUnit.unit)

theorem tagTypes_cons (e : Text × Text) (domTags : List (Text × Text)) :
    tagTypes (e :: domTags) = resolveIn (.inTag e.1) e.2 >>= fun t =>
      modify (·.setDomTag e.1 t) >>= fun _ => tagTypes domTags := by
  unfold tagTypes
  rw [List.forIn_cons, bind_assoc]
  simp only [bind_assoc, pure_bind]

theorem types_setDomTag (c : Catalog) (tag : Text) (type : Option TypeId) :
    (c.setDomTag tag type).types = c.types := by
  unfold setDomTag
  split <;> rfl

theorem shared_setDomTag (c : Catalog) (tag : Text) (type : Option TypeId) :
    (c.setDomTag tag type).shared = c.shared := by
  unfold setDomTag
  split <;> rfl

/-- The types of tags. -/
def tags? (entries : Entries) (domTags : List (Text × Text)) :
    Option (List (Text × Option TypeId)) :=
  domTags.mapM fun e => (entries.find? e.2).map (e.1, ·)

/-- The catalog with tags given their types. -/
def tagged (c : Catalog) (tags : List (Text × Option TypeId)) : Catalog :=
  tags.foldl (fun c e => c.setDomTag e.1 e.2) c

theorem types_tagged (c : Catalog) (tags : List (Text × Option TypeId)) :
    (c.tagged tags).types = c.types := by
  induction tags generalizing c with
  | nil => rfl
  | cons e tags ih => exact (ih _).trans (types_setDomTag c e.1 e.2)

theorem shared_tagged (c : Catalog) (tags : List (Text × Option TypeId)) :
    (c.tagged tags).shared = c.shared := by
  induction tags generalizing c with
  | nil => rfl
  | cons e tags ih => exact (ih _).trans (shared_setDomTag c e.1 e.2)

theorem tags?_cons (entries : Entries) (e : Text × Text) (domTags : List (Text × Text)) :
    tags? entries (e :: domTags) = (entries.find? e.2).bind fun type =>
      (tags? entries domTags).map ((e.1, type) :: ·) := by
  unfold tags?
  rw [List.mapM_cons]
  cases entries.find? e.2 with
  | none => rfl
  | some type =>
    cases domTags.mapM fun e => (entries.find? e.2).map (e.1, ·) with
    | none => rfl
    | some tags => rfl

theorem tagTypes_ok_iff {domTags : List (Text × Text)} {u : PUnit} :
    (tagTypes domTags).runOn c = (.ok u, c') ↔
      ∃ tags, tags? c.shared domTags = some tags ∧ c' = c.tagged tags := by
  induction domTags generalizing c with
  | nil =>
    show (Except.ok u, c) = (.ok u, c') ↔ ∃ tags, some [] = some tags ∧ c' = c.tagged tags
    simp [tagged, eq_comm]
  | cons e domTags ih =>
    have hnext : ∀ type, (modify (·.setDomTag e.1 type) >>= fun _ => tagTypes domTags).runOn c =
        (tagTypes domTags).runOn (c.setDomTag e.1 type) := fun type => rfl
    rw [tagTypes_cons, tags?_cons]
    simp only [Option.bind_eq_some_iff, Option.map_eq_some_iff]
    constructor
    · intro hrun
      obtain ⟨type, c₁, hfirst, hrest⟩ := Work.bind_ok hrun
      obtain ⟨htype, rfl⟩ := (finds_resolveIn _ _).ok.mp hfirst
      rw [hnext, ih, shared_setDomTag] at hrest
      obtain ⟨tags, htags, rfl⟩ := hrest
      exact ⟨_, ⟨type, htype, tags, htags, rfl⟩, rfl⟩
    · rintro ⟨_, ⟨type, htype, tags, htags, rfl⟩, rfl⟩
      rw [Work.runOn_bind, (finds_resolveIn _ _).ok.mpr ⟨htype, rfl⟩]
      dsimp only
      rw [hnext, ih, shared_setDomTag]
      exact ⟨tags, htags, rfl⟩

theorem isSome_tags?_iff {entries : Entries} {domTags : List (Text × Text)} :
    (tags? entries domTags).isSome ↔ ∀ e ∈ domTags, (entries.find? e.2).isSome := by
  unfold tags?
  rw [isSome_mapM_iff]
  simp only [Option.isSome_map]

/-! ## Loading in one step -/

/-- What everybody knows when the types of a manifest are added. -/
def known (c : Catalog) (m : Manifest) : Entries := (c.extended m.unlinked).shared

/-- What a manifest needs to be loaded: its types are of known kinds and under keys of their own, and
all that it refers to is known. -/
structure Fits (c : Catalog) (m : Manifest) : Prop where
  package : m.package.isEmpty = false
  kinds : ∀ spec ∈ m.types, (manifestKind? spec.kind).isSome
  free : ∀ key ∈ m.keys, c.shared.lookup key = none
  distinct : m.keys.Nodup
  references : ∀ spec ∈ m.types, ∀ key ∈ spec.references, ((c.known m).find? key).isSome
  tags : ∀ e ∈ m.domTags, ((c.known m).find? e.2).isSome

/-- What a catalog has when a manifest was loaded. -/
structure Gains (c : Catalog) (m : Manifest) (c' : Catalog) : Prop where
  size : c'.types.size = c.types.size + m.types.length
  old : ∀ t < c.types.size, c'.decl t = c.decl t
  new : ∀ (i : Nat) (hi : i < m.types.length), ∃ l,
    m.types[i].links? (c.known m) (c.types.size + i) = some l ∧
      c'.decl (c.types.size + i) = l.put (m.types[i].unlinked m.package m.qualifier)
  rest : ∃ tags, tags? (c.known m) m.domTags = some tags ∧
    c' = { c with types := c'.types, shared := c.known m }.tagged tags

theorem load_eq {m : Manifest} (hm : m.package.isEmpty = false) :
    load m = m.types.mapM (addType m.package m.qualifier) >>= fun ids =>
      linkTypes (ids.zip m.types) >>= fun _ => tagTypes m.domTags := by
  unfold load
  rw [hm, if_neg Bool.false_ne_true]
  exact bind_congr fun ids => bind_congr fun _ => bind_pure_unit

theorem load_noPackage {m : Manifest} (hm : m.package.isEmpty = true) :
    (load m).runOn c = (.error CatalogError.noPackage.failure, c) := by
  unfold load
  rw [hm]
  rfl

section Load

variable {m : Manifest}

theorem size_extended_unlinked (c : Catalog) (m : Manifest) :
    (c.extended m.unlinked).types.size = c.types.size + m.types.length := by
  rw [size_extended, Manifest.unlinked, List.length_map]

theorem decl_extended_unlinked (c : Catalog) (m : Manifest) (i : Nat) (hi : i < m.types.length) :
    (c.extended m.unlinked).decl (c.types.size + i) =
      m.types[i].unlinked m.package m.qualifier := by
  have hlength : i < m.unlinked.length := by
    rw [Manifest.unlinked, List.length_map]
    exact hi
  rw [decl_extended_new c m.unlinked i hlength]
  exact List.getElem_map _

/-- The types of a manifest with the numbers they get. -/
def numbered (c : Catalog) (m : Manifest) : List (TypeId × TypeSpec) :=
  (List.range' c.types.size m.types.length).zip m.types

theorem fst_numbered (c : Catalog) (m : Manifest) :
    (c.numbered m).map (·.1) = List.range' c.types.size m.types.length :=
  List.map_fst_zip (Nat.le_of_eq List.length_range')

theorem mem_numbered (c : Catalog) (m : Manifest) (i : Nat) (hi : i < m.types.length) :
    (c.types.size + i, m.types[i]) ∈ c.numbered m := by
  refine List.mem_iff_getElem.mpr ⟨i, ?_, ?_⟩
  · rw [numbered, List.length_zip, List.length_range', Nat.min_self]
    exact hi
  · simp [numbered]

/-- A manifest is loaded in three steps. -/
theorem load_ok_iff {u : PUnit} : (load m).runOn c = (.ok u, c') ↔
    m.package.isEmpty = false ∧ (∀ spec ∈ m.types, (manifestKind? spec.kind).isSome) ∧
      (∀ key ∈ m.keys, c.shared.lookup key = none) ∧ m.keys.Nodup ∧
      ∃ c₁, (linkTypes (c.numbered m)).runOn (c.extended m.unlinked) = (.ok ⟨⟩, c₁) ∧
        (tagTypes m.domTags).runOn c₁ = (.ok u, c') := by
  constructor
  · intro h
    cases hm : m.package.isEmpty with
    | true =>
      rw [load_noPackage hm] at h
      cases h
    | false =>
      rw [load_eq hm] at h
      obtain ⟨ids, _, hadd, h⟩ := Work.bind_ok h
      obtain ⟨_, c₁, hlink, htag⟩ := Work.bind_ok h
      obtain ⟨hkinds, hfree, hdistinct, rfl, rfl⟩ := addTypes_ok_iff.mp hadd
      exact ⟨rfl, hkinds, hfree, hdistinct, c₁, hlink, htag⟩
  · rintro ⟨hm, hkinds, hfree, hdistinct, c₁, hlink, htag⟩
    have hadd : (m.types.mapM (addType m.package m.qualifier)).runOn c =
        (.ok (List.range' c.types.size m.types.length), c.extended m.unlinked) :=
      addTypes_ok_iff.mpr ⟨hkinds, hfree, hdistinct, rfl, rfl⟩
    unfold numbered at hlink
    rw [load_eq hm, Work.runOn_bind, hadd]
    dsimp only
    rw [Work.runOn_bind, hlink]
    exact htag

/-- A manifest is loaded exactly if it fits. -/
theorem load_succeeds_iff : (∃ c', (load m).runOn c = (.ok ⟨⟩, c')) ↔ c.Fits m := by
  constructor
  · rintro ⟨c', h⟩
    obtain ⟨hm, hkinds, hfree, hdistinct, c₁, hlink, htag⟩ := load_ok_iff.mp h
    obtain ⟨hrest, -, -, hlinked⟩ := linkTypes_ok ((fst_numbered c m).symm ▸ List.nodup_range') hlink
    obtain ⟨tags, htags, rfl⟩ := tagTypes_ok_iff.mp htag
    refine ⟨hm, hkinds, hfree, hdistinct, fun spec hspec => ?_, ?_⟩
    · obtain ⟨i, hi, rfl⟩ := List.mem_iff_getElem.mp hspec
      obtain ⟨l, hl, -⟩ := hlinked _ (mem_numbered c m i hi)
      exact TypeSpec.isSome_links?_iff.mp (Option.isSome_of_eq_some hl)
    · rw [hrest] at htags
      exact isSome_tags?_iff.mp (Option.isSome_of_eq_some htags)
  · intro h
    have hlinks : ∀ p ∈ c.numbered m, (p.2.links? (c.known m) p.1).isSome := fun p hp =>
      TypeSpec.isSome_links?_iff.mpr (h.references p.2 (List.of_mem_zip hp).2)
    obtain ⟨c₁, hlink⟩ := linkTypes_runs (c := c.extended m.unlinked) hlinks
    obtain ⟨hrest, -⟩ := linkTypes_ok ((fst_numbered c m).symm ▸ List.nodup_range') hlink
    have htags : (tags? c₁.shared m.domTags).isSome := by
      rw [hrest]
      exact isSome_tags?_iff.mpr h.tags
    obtain ⟨tags, htags⟩ := Option.isSome_iff_exists.mp htags
    exact ⟨_, load_ok_iff.mpr ⟨h.package, h.kinds, h.free, h.distinct, c₁, hlink,
      tagTypes_ok_iff.mpr ⟨tags, htags, rfl⟩⟩⟩

/-- What a manifest leaves that is loaded. -/
theorem gains_of_load {u : PUnit} (h : (load m).runOn c = (.ok u, c')) : c.Gains m c' := by
  obtain ⟨-, -, -, -, c₁, hlink, htag⟩ := load_ok_iff.mp h
  obtain ⟨hrest, hsize, hothers, hlinked⟩ :=
    linkTypes_ok ((fst_numbered c m).symm ▸ List.nodup_range') hlink
  obtain ⟨tags, htags, rfl⟩ := tagTypes_ok_iff.mp htag
  have hdecl : ∀ t, (c₁.tagged tags).decl t = c₁.decl t := fun t => by
    unfold decl
    rw [types_tagged]
  refine ⟨?_, fun t ht => ?_, fun i hi => ?_, tags, ?_, ?_⟩
  · rw [types_tagged, hsize, size_extended_unlinked]
  · rw [hdecl, hothers t, decl_extended_old _ ht]
    rw [fst_numbered, List.mem_range'_1]
    exact fun hmem => absurd hmem.1 (Nat.not_le.mpr ht)
  · obtain ⟨l, hl, hput⟩ := hlinked _ (mem_numbered c m i hi)
    refine ⟨l, hl, ?_⟩
    rw [hdecl, hput, decl_extended_unlinked c m i hi]
    rw [size_extended_unlinked]
    exact Nat.add_lt_add_left hi _
  · rw [hrest] at htags
    exact htags
  · rw [types_tagged]
    exact congrArg (·.tagged tags) hrest

/-- Linking leads wherever changes of these types and new tags lead. -/
theorem leads_linking {R : Catalog → Catalog → Prop} [Std.Refl R] [IsTrans Catalog R]
    {pairs : List (TypeId × TypeSpec)}
    (hchange : ∀ p ∈ pairs, ∀ f, OnlyLinks f →
      Leads R (modify (·.change p.1 f) : Work Catalog Unit))
    (htag : ∀ tag t, Leads R (modify (·.setDomTag tag t) : Work Catalog Unit))
    (domTags : List (Text × Text)) :
    Leads R (linkTypes pairs >>= fun _ => tagTypes domTags) := by
  unfold linkTypes tagTypes
  refine Leads.bind' (Leads.forInMem fun p hp _ => ?_) fun _ => inferInstance
  exact Leads.bind' (leads_linkType (hchange p hp) p.2) fun _ => inferInstance

/-- However far a manifest is loaded, the catalog is led where new types lead and where linking leads
from all of them. -/
theorem leads_loading {R : Catalog → Catalog → Prop} [Std.Refl R] [IsTrans Catalog R]
    (hadd : ∀ spec, Leads R (addType m.package m.qualifier spec))
    (hlink : R (c.extended m.unlinked) ((linkTypes (c.numbered m) >>= fun _ =>
      tagTypes m.domTags).runOn (c.extended m.unlinked)).2) : R c (c.loading m) := by
  unfold loading
  cases hm : m.package.isEmpty with
  | true =>
    rw [load_noPackage hm]
    exact Std.Refl.refl c
  | false =>
    have hadded := Leads.leads (R := R) (w := m.types.mapM (addType m.package m.qualifier)) c
    rw [load_eq hm, Work.runOn_bind]
    rcases hrun : (m.types.mapM (addType m.package m.qualifier)).runOn c with ⟨_ | ids, c₁⟩
    · rwa [hrun] at hadded
    · obtain ⟨-, -, -, rfl, rfl⟩ := addTypes_ok_iff.mp hrun
      rw [hrun] at hadded
      exact IsTrans.trans _ _ _ hadded hlink

end Load

/-! ## Loading what fits

The types of a manifest that fits need not be linked to know the catalog with it. A type is linked
there when it is looked at, and that the manifest fits is seen from numbers in place of keys.
-/

section Fitting

variable {m : Manifest}

/-- A text as a number that no other text has. -/
def codeOf (t : Text) : Nat := t.foldr (fun b n => n * 256 + b.toNat + 1) 0

theorem codeOf_injective : Function.Injective codeOf := by
  intro t
  induction t with
  | nil =>
    intro t' h
    cases t' with
    | nil => rfl
    | cons b rest => exact absurd h (by simp [codeOf])
  | cons b rest ih =>
    intro t' h
    cases t' with
    | nil => exact absurd h (by simp [codeOf])
    | cons b' rest' =>
      have hb := b.toNat_lt
      have hb' := b'.toNat_lt
      have h' : codeOf rest * 256 + b.toNat + 1 = codeOf rest' * 256 + b'.toNat + 1 := h
      obtain rfl : rest = rest' := ih (by omega)
      obtain rfl : b = b' := UInt8.toNat_inj.mp (by omega)
      rfl

/-- The catalog with a manifest that fits. Its types are linked only when they are looked at. -/
def gaining (c : Catalog) (m : Manifest) : Catalog :=
  { c with
    types := c.types ++ (m.types.mapIdx fun i (spec : TypeSpec) =>
      match spec.links? (c.known m) (c.types.size + i) with
      | some l => l.put (spec.unlinked m.package m.qualifier)
      | none => spec.unlinked m.package m.qualifier).toArray
    shared := c.known m }.tagged ((tags? (c.known m) m.domTags).getD [])

theorem Gains.eq_gaining (h : c.Gains m c') : c' = c.gaining m := by
  obtain ⟨tags, htags, hrest⟩ := h.rest
  have htypes : c'.types = (c.gaining m).types := by
    unfold gaining
    rw [types_tagged]
    refine Array.ext ?_ fun t ht ht' => ?_
    · simp [h.size]
    · have hdecl : c'.types[t] = c'.decl t := by simp [decl, ht]
      rw [hdecl]
      by_cases hold : t < c.types.size
      · rw [h.old t hold, Array.getElem_append_left hold]
        simp [decl, hold]
      · obtain ⟨i, rfl⟩ := Nat.exists_eq_add_of_le (Nat.le_of_not_lt hold)
        have hi : i < m.types.length := by
          have := h.size
          omega
        obtain ⟨l, hl, hput⟩ := h.new i hi
        rw [hput, Array.getElem_append_right (Nat.le_add_right _ _)]
        simp [hl]
  rw [hrest, htypes]
  unfold gaining
  rw [types_tagged, htags, Option.getD_some]

theorem Fits.loading_eq (h : c.Fits m) : c.loading m = c.gaining m := by
  obtain ⟨c', hload⟩ := load_succeeds_iff.mpr h
  have hend : c.loading m = c' := congrArg Prod.snd hload
  rw [hend]
  exact (gains_of_load hload).eq_gaining

/-- The manifest fits: keys are compared by their numbers. -/
def isFit (c : Catalog) (m : Manifest) : Bool :=
  let codes := (c.known m).map fun entry => codeOf entry.1
  let knows (key : Text) := key.isEmpty || codes.contains (codeOf key)
  !m.package.isEmpty && decide codes.Nodup &&
    (m.types.all fun spec => (manifestKind? spec.kind).isSome && spec.references.all knows) &&
    m.domTags.all fun e => knows e.2

theorem lookup_eq_none_iff {entries : Entries} {key : Text} :
    entries.lookup key = none ↔ key ∉ entries.map (·.1) := by
  rw [List.lookup_eq_none_iff, List.mem_map]
  refine ⟨fun h ⟨entry, hentry, hkey⟩ => ?_, fun h entry hentry => ?_⟩
  · exact absurd (h entry hentry) (by rw [hkey, bne_self_eq_false]; exact Bool.false_ne_true)
  · exact bne_iff_ne.mpr fun hkey => h ⟨entry, hentry, hkey.symm⟩

theorem isSome_find?_of_code {entries : Entries} {key : Text}
    (h : (key.isEmpty || (entries.map fun entry => codeOf entry.1).contains (codeOf key)) = true) :
    (entries.find? key).isSome := by
  unfold Entries.find?
  split
  · rfl
  · rename_i hkey
    rw [Option.isSome_map, Option.isSome_iff_ne_none, Ne, lookup_eq_none_iff, not_not]
    rw [Bool.not_eq_true] at hkey
    rw [hkey, Bool.false_or, List.contains_iff_mem] at h
    obtain ⟨entry, hentry, hcode⟩ := List.mem_map.mp h
    exact List.mem_map.mpr ⟨entry, hentry, codeOf_injective hcode⟩

theorem fits_of_isFit (h : c.isFit m = true) : c.Fits m := by
  unfold isFit at h
  simp only [Bool.and_eq_true, Bool.not_eq_true', decide_eq_true_eq, List.all_eq_true] at h
  obtain ⟨⟨⟨hpackage, hcodes⟩, htypes⟩, htags⟩ := h
  have hkeys : ((c.known m).map (·.1)).Nodup := by
    have hmap : (c.known m).map (fun entry => codeOf entry.1) =
        ((c.known m).map (·.1)).map codeOf := (List.map_map ..).symm
    exact (hmap ▸ hcodes).of_map
  have hknown : (c.known m).map (·.1) = c.shared.map (·.1) ++ m.keys := by
    unfold known extended
    rw [List.map_append, m.keys_eq, List.map_fst_zip (by simp)]
  rw [hknown] at hkeys
  refine ⟨hpackage, fun spec hspec => (htypes spec hspec).1, fun key hkey => ?_,
    (List.nodup_append.mp hkeys).2.1, fun spec hspec key hkey => ?_, fun e he => ?_⟩
  · exact lookup_eq_none_iff.mpr fun hshared =>
      (List.nodup_append.mp hkeys).2.2 key hshared key hkey rfl
  · exact isSome_find?_of_code ((htypes spec hspec).2 key hkey)
  · exact isSome_find?_of_code (htags e he)

/-- The manifests fit one after the other. -/
def areFit (c : Catalog) : List Manifest → Bool
  | [] => true
  | m :: ms => c.isFit m && (c.gaining m).areFit ms

theorem loadings_eq_gaining {ms : List Manifest} (h : c.areFit ms = true) :
    ms.foldl loading c = ms.foldl gaining c := by
  induction ms generalizing c with
  | nil => rfl
  | cons m ms ih =>
    unfold areFit at h
    rw [Bool.and_eq_true] at h
    rw [List.foldl_cons, List.foldl_cons, (fits_of_isFit h.1).loading_eq, ih h.2]

end Fitting

/-! ## Types that were there before -/

/-- The first types are as they were. -/
structure SameBelow (n : Nat) (c c' : Catalog) : Prop where
  size : n ≤ c.types.size → n ≤ c'.types.size
  decl : n ≤ c.types.size → ∀ t < n, c'.decl t = c.decl t

section SameBelow

variable {n : Nat}

instance : Std.Refl (SameBelow n) := ⟨fun _ => ⟨id, fun _ _ _ => rfl⟩⟩

instance : IsTrans Catalog (SameBelow n) where
  trans _ _ _ h h' := ⟨fun hn => h'.size (h.size hn), fun hn t ht =>
    (h'.decl (h.size hn) t ht).trans (h.decl hn t ht)⟩

instance (d : TypeDecl) : Leads (SameBelow n) (register d) :=
  leads_register fun c _ => ⟨fun hn => Nat.le_trans hn (size_push c d ▸ Nat.le_succ _),
    fun hn _ ht => decl_push (Nat.lt_of_lt_of_le ht hn) d⟩

theorem sameBelow_change (ht : n ≤ t) (f : TypeDecl → TypeDecl) :
    Leads (SameBelow n) (modify (·.change t f) : Work Catalog Unit) where
  leads c := ⟨fun hn => (size_change c t f).symm ▸ hn, fun _ _ hs =>
    decl_change_ne (Nat.ne_of_lt (Nat.lt_of_lt_of_le hs ht)) f⟩

theorem sameBelow_setDomTag (tag : Text) (type : Option TypeId) :
    Leads (SameBelow n) (modify (·.setDomTag tag type) : Work Catalog Unit) where
  leads c := by
    have hdecl : ∀ t, (c.setDomTag tag type).decl t = c.decl t := fun t => by
      unfold decl
      rw [types_setDomTag]
    exact ⟨fun hn => (types_setDomTag c tag type).symm ▸ hn, fun _ t _ => hdecl t⟩

/-- Loading leaves alone the types that were there, however far it goes. -/
theorem sameBelow_loading (m : Manifest) (hn : n ≤ c.types.size) : SameBelow n c (c.loading m) := by
  refine leads_loading (fun spec => leads_addType (fun _ _ _ => inferInstance) _ _ spec) ?_
  have hlater : ∀ p ∈ c.numbered m, n ≤ p.1 := fun p hp => by
    have hid : p.1 ∈ List.range' c.types.size m.types.length := (List.of_mem_zip hp).1
    exact Nat.le_trans hn (List.mem_range'_1.mp hid).1
  exact (leads_linking (fun p hp f _ => sameBelow_change (hlater p hp) f) sameBelow_setDomTag
    m.domTags).leads _

theorem sameBelow_loadings (ms : List Manifest) (hn : n ≤ c.types.size) :
    SameBelow n c (ms.foldl loading c) := by
  induction ms generalizing c with
  | nil => exact Std.Refl.refl c
  | cons m ms ih =>
    have hload := sameBelow_loading m hn
    exact IsTrans.trans _ _ _ hload (ih (hload.size hn))

end SameBelow

end Catalog

end ViewBinder
