-- Complete catalogs. Work on a template relies on types it never asks for twice: those of parameters,
-- of HTML tags and of a few attributes. A catalog that leaves none of them open stays that way
-- while a unit adds to it, and a tree type stays one.
import ViewBinder.Catalog.Descriptor
import ViewBinder.Proofs.Element.Capability

namespace ViewBinder

/-- Every parameter has a type. -/
def Method.Typed (m : Method) : Prop := ∀ p ∈ m.params, p.type.isSome

/-- Every method that a template can call has typed parameters. -/
structure Descriptor.Typed (d : Descriptor) : Prop where
  slots : ∀ slot ∈ d.childSlots, slot.method.Typed
  constructor : ∀ m ∈ d.constructor, m.Typed
  factories : ∀ entry ∈ d.factories, entry.2.Typed

namespace Catalog

/-- The types of the library that attributes are read as, whatever the type of their element. -/
def attributeTypes : List Text :=
  [Library.ui "HorizontalAlignmentConstant", Library.ui "VerticalAlignmentConstant",
   Library.ui "Unit", Library.resources "ImageResource"]

/-- No parameter, no HTML tag and no attribute of the library is without a type. -/
structure Complete (c : Catalog) : Prop where
  methods : ∀ t, ∀ m ∈ (c.decl t).methods, m.Typed
  constructors : ∀ t, ∀ m ∈ (c.decl t).constructors, m.Typed
  tags : ∀ tag, (c.domType? tag).isSome
  attributes : ∀ key ∈ attributeTypes, (c.lookup? key).isSome

/-- The catalog knows the primitives as well, as every catalog does that was put together from
manifests. -/
structure Ready (c : Catalog) : Prop extends Complete c where
  primitives : ∀ name ∈ primitiveNames, (c.lookup? name).isSome

theorem Complete.ready {ms : List Manifest} (h : (ms.foldl loading bare).Complete) :
    (ms.foldl loading bare).Ready where
  toComplete := h
  primitives name hname := by
    have hbare : ∀ name ∈ primitiveNames, (bare.shared.lookup name).isSome := by decide
    obtain ⟨t, ht⟩ := Option.isSome_iff_exists.mp (hbare name hname)
    unfold lookup?
    rw [(loaded_loadings ms).generated, (loads_loadings bare ms).lookup ht]
    rfl

variable {c c' c'' : Catalog} {t : TypeId}

/-! ## Looking methods up -/

/-- Every type of a hierarchy is some steps up. -/
theorem steps_of_mem_hierarchy {s : TypeId} (h : s ∈ c.hierarchy t) : ∃ n, c.Steps t n s := by
  have hclimb : ∀ fuel seen queue, (∀ s ∈ seen, ∃ n, c.Steps t n s) →
      (∀ s ∈ queue, ∃ n, c.Steps t n s) → ∀ s ∈ c.climb fuel seen queue, ∃ n, c.Steps t n s := by
    intro fuel
    induction fuel with
    | zero => exact fun seen queue hseen _ => hseen
    | succ fuel ih =>
      intro seen queue hseen hqueue
      cases queue with
      | nil => exact hseen
      | cons a queue =>
        have hfresh : ∀ s ∈ ((c.parents a).filter fun s => !seen.contains s).eraseDups,
            ∃ n, c.Steps t n s := by
          intro s hs
          obtain ⟨n, hsteps⟩ := hqueue a List.mem_cons_self
          exact ⟨n + 1, hsteps.up (List.mem_filter.mp (List.mem_eraseDups.mp hs)).1⟩
        refine ih _ _ (fun s hs => ?_) fun s hs => ?_
        · exact (List.mem_append.mp hs).elim (hseen s) (hfresh s)
        · exact (List.mem_append.mp hs).elim
            (fun hold => hqueue s (List.mem_cons_of_mem _ hold)) (hfresh s)
  have hstart : ∀ s ∈ [t], ∃ n, c.Steps t n s := by
    intro s hs
    rw [List.mem_singleton.mp hs]
    exact ⟨0, .here⟩
  exact hclimb _ _ _ hstart hstart s h

/-- A method that is found is declared by the type or above it. -/
theorem method?_some {name : Text} {m : Method} (h : c.method? (some t) name = some m) :
    ∃ n s, c.Steps t n s ∧ m ∈ (c.decl s).methods ∧ m.name = name := by
  obtain ⟨s, hs, hfind⟩ := List.exists_of_findSome?_eq_some h
  obtain ⟨n, hsteps⟩ := steps_of_mem_hierarchy hs
  unfold declaredMethod? at hfind
  have hname := List.find?_some hfind
  exact ⟨n, s, hsteps, List.mem_of_find?_eq_some hfind, beq_iff_eq.mp hname⟩

theorem Complete.method? (hc : c.Complete) {type : Option TypeId} {name : Text} {m : Method}
    (h : c.method? type name = some m) : m.Typed := by
  cases type with
  | none => cases h
  | some t =>
    obtain ⟨n, s, -, hm, -⟩ := method?_some h
    exact hc.methods s m hm

theorem Complete.setters (hc : c.Complete) {type : Option TypeId} {property : Text} :
    ∀ m ∈ c.setters type property, m.Typed := by
  have hnamed : ∀ m ∈ (c.hierarchy? type).flatMap fun s => (c.decl s).methods.filter fun m =>
      m.name == Text.setterOf property && !m.params.isEmpty, m.Typed := by
    intro m hm
    obtain ⟨s, -, hm⟩ := List.mem_flatMap.mp hm
    exact hc.methods s m (List.mem_filter.mp hm).1
  unfold Catalog.setters
  refine List.foldlRecOn (motive := fun found : List Method => ∀ m ∈ found, m.Typed) _ _ ?_ ?_
  · exact List.forall_mem_nil _
  intro found hfound a ha m hm
  split at hm
  · exact hfound m hm
  · rcases List.mem_append.mp hm with hold | hnew
    · exact hfound m hold
    · rw [List.mem_singleton.mp hnew]
      exact hnamed a ha

theorem Complete.constructor? (hc : c.Complete) {params : List (Option TypeId)} {m : Method}
    (h : c.constructor? t params = some m) : m.Typed :=
  hc.constructors t m (List.mem_of_find?_eq_some h)

/-! ## Descriptors -/

theorem Complete.addSlot (hc : c.Complete) {d : Descriptor} (hd : d.Typed) (tag : ChildTag) :
    (d.addSlot c tag).Typed := by
  unfold Descriptor.addSlot
  split
  · exact hd
  · split
    · rename_i method hmethod
      refine ⟨fun slot hslot => ?_, hd.constructor, hd.factories⟩
      rcases List.mem_append.mp hslot with hold | hnew
      · exact hd.slots slot hold
      · rw [List.mem_singleton.mp hnew]
        exact hc.method? hmethod
    · exact hd

theorem Complete.addFactory (hc : c.Complete) {d : Descriptor} (hd : d.Typed) (name : Text) :
    (d.addFactory c name).Typed := by
  unfold Descriptor.addFactory
  split
  · rename_i method hmethod
    split
    · exact hd
    · refine ⟨hd.slots, hd.constructor, fun entry hentry => ?_⟩
      rcases List.mem_append.mp hentry with hold | hnew
      · exact hd.factories entry hold
      · rw [List.mem_singleton.mp hnew]
        exact hc.method? hmethod
  · exact hd

theorem Complete.addTraits (hc : c.Complete) {d : Descriptor} (hd : d.Typed) (t : TypeId) :
    (d.addTraits c t).Typed := by
  unfold Descriptor.addTraits
  refine List.foldlRecOn _ _ ?_ fun d hd name _ => hc.addFactory hd name
  exact List.foldlRecOn _ _ ⟨hd.slots, hd.constructor, hd.factories⟩
    fun d hd tag _ => hc.addSlot hd tag

theorem Complete.addOwn (hc : c.Complete) {d : Descriptor} (hd : d.Typed) (t : TypeId) :
    (d.addOwn c t).Typed := by
  unfold Descriptor.addOwn
  dsimp only
  split
  · exact ⟨hd.slots, hd.constructor, hd.factories⟩
  · split
    · rename_i m hm
      refine ⟨hd.slots, fun made hmade => ?_, hd.factories⟩
      cases hmade
      exact hc.constructors t m (List.mem_of_find?_eq_some hm)
    · exact ⟨hd.slots, hd.constructor, hd.factories⟩

theorem Complete.describe (hc : c.Complete) (type : Option TypeId) : (c.describe type).Typed := by
  have hempty : ∀ type, Descriptor.Typed { type } := by
    intro type
    constructor <;> (intro _ h; cases h)
  cases type with
  | none => exact hempty none
  | some t =>
    exact List.foldlRecOn _ _ (hc.addOwn (hempty t) t) fun d hd s _ => hc.addTraits hd s

/-! ## Trees -/

/-- The type of whatever has tree items is the type itself or above it. -/
def IsTree (c : Catalog) (t : TypeId) : Prop :=
  ∃ n s, c.Steps t n s ∧ (c.decl s).package = Library.uiPackage ∧ (c.decl s).name = "HasTreeItems"

/-- Some tree type has a setter of its widget, its own or from above, that takes no widget. -/
def HasBareTree (c : Catalog) : Prop :=
  ∃ t, c.IsTree t ∧ ∃ n s, c.Steps t n s ∧ ∃ m ∈ (c.decl s).methods,
    m.name = "SetWidget" ∧ m.params = []

/-- Only trees follow the rule for tree items. -/
theorem isTree_of_mem_chain (h : Rule.treeItems ∈ Rule.chain c t) : c.IsTree t := by
  have hentry : Rule.widget "HasTreeItems" .children .treeItems ∈ Rule.entriesOf c t :=
    (Rule.mem_chain_iff (by decide)).mp h
  rcases Rule.mem_claim_iff.mp hentry with hnone | ⟨-, hfound⟩
  · cases hnone
  · obtain ⟨s, hs, hentry⟩ := List.mem_flatMap.mp (List.mem_of_find?_eq_some hfound)
    obtain ⟨n, hsteps⟩ := steps_of_mem_hierarchy hs
    have hfor := (List.mem_filter.mp hentry).2
    simp only [Bool.and_eq_true, beq_iff_eq] at hfor
    exact ⟨n, s, hsteps, hfor.1.symm, hfor.2.symm⟩

/-- What is above a type stays there, and setters of widgets stay where they are. -/
structure Retains (c c' : Catalog) : Prop where
  parents : ∀ t, c.parents t ⊆ c'.parents t
  package : ∀ t, (c.decl t).name ≠ [] → (c'.decl t).package = (c.decl t).package
  name : ∀ t, (c.decl t).name ≠ [] → (c'.decl t).name = (c.decl t).name
  setters : ∀ t, ∀ m ∈ (c.decl t).methods, m.name = "SetWidget" → m ∈ (c'.decl t).methods

theorem Retains.refl (c : Catalog) : c.Retains c :=
  ⟨fun _ _ hs => hs, fun _ _ => rfl, fun _ _ => rfl, fun _ _ hm _ => hm⟩

theorem Retains.trans (h : c.Retains c') (h' : c'.Retains c'') : c.Retains c'' where
  parents t _ hs := h'.parents t (h.parents t hs)
  package t ht := (h'.package t (h.name t ht ▸ ht)).trans (h.package t ht)
  name t ht := (h'.name t (h.name t ht ▸ ht)).trans (h.name t ht)
  setters t m hm hname := h'.setters t m (h.setters t m hm hname) hname

theorem Retains.steps (h : c.Retains c') {n : Nat} {s : TypeId} (hsteps : c.Steps t n s) :
    c'.Steps t n s := by
  induction hsteps with
  | here => exact .here
  | up _ hparent ih => exact ih.up (h.parents _ hparent)

theorem IsTree.later (ht : c.IsTree t) (h : c.Retains c') : c'.IsTree t := by
  obtain ⟨n, s, hsteps, hpackage, hname⟩ := ht
  have hnamed : (c.decl s).name ≠ [] := by
    rw [hname]
    decide
  exact ⟨n, s, h.steps hsteps, (h.package s hnamed).trans hpackage, (h.name s hnamed).trans hname⟩

/-- A tree whose setter takes nothing is still one when it comes to that. -/
theorem IsTree.bare (ht : c.IsTree t) (h : c.Retains c') {m : Method}
    (hsetter : c.method? (some t) "SetWidget" = some m) (hparams : m.params = []) :
    c'.HasBareTree := by
  obtain ⟨n, s, hsteps, hm, hname⟩ := method?_some hsetter
  exact ⟨t, ht.later h, n, s, h.steps hsteps, m, h.setters s m hm hname, hname, hparams⟩

/-! ## What a unit adds -/

/-- The declarations of a table that has one more are the old ones and the new one. -/
theorem decl_push_or (c : Catalog) (d : TypeDecl) (t : TypeId) :
    (c.push d).2.decl t = c.decl t ∨ t = c.types.size ∧ (c.push d).2.decl t = d := by
  rcases Nat.lt_trichotomy t c.types.size with hlt | rfl | hgt
  · exact Or.inl (decl_push hlt d)
  · exact Or.inr ⟨rfl, decl_push_size c d⟩
  · refine Or.inl ?_
    have hout : (c.push d).2.types.size ≤ t := (size_push c d).symm ▸ hgt
    unfold decl
    rw [Array.getElem?_eq_none hout, Array.getElem?_eq_none (Nat.le_of_lt hgt)]

theorem decl_size (c : Catalog) : c.decl c.types.size = noType := by
  unfold decl
  rw [Array.getElem?_eq_none (Nat.le_refl _)]
  rfl

theorem Ready.push (hc : c.Ready) {d : TypeDecl} (hmethods : ∀ m ∈ d.methods, m.Typed)
    (hconstructors : d.constructors = []) : (c.push d).2.Ready where
  methods t m hm := by
    rcases decl_push_or c d t with hsame | ⟨-, hnew⟩
    · exact hc.methods t m (hsame ▸ hm)
    · exact hmethods m (hnew ▸ hm)
  constructors t m hm := by
    rcases decl_push_or c d t with hsame | ⟨-, hnew⟩
    · exact hc.constructors t m (hsame ▸ hm)
    · rw [hnew, hconstructors] at hm
      cases hm
  tags := hc.tags
  attributes := hc.attributes
  primitives := hc.primitives

theorem retains_push (c : Catalog) (d : TypeDecl) : c.Retains (c.push d).2 := by
  have hparents : ∀ t, c.parents t ⊆ (c.push d).2.parents t := by
    intro t s hs
    rcases decl_push_or c d t with hsame | ⟨rfl, -⟩
    · unfold parents at hs ⊢
      rwa [hsame]
    · rw [parents_noType c (Nat.le_refl _)] at hs
      cases hs
  have hold : ∀ t, (c.decl t).name ≠ [] → (c.push d).2.decl t = c.decl t := by
    intro t ht
    rcases decl_push_or c d t with hsame | ⟨rfl, -⟩
    · exact hsame
    · rw [decl_size] at ht
      exact absurd rfl ht
  refine ⟨hparents, fun t ht => by rw [hold t ht], fun t ht => by rw [hold t ht], ?_⟩
  intro t m hm _
  rcases decl_push_or c d t with hsame | ⟨rfl, -⟩
  · rwa [hsame]
  · rw [decl_size] at hm
    cases hm

/-- A type of the unit gets other methods. -/
theorem Ready.setMethods (hc : c.Ready) (id : TypeId) {f : List Method → List Method}
    (hf : ∀ m ∈ f (c.decl id).methods, m.Typed) :
    (c.change id fun d => { d with methods := f d.methods }).Ready where
  methods t m hm := by
    rcases decl_change c id t fun d => { d with methods := f d.methods } with hsame | ⟨-, rfl, hnew⟩
    · exact hc.methods t m (hsame ▸ hm)
    · rw [hnew] at hm
      exact hf m hm
  constructors t m hm := by
    rcases decl_change c id t fun d => { d with methods := f d.methods } with hsame | ⟨-, -, hnew⟩
    · exact hc.constructors t m (hsame ▸ hm)
    · rw [hnew] at hm
      exact hc.constructors t m hm
  tags := hc.tags
  attributes := hc.attributes
  primitives := hc.primitives

theorem retains_setMethods (c : Catalog) (id : TypeId) {f : List Method → List Method}
    (hf : ∀ m ∈ (c.decl id).methods, m.name = "SetWidget" → m ∈ f (c.decl id).methods) :
    c.Retains (c.change id fun d => { d with methods := f d.methods }) := by
  refine ⟨fun t s hs => ?_, fun t _ => ?_, fun t _ => ?_, fun t m hm hname => ?_⟩
  · unfold parents at hs ⊢
    rcases decl_change c id t fun d => { d with methods := f d.methods } with hsame | ⟨-, -, hnew⟩
    · rwa [hsame]
    · rwa [hnew]
  · rcases decl_change c id t fun d => { d with methods := f d.methods } with hsame | ⟨-, -, hnew⟩
    · rw [hsame]
    · rw [hnew]
  · rcases decl_change c id t fun d => { d with methods := f d.methods } with hsame | ⟨-, -, hnew⟩
    · rw [hsame]
    · rw [hnew]
  · rcases decl_change c id t fun d => { d with methods := f d.methods } with hsame | ⟨-, rfl, hnew⟩
    · rwa [hsame]
    · rw [hnew]
      exact hf m hm hname

/-- A key that is found is found again when one more type is known by its key. -/
theorem adopt_eq {id : TypeId} (h : c.adopt id = .ok c') :
    c' = { c with generated := c.generated ++ [((c.decl id).key, id)] } := by
  unfold adopt at h
  dsimp only at h
  split at h
  · cases h
  · split at h
    · cases h
    · cases h
      rfl

theorem lookup?_adopt {id : TypeId} (h : c.adopt id = .ok c') {key : Text}
    (hfound : (c.lookup? key).isSome) : (c'.lookup? key).isSome := by
  rw [adopt_eq h]
  unfold lookup? at hfound ⊢
  rw [List.lookup_append]
  cases hgenerated : c.generated.lookup key with
  | some t => rfl
  | none =>
    rw [hgenerated] at hfound
    cases hnew : List.lookup key [((c.decl id).key, id)] with
    | some t => rfl
    | none => exact hfound

theorem Ready.adopt {id : TypeId} (hc : c.Ready) (h : c.adopt id = .ok c') : c'.Ready := by
  have hattributes := fun key hkey => lookup?_adopt h (hc.attributes key hkey)
  have hprimitives := fun name hname => lookup?_adopt h (hc.primitives name hname)
  obtain rfl := adopt_eq h
  exact ⟨⟨hc.methods, hc.constructors, hc.tags, hattributes⟩, hprimitives⟩

theorem retains_adopt {id : TypeId} (h : c.adopt id = .ok c') : c.Retains c' := by
  obtain rfl := adopt_eq h
  exact ⟨fun _ _ hs => hs, fun _ _ => rfl, fun _ _ => rfl, fun _ _ hm _ => hm⟩

end Catalog

end ViewBinder
