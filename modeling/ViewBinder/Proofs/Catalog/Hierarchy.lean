-- The order of supertypes. In a catalog that was put together from manifests every supertype is in
-- the table, so the climb comes to an end: the hierarchy of a type holds what lies above it, each
-- type once, and no type stands before one to which fewer steps lead.
import Mathlib.Data.List.Nodup
import Mathlib.Data.List.Perm.Subperm
import ViewBinder.Catalog.Basic
import ViewBinder.Proofs.Catalog.Lookup

namespace ViewBinder

/-- Nothing is left twice when repetitions are taken out. -/
theorem nodup_eraseDups {α : Type} [BEq α] [LawfulBEq α] (xs : List α) : xs.eraseDups.Nodup := by
  induction hlength : xs.length using Nat.strongRecOn generalizing xs with
  | ind n ih =>
    cases xs with
    | nil => exact List.nodup_nil
    | cons x xs =>
      rw [List.eraseDups_cons, List.nodup_cons]
      refine ⟨by simp [List.mem_eraseDups], ih _ ?_ _ rfl⟩
      rw [← hlength]
      exact Nat.lt_succ_of_le (List.length_filter_le _ _)

namespace Catalog

open Work (Leads)

/-! ## Links between types -/

/-- All types are known by their keys, and refer to types of the table only. -/
structure Linked (c : Catalog) : Prop where
  shared : ∀ entry ∈ c.shared, entry.2 < c.types.size
  parents : ∀ t, ∀ s ∈ c.parents t, s < c.types.size
  known : ∀ t < c.types.size, c.shared.lookup (c.decl t).key = some t

/-- Loading keeps types linked. -/
def Links (c c' : Catalog) : Prop := c.Linked → c'.Linked

instance : Std.Refl Links := ⟨fun _ h => h⟩

instance : IsTrans Catalog Links := ⟨fun _ _ _ h h' hlinked => h' (h hlinked)⟩

theorem decl_change (c : Catalog) (id t : TypeId) (f : TypeDecl → TypeDecl) :
    (c.change id f).decl t = c.decl t ∨
      t < c.types.size ∧ t = id ∧ (c.change id f).decl t = f (c.decl t) := by
  unfold decl change
  rw [Array.getElem?_modify]
  by_cases hid : id = t
  · rw [if_pos hid]
    by_cases ht : t < c.types.size
    · refine Or.inr ⟨ht, hid.symm, ?_⟩
      rw [Array.getElem?_eq_getElem ht]
      rfl
    · rw [Array.getElem?_eq_none (Nat.not_lt.mp ht)]
      exact Or.inl rfl
  · rw [if_neg hid]
    exact Or.inl rfl

/-- What a type is changed into refers to types of the table too. -/
theorem Linked.change {c : Catalog} (h : c.Linked) {f : TypeDecl → TypeDecl} (id : TypeId)
    (hkey : ∀ d, (f d).key = d.key)
    (hparents : ∀ s, s ∈ (f (c.decl id)).interfaces.filterMap (·) ++ (f (c.decl id)).super.toList →
      s ∈ c.parents id ∨ s < c.types.size) :
    (c.change id f).Linked where
  shared entry hentry := (size_change c id f).symm ▸ h.shared entry hentry
  parents t s hs := by
    rw [size_change]
    unfold Catalog.parents at hs
    rcases decl_change c id t f with hsame | ⟨-, rfl, hnew⟩
    · rw [hsame] at hs
      exact h.parents t s hs
    · rw [hnew] at hs
      rcases hparents s hs with hold | hlt
      · exact h.parents t s hold
      · exact hlt
  known t ht := by
    rw [key_change hkey]
    exact h.known t ((size_change c id f) ▸ ht)

theorem parents_noType (c : Catalog) {t : TypeId} (h : c.types.size ≤ t) : c.parents t = [] := by
  unfold parents
  rw [decl_eq_noType h]
  rfl

theorem linked_bare : bare.Linked where
  shared := by decide
  parents t := by
    have hall : ∀ t < bare.types.size, bare.parents t = [] := by decide
    intro s hs
    by_cases ht : t < bare.types.size
    · rw [hall t ht] at hs
      cases hs
    · rw [parents_noType bare (Nat.not_lt.mp ht)] at hs
      cases hs
  known := by decide

/-- A new type that refers to none is linked. -/
theorem Linked.register {c : Catalog} (h : c.Linked) {d : TypeDecl} (hsuper : d.super = none)
    (hinterfaces : d.interfaces = []) (hfree : c.shared.lookup d.key = none) :
    ({ (c.push d).2 with shared := c.shared ++ [(d.key, c.types.size)] } : Catalog).Linked := by
  have hsize : (c.push d).2.types.size = c.types.size + 1 := size_push c d
  refine ⟨fun entry hentry => ?_, fun t s hs => ?_, fun t ht => ?_⟩
  · show entry.2 < (c.push d).2.types.size
    rw [hsize]
    rcases List.mem_append.mp hentry with hold | hnew
    · exact Nat.lt_succ_of_lt (h.shared entry hold)
    · rw [List.mem_singleton.mp hnew]
      exact Nat.lt_succ_self _
  · show s < (c.push d).2.types.size
    rw [hsize]
    change s ∈ (c.push d).2.parents t at hs
    rcases Nat.lt_trichotomy t c.types.size with ht | rfl | ht
    · apply Nat.lt_succ_of_lt
      apply h.parents t
      unfold Catalog.parents at hs ⊢
      rwa [decl_push ht] at hs
    · unfold Catalog.parents at hs
      rw [decl_push_size, hsuper, hinterfaces] at hs
      cases hs
    · rw [parents_noType _ (hsize ▸ ht)] at hs
      cases hs
  · show (c.shared ++ [(d.key, c.types.size)]).lookup ((c.push d).2.decl t).key = some t
    change t < (c.push d).2.types.size at ht
    rw [List.lookup_append]
    by_cases hold : t < c.types.size
    · rw [decl_push hold, h.known t hold]
      rfl
    · obtain rfl : t = c.types.size :=
        Nat.le_antisymm (Nat.le_of_lt_succ (Nat.lt_of_lt_of_eq ht hsize)) (Nat.not_lt.mp hold)
      rw [decl_push_size, hfree]
      simp

theorem links_register {d : TypeDecl} (hsuper : d.super = none) (hinterfaces : d.interfaces = []) :
    Leads Links (register d) :=
  leads_register fun _ hfree h => h.register hsuper hinterfaces hfree

instance (package packageName : Text) (spec : TypeSpec) :
    Leads Links (addType package packageName spec) := by
  unfold addType
  split
  · infer_instance
  · exact links_register rfl rfl

/-- A change of what a type is not linked by. -/
theorem links_change {f : TypeDecl → TypeDecl} (hkey : ∀ d, (f d).key = d.key)
    (hsuper : ∀ d, (f d).super = d.super) (hinterfaces : ∀ d, (f d).interfaces = d.interfaces)
    (t : TypeId) : Leads Links (modify (·.change t f) : Work Catalog Unit) where
  leads c h := h.change t hkey fun s hs => by
    rw [hsuper, hinterfaces] at hs
    exact Or.inl hs

/-- A type that is found by its key can be referred to. -/
theorem resolveIn_inside {wrap : CatalogError → CatalogError} {key : Text} {c c' : Catalog}
    {found : Option TypeId} (h : (resolveIn wrap key).runOn c = (.ok found, c')) :
    c' = c ∧ (c.Linked → ∀ s ∈ found, s < c.types.size) := by
  unfold resolveIn at h
  split at h
  · cases h
    exact ⟨rfl, nofun⟩
  · obtain ⟨_, _, hget, h⟩ := Work.bind_ok h
    cases hget
    split at h
    · rename_i t hresolve
      cases h
      refine ⟨rfl, fun hlinked s hs => ?_⟩
      cases hs
      unfold Catalog.resolve at hresolve
      split at hresolve
      · rename_i t' hlookup
        cases hresolve
        have hshared : c.shared.lookup key = some t := hlookup
        exact hlinked.shared _ (mem_of_lookup hshared)
      · cases hresolve
    · cases h

/-- A type is linked to another one that was found by its key. -/
theorem links_found {wrap : CatalogError → CatalogError} {key : Text}
    {f : Option TypeId → TypeDecl → TypeDecl} (t : TypeId)
    (hkey : ∀ found d, (f found d).key = d.key)
    (hparents : ∀ found d, ∀ s ∈ (f found d).interfaces.filterMap (·) ++ (f found d).super.toList,
      s ∈ d.interfaces.filterMap (·) ++ d.super.toList ∨ s ∈ found) :
    Leads Links (do
      let found ← resolveIn wrap key
      modify (·.change t (f found)) : Work Catalog Unit) where
  leads c := by
    rw [Work.runOn_bind]
    rcases hrun : (resolveIn wrap key).runOn c with ⟨_ | found, c'⟩
    · have := Leads.leads (R := Links) (w := resolveIn wrap key) c
      rwa [hrun] at this
    · obtain ⟨rfl, hinside⟩ := resolveIn_inside hrun
      intro h
      refine h.change t (hkey found) fun s hs => ?_
      exact (hparents found _ s hs).imp_right (hinside h s)

/-- Work that goes on after two steps, which are looked at together. -/
theorem leads_after {w : Work Catalog α} {k : α → Work Catalog Unit} {l : Work Catalog β}
    (hfirst : Leads Links (w >>= k)) (hrest : Leads Links l) :
    Leads Links (w >>= fun a => k a >>= fun _ => l) := by
  have h : Leads Links ((w >>= k) >>= fun _ => l) := Leads.bind' hfirst fun _ => hrest
  rwa [bind_assoc] at h

instance (t : TypeId) (spec : TypeSpec) : Leads Links (linkType t spec) := by
  have hsuper : Leads Links (do
      let super ← resolveIn (.inType spec.name) spec.super
      modify (·.change t ({ · with super })) : Work Catalog Unit) := by
    refine links_found t (fun _ _ => rfl) fun super d s hs => ?_
    rcases List.mem_append.mp hs with hold | hnew
    · exact Or.inl (List.mem_append_left _ hold)
    · exact Or.inr (Option.mem_toList.mp hnew)
  have hinterface : ∀ key, Leads Links (do
      let interface ← resolveIn (.inType spec.name) key
      modify (·.change t fun d => { d with interfaces := d.interfaces ++ [interface] }) :
      Work Catalog Unit) := by
    intro key
    refine links_found t (fun _ _ => rfl) fun interface d s hs => ?_
    simp only [List.filterMap_append, List.append_assoc, List.mem_append] at hs
    rcases hs with hold | hnew | hsuper
    · exact Or.inl (List.mem_append_left _ hold)
    · exact Or.inr (by cases interface <;> simp_all)
    · exact Or.inl (List.mem_append_right _ hsuper)
  have hother : ∀ (f : TypeDecl → TypeDecl), (∀ d, (f d).key = d.key) →
      (∀ d, (f d).super = d.super) → (∀ d, (f d).interfaces = d.interfaces) →
        Leads Links (modify (·.change t f) : Work Catalog Unit) :=
    fun f hkey hsuper hinterfaces => links_change hkey hsuper hinterfaces t
  unfold linkType
  refine leads_after hsuper ?_
  refine Leads.bind' (Leads.forIn (h := fun key _ => ?_)) fun _ => ?_
  · exact leads_after (hinterface key) inferInstance
  refine Leads.bind' (Leads.forIn (h := fun m _ => ?_)) fun _ => ?_
  · refine Leads.bind' inferInstance fun method => Leads.bind' ?_ fun _ => inferInstance
    exact hother _ (fun _ => rfl) (fun _ => rfl) fun _ => rfl
  refine Leads.bind' (Leads.forIn (h := fun m _ => ?_)) fun _ => ?_
  · refine Leads.bind' inferInstance fun method => Leads.bind' ?_ fun _ => inferInstance
    exact hother _ (fun _ => rfl) (fun _ => rfl) fun _ => rfl
  refine Leads.bind' (hother _ (fun _ => rfl) (fun _ => rfl) fun _ => rfl) fun _ => ?_
  refine Leads.bind' (Leads.forIn (h := fun f _ => ?_)) fun _ => inferInstance
  refine Leads.bind' inferInstance fun type => Leads.bind' ?_ fun _ => inferInstance
  exact hother _ (fun _ => rfl) (fun _ => rfl) fun _ => rfl

instance (m : Manifest) : Leads Links (load m) := by
  have htag : ∀ tag t, Leads Links (modify (·.setDomTag tag t) : Work Catalog Unit) := by
    refine fun tag t => ⟨fun c => ?_⟩
    show Links c (c.setDomTag tag t)
    unfold setDomTag
    split <;> exact fun h => ⟨h.shared, h.parents, h.known⟩
  have hrest : ∀ packageName, Leads Links (do
      let ids ← m.types.mapM (addType m.package packageName)
      for (t, spec) in ids.zip m.types do
        linkType t spec
      for (tag, key) in m.domTags do
        let t ← resolveIn (.inTag tag) key
        modify (·.setDomTag tag t) : Work Catalog Unit) := by
    intro packageName
    infer_instance
  unfold load
  dsimp only
  split
  · exact Leads.bind' inferInstance fun _ => hrest _
  · exact hrest _

theorem linked_loadings (ms : List Manifest) : (ms.foldl loading bare).Linked := by
  have h : ∀ c : Catalog, c.Linked → (ms.foldl loading c).Linked := by
    induction ms with
    | nil => exact fun _ h => h
    | cons m ms ih =>
      intro c h
      exact ih _ (Leads.leads (R := Links) (w := load m) c h)
  exact h bare linked_bare

/-! ## Ways up -/

variable {c : Catalog} {t s u : TypeId} {n m : Nat}

/-- Some way of so many steps leads up from the first type to the second. -/
inductive Steps (c : Catalog) (t : TypeId) : Nat → TypeId → Prop
  | here : Steps c t 0 t
  | up {n : Nat} {s u : TypeId} : Steps c t n s → u ∈ c.parents s → Steps c t (n + 1) u

/-- The shortest way up has so many steps. -/
def IsAway (c : Catalog) (t : TypeId) (n : Nat) (s : TypeId) : Prop :=
  c.Steps t n s ∧ ∀ m < n, ¬ c.Steps t m s

theorem Steps.shortest (h : c.Steps t n s) : ∃ m ≤ n, c.IsAway t m s := by
  induction n using Nat.strongRecOn with
  | ind n ih =>
    by_cases hshorter : ∃ m < n, c.Steps t m s
    · obtain ⟨m, hm, hsteps⟩ := hshorter
      obtain ⟨k, hk, haway⟩ := ih m hm hsteps
      exact ⟨k, Nat.le_trans hk (Nat.le_of_lt hm), haway⟩
    · exact ⟨n, Nat.le_refl n, h, fun m hm hsteps => hshorter ⟨m, hm, hsteps⟩⟩

/-- The shortest way to a type goes on from the shortest way to one below it. -/
theorem IsAway.below (h : c.IsAway t (n + 1) u) : ∃ s, c.IsAway t n s ∧ u ∈ c.parents s := by
  obtain ⟨hsteps, hshortest⟩ := h
  cases hsteps with
  | up hbelow hparent =>
    refine ⟨_, ⟨hbelow, fun m hm hshorter => ?_⟩, hparent⟩
    exact hshortest (m + 1) (Nat.succ_lt_succ hm) (.up hshorter hparent)

/-- Whatever lies above the type is in the table. -/
def Grounded (c : Catalog) (t : TypeId) : Prop := ∀ n s, c.Steps t (n + 1) s → s < c.types.size

theorem grounded_of_parents (h : ∀ t < c.types.size, ∀ s ∈ c.parents t, s < c.types.size)
    (t : TypeId) : c.Grounded t := by
  intro n s hsteps
  cases hsteps with
  | @up _ r _ _ hparent =>
    by_cases hr : r < c.types.size
    · exact h r hr s hparent
    · rw [parents_noType c (Nat.not_lt.mp hr)] at hparent
      cases hparent

theorem Linked.grounded (h : c.Linked) (t : TypeId) : c.Grounded t :=
  grounded_of_parents (fun t _ => h.parents t) t

/-! ## The climb -/

/-- The types above a type that were not seen, each once: its interfaces in their order, then its
superclass. -/
def unseenAbove (c : Catalog) (seen : List TypeId) (t : TypeId) : List TypeId :=
  ((c.parents t).filter fun s => !seen.contains s).eraseDups

/-- The climb for as long as types are left to climb from, with all types seen in the end. -/
inductive Climbs (c : Catalog) : List TypeId → List TypeId → List TypeId → Prop
  | done {seen : List TypeId} : Climbs c seen [] seen
  | on {t : TypeId} {seen queue all : List TypeId} :
      Climbs c (seen ++ c.unseenAbove seen t) (queue ++ c.unseenAbove seen t) all →
        Climbs c seen (t :: queue) all

/-- The types seen on the way up from `t`: those in `done` were left behind, those in `near` are `n`
steps away and come next, and those in `far` are one step further. -/
structure Climbing (c : Catalog) (t : TypeId) (n : Nat) (done near far : List TypeId) : Prop where
  nodup : (done ++ (near ++ far)).Nodup
  sorted : (done ++ (near ++ far)).Pairwise fun a b =>
    ∃ i j, i ≤ j ∧ c.IsAway t i a ∧ c.IsAway t j b
  behind : ∀ s ∈ done, ∃ m ≤ n, c.IsAway t m s
  level : ∀ s ∈ near, c.IsAway t n s
  further : ∀ s ∈ far, c.IsAway t (n + 1) s
  above : ∀ s ∈ done, ∀ u ∈ c.parents s, u ∈ done ++ (near ++ far)
  found : ∀ m ≤ n, ∀ s, c.IsAway t m s → s ∈ done ++ near

theorem climbing_start (c : Catalog) (t : TypeId) : c.Climbing t 0 [] [t] [] where
  nodup := List.nodup_singleton t
  sorted := List.pairwise_singleton _ t
  behind := nofun
  level s hs := by
    rw [List.mem_singleton.mp hs]
    exact ⟨.here, fun m hm => absurd hm (Nat.not_lt_zero m)⟩
  further := nofun
  above := nofun
  found m hm s haway := by
    obtain rfl : m = 0 := Nat.le_zero.mp hm
    cases haway.1
    exact List.mem_singleton_self t

/-- When all types of a level were left behind, the next level is the one that is known. -/
theorem Climbing.next {done far : List TypeId} (h : c.Climbing t n done [] far) :
    c.Climbing t (n + 1) done far [] where
  nodup := by simpa using h.nodup
  sorted := by simpa using h.sorted
  behind s hs := by
    obtain ⟨m, hm, haway⟩ := h.behind s hs
    exact ⟨m, Nat.le_succ_of_le hm, haway⟩
  level := h.further
  further := nofun
  above := by simpa using h.above
  found m hm s haway := by
    rcases Nat.lt_or_eq_of_le hm with hlt | rfl
    · have hdone := h.found m (Nat.le_of_lt_succ hlt) s haway
      rw [List.append_nil] at hdone
      exact List.mem_append_left _ hdone
    · obtain ⟨r, hr, hparent⟩ := haway.below
      have hdone := h.found n (Nat.le_refl n) r hr
      rw [List.append_nil] at hdone
      exact h.above r hdone s hparent

/-- One type is left behind, and what lies above it and is new comes last. -/
theorem Climbing.leave {a : TypeId} {done near far : List TypeId}
    (h : c.Climbing t n done (a :: near) far) :
    c.Climbing t n (done ++ [a]) near (far ++ ((c.parents a).filter fun s =>
      !(done ++ (a :: near ++ far)).contains s).eraseDups) := by
  generalize hfresh : ((c.parents a).filter fun s =>
    !(done ++ (a :: near ++ far)).contains s).eraseDups = fresh
  have hmem : ∀ u, u ∈ fresh ↔ u ∈ c.parents a ∧ u ∉ done ++ (a :: near ++ far) := by
    intro u
    rw [← hfresh, List.mem_eraseDups, List.mem_filter]
    simp
  have hsame : done ++ [a] ++ (near ++ (far ++ fresh)) = done ++ (a :: near ++ far) ++ fresh := by
    simp
  -- a new type is not as near as those of this level, or it would have been seen
  have hnew : ∀ u ∈ fresh, c.IsAway t (n + 1) u := by
    intro u hu
    obtain ⟨hparent, hunseen⟩ := (hmem u).mp hu
    refine ⟨.up (h.level a List.mem_cons_self).1 hparent, fun m hm hsteps => hunseen ?_⟩
    obtain ⟨k, hk, haway⟩ := hsteps.shortest
    have hseen := h.found k (Nat.le_of_lt_succ (Nat.lt_of_le_of_lt hk hm)) u haway
    rw [← List.append_assoc]
    exact List.mem_append_left _ hseen
  refine ⟨?_, ?_, ?_, ?_, ?_, ?_, ?_⟩
  · rw [hsame]
    refine List.nodup_append.mpr ⟨h.nodup, hfresh ▸ nodup_eraseDups _, ?_⟩
    rintro x hx y hy rfl
    exact ((hmem x).mp hy).2 hx
  · rw [hsame]
    refine List.pairwise_append.mpr ⟨h.sorted, ?_, fun x hx y hy => ?_⟩
    · exact List.pairwise_of_forall_mem_list fun x hx y hy =>
        ⟨n + 1, n + 1, Nat.le_refl _, hnew x hx, hnew y hy⟩
    · rcases List.mem_append.mp hx with hdone | hqueue
      · obtain ⟨m, hm, haway⟩ := h.behind x hdone
        exact ⟨m, n + 1, Nat.le_succ_of_le hm, haway, hnew y hy⟩
      · rcases List.mem_append.mp hqueue with hnear | hfar
        · exact ⟨n, n + 1, Nat.le_succ n, h.level x hnear, hnew y hy⟩
        · exact ⟨n + 1, n + 1, Nat.le_refl _, h.further x hfar, hnew y hy⟩
  · intro s hs
    rcases List.mem_append.mp hs with hold | hlast
    · exact h.behind s hold
    · rw [List.mem_singleton.mp hlast]
      exact ⟨n, Nat.le_refl n, h.level a List.mem_cons_self⟩
  · exact fun s hs => h.level s (List.mem_cons_of_mem _ hs)
  · intro s hs
    rcases List.mem_append.mp hs with hold | hlast
    · exact h.further s hold
    · exact hnew s hlast
  · intro s hs u hu
    rw [hsame]
    rcases List.mem_append.mp hs with hold | hlast
    · exact List.mem_append_left _ (h.above s hold u hu)
    · rw [List.mem_singleton.mp hlast] at hu
      by_cases hseen : u ∈ done ++ (a :: near ++ far)
      · exact List.mem_append_left _ hseen
      · exact List.mem_append_right _ ((hmem u).mpr ⟨hu, hseen⟩)
  · intro m hm s haway
    have hseen := h.found m hm s haway
    simpa using hseen

/-- Every type seen is the first one or in the table, so no more can be seen than that. -/
theorem Climbing.length_le (hc : c.Grounded t) {done near far : List TypeId}
    (h : c.Climbing t n done near far) :
    (done ++ (near ++ far)).length ≤ c.types.size + 1 := by
  have hinside : ∀ {k s}, c.Steps t k s → s ∈ t :: List.range c.types.size := by
    intro k s hsteps
    cases k with
    | zero =>
      cases hsteps
      exact List.mem_cons_self
    | succ k => exact List.mem_cons_of_mem _ (List.mem_range.mpr (hc k s hsteps))
  have hsubset : done ++ (near ++ far) ⊆ t :: List.range c.types.size := by
    intro s hs
    rcases List.mem_append.mp hs with hdone | hqueue
    · obtain ⟨m, -, haway⟩ := h.behind s hdone
      exact hinside haway.1
    · rcases List.mem_append.mp hqueue with hnear | hfar
      · exact hinside (h.level s hnear).1
      · exact hinside (h.further s hfar).1
  have hlength := (List.subperm_of_subset h.nodup hsubset).length_le
  simpa using hlength

/-- The climb goes on until everything that was seen is left behind. -/
theorem climb_ok (hc : c.Grounded t) {fuel : Nat} {done near far : List TypeId}
    (h : c.Climbing t n done near far) (hfuel : c.types.size + 1 ≤ fuel + done.length) :
    (∃ m, c.Climbing t m (c.climb fuel (done ++ (near ++ far)) (near ++ far)) [] []) ∧
      c.Climbs (done ++ (near ++ far)) (near ++ far)
        (c.climb fuel (done ++ (near ++ far)) (near ++ far)) := by
  induction fuel generalizing n done near far with
  | zero =>
    have hlength := h.length_le hc
    have hempty : near ++ far = [] := by
      rw [← List.length_eq_zero_iff]
      simp only [List.length_append] at hlength ⊢
      omega
    obtain ⟨rfl, rfl⟩ := List.append_eq_nil_iff.mp hempty
    refine ⟨⟨n, ?_⟩, .done⟩
    simpa [climb] using h
  | succ fuel ih =>
    have hleave : ∀ {n a near far}, c.Climbing t n done (a :: near) far →
        (∃ m, c.Climbing t m (c.climb (fuel + 1) (done ++ (a :: near ++ far)) (a :: near ++ far))
          [] []) ∧
          c.Climbs (done ++ (a :: near ++ far)) (a :: near ++ far)
            (c.climb (fuel + 1) (done ++ (a :: near ++ far)) (a :: near ++ far)) := by
      intro n a near far h
      obtain ⟨hend, hclimbs⟩ := ih h.leave (by
        simp only [List.length_append, List.length_singleton]
        omega)
      refine ⟨by simpa [climb] using hend, .on ?_⟩
      simpa [climb, unseenAbove] using hclimbs
    cases near with
    | cons a near => exact hleave h
    | nil =>
      cases far with
      | cons a far =>
        have hnext := hleave h.next
        rwa [List.append_nil] at hnext
      | nil =>
        refine ⟨⟨n, ?_⟩, .done⟩
        simpa [climb] using h

/-! ## The hierarchy -/

theorem prefix_climb (c : Catalog) (fuel : Nat) (seen queue : List TypeId) :
    seen <+: c.climb fuel seen queue := by
  induction fuel generalizing seen queue with
  | zero => exact List.prefix_refl seen
  | succ fuel ih =>
    cases queue with
    | nil => exact List.prefix_refl seen
    | cons t queue => exact (List.prefix_append seen _).trans (ih _ _)

/-- A type comes first in its hierarchy. -/
theorem hierarchy_eq_cons (c : Catalog) (t : TypeId) : ∃ rest, c.hierarchy t = t :: rest := by
  obtain ⟨rest, hrest⟩ := c.prefix_climb (c.types.size + 1) [t] [t]
  exact ⟨rest, hrest.symm⟩

/-- A type with nothing above it stands alone in its hierarchy. -/
theorem hierarchy_eq_singleton (h : c.parents t = []) : c.hierarchy t = [t] := by
  have hdone : ∀ fuel, c.climb fuel [t] [] = [t] := by
    intro fuel
    cases fuel <;> rfl
  unfold hierarchy climb
  rw [h]
  exact hdone _

/-- All types of a hierarchy were climbed over. -/
theorem climbing_hierarchy (hc : c.Grounded t) : ∃ n, c.Climbing t n (c.hierarchy t) [] [] :=
  (climb_ok hc (climbing_start c t) (Nat.le_add_right _ _)).1

/-- The climb comes to its end by itself. -/
theorem climbs_hierarchy (hc : c.Grounded t) : c.Climbs [t] [t] (c.hierarchy t) :=
  (climb_ok hc (climbing_start c t) (Nat.le_add_right _ _)).2

theorem nodup_hierarchy (hc : c.Grounded t) : (c.hierarchy t).Nodup := by
  obtain ⟨n, h⟩ := climbing_hierarchy hc
  simpa using h.nodup

theorem mem_hierarchy_iff (hc : c.Grounded t) : s ∈ c.hierarchy t ↔ ∃ n, c.Steps t n s := by
  obtain ⟨n, h⟩ := climbing_hierarchy hc
  constructor
  · intro hs
    obtain ⟨m, -, haway⟩ := h.behind s hs
    exact ⟨m, haway.1⟩
  · rintro ⟨m, hsteps⟩
    induction hsteps with
    | here =>
      have hfirst := h.found 0 (Nat.zero_le n) t ⟨.here, fun m hm => absurd hm (Nat.not_lt_zero m)⟩
      simpa using hfirst
    | up _ hparent ih =>
      have habove := h.above _ ih _ hparent
      simpa using habove

/-- No type stands before one that is less steps away. -/
theorem sorted_hierarchy (hc : c.Grounded t) :
    (c.hierarchy t).Pairwise fun a b => ∃ m n, m ≤ n ∧ c.IsAway t m a ∧ c.IsAway t n b := by
  obtain ⟨k, h⟩ := climbing_hierarchy hc
  have hsorted := h.sorted
  rwa [List.append_nil, List.append_nil] at hsorted

/-! ## Types first reached from others -/

/-- What lies above one type after the other, without the types that were seen or lie above an
earlier one. -/
def firstReached (c : Catalog) : List TypeId → List TypeId → List TypeId
  | _, [] => []
  | seen, a :: rest => c.unseenAbove seen a ++ firstReached c (seen ++ c.parents a) rest

theorem mem_unseenAbove {seen : List TypeId} {a : TypeId} :
    s ∈ c.unseenAbove seen a ↔ s ∈ c.parents a ∧ s ∉ seen := by
  unfold unseenAbove
  rw [List.mem_eraseDups, List.mem_filter]
  simp

theorem mem_firstReached {seen as : List TypeId} :
    s ∈ c.firstReached seen as ↔ s ∉ seen ∧ ∃ a ∈ as, s ∈ c.parents a := by
  induction as generalizing seen with
  | nil => simp [firstReached]
  | cons a as ih =>
    rw [firstReached, List.mem_append, mem_unseenAbove, ih, List.exists_mem_cons_iff,
      List.mem_append]
    tauto

theorem firstReached_append (c : Catalog) (seen as bs : List TypeId) :
    c.firstReached seen (as ++ bs) =
      c.firstReached seen as ++ c.firstReached (seen ++ as.flatMap c.parents) bs := by
  induction as generalizing seen with
  | nil => simp [firstReached]
  | cons a as ih => simp [firstReached, ih]

/-- Only whether a type was seen counts, not where it stands among those that were. -/
theorem unseenAbove_congr {seen seen' : List TypeId} (h : ∀ s, s ∈ seen ↔ s ∈ seen') (a : TypeId) :
    c.unseenAbove seen a = c.unseenAbove seen' a := by
  unfold unseenAbove
  congr 1
  refine List.filter_congr fun s _ => ?_
  rw [Bool.eq_iff_iff]
  simpa using not_congr (h s)

/-- The climb adds to the types seen what is first reached from those it leaves behind. -/
theorem Climbs.firstReached {seen queue all : List TypeId} (h : c.Climbs seen queue all)
    (done : List TypeId) (hseen : seen = done ++ queue)
    (hreached : seen = t :: c.firstReached [t] done) : all = t :: c.firstReached [t] all := by
  induction h generalizing done with
  | done =>
    rw [List.append_nil] at hseen
    rw [hseen] at hreached ⊢
    exact hreached
  | @on a seen queue all _ ih =>
    refine ih (done ++ [a]) (by rw [hseen]; simp) ?_
    have hsame : c.unseenAbove seen a = c.unseenAbove ([t] ++ done.flatMap c.parents) a := by
      refine unseenAbove_congr (fun s => ?_) a
      rw [hreached, List.mem_cons, mem_firstReached, List.mem_append, List.mem_flatMap,
        List.mem_singleton]
      tauto
    rw [firstReached_append, hsame, ← List.cons_append, ← hreached]
    simp [Catalog.firstReached]

/-- The hierarchy lists a type and whatever lies above it, each type once and none before a nearer
one. The climb comes to an end by itself, circles or not, and lists together what it first reaches
from one type, interfaces in their order and then the superclass. -/
theorem hierarchy_is_climbed_breadth_first (hc : c.Grounded t) :
    c.Climbs [t] [t] (c.hierarchy t) ∧ (c.hierarchy t).Nodup ∧ (c.hierarchy t).head? = some t ∧
      (∀ s, s ∈ c.hierarchy t ↔ ∃ n, c.Steps t n s) ∧
      ((c.hierarchy t).Pairwise fun a b => ∃ m n, m ≤ n ∧ c.IsAway t m a ∧ c.IsAway t n b) ∧
      c.hierarchy t = t :: c.firstReached [t] (c.hierarchy t) := by
  have hclimbs := climbs_hierarchy hc
  obtain ⟨rest, hrest⟩ := c.hierarchy_eq_cons t
  refine ⟨hclimbs, nodup_hierarchy hc, ?_, fun s => mem_hierarchy_iff hc, sorted_hierarchy hc, ?_⟩
  · rw [hrest]
    rfl
  · exact hclimbs.firstReached [] rfl rfl

/-- A class with two interfaces and a superclass. Its first interface leads back to it, and the
superclass leads to the other interface and where that leads. -/
def circle : Catalog where
  types := #[
    { package := "p", packageName := "p", name := "Button", kind := .object,
      interfaces := [some 1, none, some 2], super := some 3 },
    { package := "p", packageName := "p", name := "Pressed", kind := .interface,
      interfaces := [some 0] },
    { package := "p", packageName := "p", name := "Focused", kind := .interface,
      interfaces := [some 4, some 1] },
    { package := "p", packageName := "p", name := "Widget", kind := .object,
      interfaces := [some 2], super := some 4 },
    { package := "p", packageName := "p", name := "Shown", kind := .interface }]

theorem grounded_circle : circle.Grounded 0 := grounded_of_parents (by decide) 0

theorem circle_is_climbed_breadth_first :
    circle.Grounded 0 ∧ circle.hierarchy 0 = [0, 1, 2, 3, 4] ∧
      circle.Climbs [0] [0] [0, 1, 2, 3, 4] ∧ (∀ s, s ∈ [0, 1, 2, 3, 4] ↔ ∃ n, circle.Steps 0 n s) ∧
      [0, 1, 2, 3, 4] = 0 :: circle.firstReached [0] [0, 1, 2, 3, 4] := by
  have hhierarchy : circle.hierarchy 0 = [0, 1, 2, 3, 4] := by decide
  obtain ⟨hclimbs, -, -, hmem, -, hreached⟩ := hierarchy_is_climbed_breadth_first grounded_circle
  rw [hhierarchy] at hclimbs hmem hreached
  exact ⟨grounded_circle, hhierarchy, hclimbs, hmem, hreached⟩

end Catalog

end ViewBinder
