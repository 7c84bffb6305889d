-- Assignability. Where types are told apart by their keys and refer to each other only, a value goes
-- wherever links lead up, and to `any`. So assignability is a preorder, on types that lie above each
-- other in circles too, and nothing lies above `any`. Every catalog that was put together from
-- manifests is of this kind.
import ViewBinder.Proofs.Catalog.Closed
import ViewBinder.Proofs.Catalog.Hierarchy

namespace ViewBinder.Catalog

variable {c : Catalog} {any s t u : TypeId} {n m : Nat}

/-- Everybody knows the type. -/
def IsShared (c : Catalog) (t : TypeId) : Prop := ∃ key, c.shared.lookup key = some t

/-- The types that everybody knows have different keys and are linked to each other only. One of them
is `any`, with nothing above it. -/
structure Ordered (c : Catalog) (any : TypeId) : Prop where
  inside : ∀ t, c.IsShared t → t < c.types.size
  distinct : ∀ s t, c.IsShared s → c.IsShared t → (c.decl s).key = (c.decl t).key → s = t
  parents : ∀ t, c.IsShared t → ∀ s ∈ c.parents t, c.IsShared s
  shared : c.shared.lookup (Text.ofString "any") = some any
  isAny : c.isAny any
  top : c.parents any = []

theorem Steps.trans (h : c.Steps s n t) (h' : c.Steps t m u) : c.Steps s (n + m) u := by
  induction h' with
  | here => exact h
  | up _ hparent ih => exact .up ih hparent

theorem Steps.isShared (hc : c.Ordered any) (hs : c.IsShared s) (h : c.Steps s n t) :
    c.IsShared t := by
  induction h with
  | here => exact hs
  | up _ hparent ih => exact hc.parents _ ih _ hparent

/-- No links lead away from `any`. -/
theorem Steps.eq_any (hc : c.Ordered any) (h : c.Steps any n t) : t = any := by
  induction h with
  | here => rfl
  | up _ hparent ih =>
    rw [ih, hc.top] at hparent
    cases hparent

theorem Ordered.grounded (hc : c.Ordered any) (hs : c.IsShared s) : c.Grounded s :=
  fun _ _ hsteps => hc.inside _ (hsteps.isShared hc hs)

theorem key_of_isAny (h : c.isAny t) : (c.decl t).key = Text.ofString "any" := by
  unfold isAny at h
  simp only [Bool.and_eq_true, beq_iff_eq] at h
  unfold TypeDecl.key keyOf
  rw [if_pos h.1.2, h.2]

theorem Ordered.isAny_iff (hc : c.Ordered any) (ht : c.IsShared t) : c.isAny t ↔ t = any := by
  constructor
  · intro h
    exact hc.distinct t any ht ⟨_, hc.shared⟩ ((key_of_isAny h).trans (key_of_isAny hc.isAny).symm)
  · rintro rfl
    exact hc.isAny

/-- A value of one type can be used where the other is expected if links lead there, or if anything
is expected. -/
theorem Ordered.isAssignable_iff (hc : c.Ordered any) (hs : c.IsShared s) (ht : c.IsShared t) :
    c.isAssignable (some s) (some t) ↔ t = any ∨ ∃ n, c.Steps s n t := by
  unfold isAssignable
  simp only [Bool.or_eq_true, beq_iff_eq, List.any_eq_true, hc.isAny_iff ht]
  constructor
  · rintro ((hkey | hany) | ⟨r, hr, hkey⟩)
    · rw [hc.distinct s t hs ht hkey]
      exact Or.inr ⟨0, .here⟩
    · exact Or.inl hany
    · obtain ⟨n, hsteps⟩ := (mem_hierarchy_iff (hc.grounded hs)).mp hr
      rw [← hc.distinct r t (hsteps.isShared hc hs) ht hkey]
      exact Or.inr ⟨n, hsteps⟩
  · rintro (hany | hsteps)
    · exact Or.inl (Or.inr hany)
    · exact Or.inr ⟨t, (mem_hierarchy_iff (hc.grounded hs)).mpr hsteps, rfl⟩

/-- Assignability is a preorder with `any` at its top: it is reflexive and transitive, everything can
be used as `any` and `any` as nothing else, and otherwise it follows the links between types. -/
theorem assignability_is_a_preorder (hc : c.Ordered any) :
    (∀ t, c.IsShared t → c.isAssignable (some t) (some t)) ∧
      (∀ s t u, c.IsShared s → c.IsShared t → c.IsShared u → c.isAssignable (some s) (some t) →
        c.isAssignable (some t) (some u) → c.isAssignable (some s) (some u)) ∧
      (∀ t, c.IsShared t → c.isAssignable (some t) (some any)) ∧
      (∀ t, c.IsShared t → c.isAssignable (some any) (some t) → t = any) ∧
      ∀ s t, c.IsShared s → c.IsShared t → t ≠ any →
        (c.isAssignable (some s) (some t) ↔ ∃ n, c.Steps s n t) := by
  have hany : c.IsShared any := ⟨_, hc.shared⟩
  refine ⟨fun t ht => ?_, fun s t u hs ht hu hst htu => ?_, fun t ht => ?_, fun t ht h => ?_,
    fun s t hs ht hne => ?_⟩
  · exact (hc.isAssignable_iff ht ht).mpr (Or.inr ⟨0, .here⟩)
  · rw [hc.isAssignable_iff hs ht] at hst
    rw [hc.isAssignable_iff ht hu] at htu
    rw [hc.isAssignable_iff hs hu]
    rcases htu with hu | ⟨m, hup⟩
    · exact Or.inl hu
    · rcases hst with rfl | ⟨n, hsteps⟩
      · exact Or.inl (hup.eq_any hc)
      · exact Or.inr ⟨n + m, hsteps.trans hup⟩
  · exact (hc.isAssignable_iff ht hany).mpr (Or.inl rfl)
  · rcases (hc.isAssignable_iff hany ht).mp h with rfl | ⟨n, hsteps⟩
    · rfl
    · exact hsteps.eq_any hc
  · rw [hc.isAssignable_iff hs ht]
    exact or_iff_right hne

/-! ## Loaded catalogs -/

/-- Loading leaves `any` as it was. -/
theorem decl_any_loadings (ms : List Manifest) :
    (ms.foldl loading bare).decl 28 = bare.decl 28 :=
  (sameBelow_loadings ms (Nat.le_refl bare.types.size)).decl (Nat.le_refl _) 28 (by decide)

/-- The types of all catalogs that are put together from manifests are told apart by their keys, and
refer to each other only. -/
theorem ordered_loadings (ms : List Manifest) : (ms.foldl loading bare).Ordered 28 := by
  have hlinked := linked_loadings ms
  have hinside : ∀ t, (ms.foldl loading bare).IsShared t → t < (ms.foldl loading bare).types.size :=
    fun t ⟨_, hfound⟩ => hlinked.shared _ (mem_of_lookup hfound)
  refine ⟨hinside, fun s t hs ht hkey => ?_, fun t _ s hs => ?_, ?_, ?_, ?_⟩
  · have hknown := hlinked.known s (hinside s hs)
    rw [hkey, hlinked.known t (hinside t ht)] at hknown
    exact (Option.some.inj hknown).symm
  · exact ⟨_, hlinked.known s (hlinked.parents t s hs)⟩
  · exact (loads_loadings bare ms).lookup (by decide)
  · unfold isAny
    rw [decl_any_loadings]
    decide
  · unfold parents
    rw [decl_any_loadings]
    decide

/-- A class with an interface that lies above another one and below it. -/
def neighbours : Manifest where
  package := "a"
  types :=
    [{ name := "Page", kind := "class", interfaces := ["a.Readable"] },
     { name := "Readable", kind := "interface", interfaces := ["a.Printable"] },
     { name := "Printable", kind := "interface", interfaces := ["a.Readable"] }]

theorem neighbours_are_a_preorder :
    (bare.loading neighbours).Ordered 28 ∧
      (∀ t ∈ [28, 29, 30, 31], (bare.loading neighbours).IsShared t) ∧
      (bare.loading neighbours).isAssignable (some 29) (some 31) ∧
      (bare.loading neighbours).isAssignable (some 31) (some 30) ∧
      (∃ n, (bare.loading neighbours).Steps 30 n 31) ∧
      ¬ (bare.loading neighbours).isAssignable (some 28) (some 29) := by
  have hordered : (bare.loading neighbours).Ordered 28 := ordered_loadings [neighbours]
  have hany : (bare.loading neighbours).IsShared 28 := ⟨_, hordered.shared⟩
  have hpage : (bare.loading neighbours).IsShared 29 := ⟨"a.Page", by decide +kernel⟩
  have hreadable : (bare.loading neighbours).IsShared 30 := ⟨"a.Readable", by decide +kernel⟩
  have hprintable : (bare.loading neighbours).IsShared 31 := ⟨"a.Printable", by decide +kernel⟩
  obtain ⟨-, htrans, -, htop, hsteps⟩ := assignability_is_a_preorder hordered
  have hfirst : (bare.loading neighbours).isAssignable (some 29) (some 30) := by decide +kernel
  have hup : (bare.loading neighbours).isAssignable (some 30) (some 31) := by decide +kernel
  refine ⟨hordered, ?_, htrans 29 30 31 hpage hreadable hprintable hfirst hup, by decide +kernel,
    (hsteps 30 31 hreadable hprintable (by decide)).mp hup, fun h => ?_⟩
  · simp [hany, hpage, hreadable, hprintable]
  · exact absurd (htop 29 hpage h) (by decide)

end ViewBinder.Catalog
