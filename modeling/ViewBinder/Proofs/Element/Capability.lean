-- Rules of one capability. The first entry on the way up from a type counts for its capability, and
-- the way up is ordered by the number of steps. So a rule gives way to that of a type to which
-- fewer steps lead, but not to that of every subtype: an interface can be repeated further down.
import Mathlib.Data.List.Basic
import Mathlib.Tactic.Push
import ViewBinder.Element.Rule
import ViewBinder.Proofs.Catalog.Hierarchy

namespace ViewBinder

namespace Rule

/-! ## Entries that count -/

/-- An entry counts if it is the first of its capability. -/
theorem mem_claim_iff {kept es : List RuleEntry} {b : RuleEntry} :
    b ∈ claim kept es ↔ b ∈ kept ∨ ((∀ e ∈ kept, e.capability ≠ b.capability) ∧
      es.find? (·.capability == b.capability) = some b) := by
  induction es generalizing kept with
  | nil => simp [claim]
  | cons e es ih =>
    unfold claim
    by_cases hsame : e.capability = b.capability
    · rw [List.find?_cons_of_pos (by simpa using hsame)]
      split
      · rename_i htaken
        rw [ih]
        simp only [List.any_eq_true, beq_iff_eq, hsame] at htaken
        grind
      · rename_i hfree
        rw [ih]
        simp only [List.any_eq_true, beq_iff_eq, hsame] at hfree
        grind
    · rw [List.find?_cons_of_neg (by simpa using hsame)]
      split
      · exact ih
      · rw [ih]
        grind

/-! ## Types with entries -/

/-- The entry is for the type. -/
def IsFor (c : Catalog) (e : RuleEntry) (t : TypeId) : Prop := e ∈ entriesFor (c.decl t)

theorem isFor_iff {c : Catalog} {e : RuleEntry} {t : TypeId} :
    IsFor c e t ↔ e ∈ table ∧ e.package = (c.decl t).package ∧ e.name = (c.decl t).name := by
  unfold IsFor entriesFor
  rw [List.mem_filter]
  simp

/-- No two entries of the table are for one type, and no two have one rule. -/
theorem table_apart : (table.map fun e => (e.package, e.name)).Nodup ∧ (table.map (·.rule)).Nodup := by
  decide

theorem IsFor.unique {c : Catalog} {e e' : RuleEntry} {t : TypeId} (h : IsFor c e t)
    (h' : IsFor c e' t) : e = e' := by
  obtain ⟨he, hpackage, hname⟩ := isFor_iff.mp h
  obtain ⟨he', hpackage', hname'⟩ := isFor_iff.mp h'
  refine List.inj_on_of_nodup_map table_apart.1 he he' ?_
  rw [hpackage, hname, hpackage', hname']

theorem IsFor.inside {c : Catalog} {e : RuleEntry} {t : TypeId} (h : IsFor c e t) :
    t < c.types.size := by
  by_contra hout
  have hnone : entriesFor (c.decl t) = [] := by
    unfold Catalog.decl
    rw [Array.getElem?_eq_none (Nat.not_lt.mp hout)]
    decide
  unfold IsFor at h
  rw [hnone] at h
  cases h

/-- An entry is for one type only. -/
theorem IsFor.type_unique {c : Catalog} (hc : c.Linked) {e : RuleEntry} {s t : TypeId}
    (hs : IsFor c e s) (ht : IsFor c e t) : s = t := by
  obtain ⟨-, hpackage, hname⟩ := isFor_iff.mp hs
  obtain ⟨-, hpackage', hname'⟩ := isFor_iff.mp ht
  have hkey : (c.decl s).key = (c.decl t).key := by
    unfold TypeDecl.key
    rw [← hpackage, ← hname, hpackage', hname']
  have hknown := hc.known s hs.inside
  rw [hkey, hc.known t ht.inside, Option.some.injEq] at hknown
  exact hknown.symm

/-! ## Rules that are followed -/

theorem mem_chain_iff {c : Catalog} {t : TypeId} {e : RuleEntry} (he : e ∈ table) :
    e.rule ∈ chain c t ↔ e ∈ entriesOf c t := by
  have hgeneral : ∀ e ∈ table, e.rule ∉ [attributeMessages, childTags] ∧
      e.rule ∉ [properties, nothingLeft] := by
    decide
  have hentries : ∀ e ∈ entriesOf c t, e ∈ table := by
    intro e he
    rcases mem_claim_iff.mp he with hnone | ⟨-, hfound⟩
    · cases hnone
    · obtain ⟨s, -, hs⟩ := List.mem_flatMap.mp (List.mem_of_find?_eq_some hfound)
      exact (isFor_iff.mp hs).1
  unfold chain
  simp only [List.mem_append, (hgeneral e he).1, (hgeneral e he).2, false_or, or_false,
    List.mem_map]
  constructor
  · rintro ⟨other, hother, hrule⟩
    rwa [← List.inj_on_of_nodup_map table_apart.2 (hentries other hother) he hrule]
  · exact fun hmem => ⟨e, hmem, rfl⟩

/-- A rule is followed if its type is on the way up and no type with a rule of the same capability
comes before it. -/
theorem mem_chain_iff_first {c : Catalog} (hc : c.Linked) {t : TypeId} {b : RuleEntry} {s : TypeId}
    (hb : IsFor c b s) : b.rule ∈ chain c t ↔ ∃ before after, c.hierarchy t = before ++ s :: after ∧
      ∀ r ∈ before, ∀ e, IsFor c e r → e.capability ≠ b.capability := by
  have hfound : ∀ {r}, (entriesFor (c.decl r)).find? (·.capability == b.capability) = some b →
      r = s := by
    intro r hr
    exact IsFor.type_unique hc (List.mem_of_find?_eq_some hr) hb
  have hown : (entriesFor (c.decl s)).find? (·.capability == b.capability) = some b := by
    cases hfind : (entriesFor (c.decl s)).find? (·.capability == b.capability) with
    | none =>
      rw [List.find?_eq_none] at hfind
      exact absurd (beq_self_eq_true _) (hfind b hb)
    | some e => rw [IsFor.unique (List.mem_of_find?_eq_some hfind) hb]
  have hnone : ∀ r, (entriesFor (c.decl r)).find? (·.capability == b.capability) = none ↔
      ∀ e, IsFor c e r → e.capability ≠ b.capability := by
    intro r
    rw [List.find?_eq_none]
    simp only [beq_iff_eq, IsFor]
  rw [mem_chain_iff (isFor_iff.mp hb).1]
  unfold entriesOf
  rw [mem_claim_iff, List.find?_flatMap, List.findSome?_eq_some_iff]
  simp only [hnone]
  constructor
  · rintro (hmem | ⟨-, before, r, after, hhierarchy, hr, hbefore⟩)
    · cases hmem
    · rw [hfound hr] at hhierarchy
      exact ⟨before, after, hhierarchy, hbefore⟩
  · rintro ⟨before, after, hhierarchy, hbefore⟩
    exact Or.inr ⟨nofun, before, s, after, hhierarchy, hown, hbefore⟩

/-- Some way up to the first type is shorter than every way up to the second. -/
def Nearer (c : Catalog) (t r s : TypeId) : Prop :=
  ∀ n, c.Steps t n s → ∃ m < n, c.Steps t m r

theorem Nearer.before {c : Catalog} (hc : c.Linked) {t r s : TypeId} (h : Nearer c t r s)
    {before after : List TypeId} (hhierarchy : c.hierarchy t = before ++ s :: after) :
    r ∈ before := by
  have hmem : ∀ {x}, x ∈ c.hierarchy t ↔ x ∈ before ++ s :: after := by simp [hhierarchy]
  have hgrounded := hc.grounded t
  obtain ⟨n, hsteps⟩ := (Catalog.mem_hierarchy_iff hgrounded).mp (hmem.mpr (by simp : s ∈ _))
  -- the shortest way to the second type
  obtain ⟨k, -, haway⟩ := hsteps.shortest
  obtain ⟨m, hm, hr⟩ := h k haway.1
  have hr' := hmem.mp ((Catalog.mem_hierarchy_iff hgrounded).mpr ⟨m, hr⟩)
  rcases List.mem_append.mp hr' with hbefore | hrest
  · exact hbefore
  · have hsorted := Catalog.sorted_hierarchy hgrounded
    rw [hhierarchy] at hsorted
    have hnot : ¬ c.Steps t m s := haway.2 m hm
    rcases List.mem_cons.mp hrest with rfl | hafter
    · exact absurd hr hnot
    · have hlater := (List.pairwise_cons.mp (List.pairwise_append.mp hsorted).2.1).1 r hafter
      obtain ⟨i, j, hij, hs, hfar⟩ := hlater
      have hshorter : i ≤ m := Nat.le_trans hij (Nat.not_lt.mp fun hlt => hfar.2 m hlt hr)
      exact absurd hs.1 (haway.2 i (Nat.lt_of_le_of_lt hshorter hm))

/-- Where a type stands in the hierarchy says whether its rule is followed. -/
theorem mem_chain_iff_of_split {c : Catalog} (hc : c.Linked) {t : TypeId} {b : RuleEntry}
    {s : TypeId} (hb : IsFor c b s) {before after : List TypeId}
    (hhierarchy : c.hierarchy t = before ++ s :: after) :
    b.rule ∈ chain c t ↔ ∀ q ∈ before, ∀ e, IsFor c e q → e.capability ≠ b.capability := by
  rw [mem_chain_iff_first hc hb]
  constructor
  · rintro ⟨before', after', hother, hfree⟩
    have hnodup := Catalog.nodup_hierarchy (hc.grounded t)
    rw [hhierarchy, List.nodup_middle, List.nodup_cons, List.mem_append, not_or] at hnodup
    rw [hhierarchy, List.append_cons_inj_of_notMem hnodup.1.1 hnodup.1.2] at hother
    rw [hother.1]
    exact hfree
  · exact fun hfree => ⟨before, after, hhierarchy, hfree⟩

/-- Two types with rules of one capability lie above a type. A rule is left out exactly if the way
up comes to a type with a rule of the capability before; so it is if the other type is nearer, and
if it is followed, then the other type comes later and its rule is left out. -/
theorem first_rule_of_a_capability_counts (ms : List Manifest) {c : Catalog}
    (hc : c = ms.foldl Catalog.loading Catalog.bare) {t r s : TypeId} {a b : RuleEntry}
    (ha : IsFor c a r) (hb : IsFor c b s) (hcapability : a.capability = b.capability)
    (hne : r ≠ s) (hr : r ∈ c.hierarchy t) (hs : s ∈ c.hierarchy t) :
    ∃ before after, c.hierarchy t = before ++ s :: after ∧
      (b.rule ∉ chain c t ↔ ∃ q ∈ before, ∃ e, IsFor c e q ∧ e.capability = b.capability) ∧
      (Nearer c t r s → b.rule ∉ chain c t) ∧
      (b.rule ∈ chain c t → r ∈ after ∧ a.rule ∉ chain c t) := by
  have hlinked : c.Linked := hc ▸ Catalog.linked_loadings ms
  obtain ⟨before, after, hhierarchy⟩ := List.append_of_mem hs
  have hfirst := mem_chain_iff_of_split hlinked hb hhierarchy
  refine ⟨before, after, hhierarchy, ?_, ?_, ?_⟩
  · rw [hfirst]
    push Not
    rfl
  · intro hnearer hfollowed
    exact hfirst.mp hfollowed r (hnearer.before hlinked hhierarchy) a ha hcapability
  · intro hfollowed
    have hlater : r ∈ after := by
      rw [hhierarchy] at hr
      rcases List.mem_append.mp hr with hbefore | hrest
      · exact absurd hcapability (hfirst.mp hfollowed r hbefore a ha)
      · exact (List.mem_cons.mp hrest).resolve_left hne
    refine ⟨hlater, fun hother => ?_⟩
    obtain ⟨between, last, rfl⟩ := List.append_of_mem hlater
    have hsplit : c.hierarchy t = (before ++ s :: between) ++ r :: last := by
      rw [hhierarchy, List.append_assoc, List.cons_append]
    have hunique := (mem_chain_iff_of_split hlinked ha hsplit).mp hother s (by simp) b hb
    exact hunique hcapability.symm

/-! ## An interface that is repeated -/

/-- A panel of markup, and a panel below it that names the interface of the first once more. -/
def repeatingManifests : List Manifest :=
  [{ package := Library.uiPackage,
     types :=
       [{ name := "HasWidgets", kind := "interface" },
        { name := "HTMLPanel", kind := "class", interfaces := [Library.ui "HasWidgets"] }] },
   { package := "example.com/m",
     types :=
       [{ name := "P", kind := "class", super := Library.ui "HTMLPanel",
          interfaces := [Library.ui "HasWidgets"] }] }]

/-- The catalog of those panels. -/
def repeatingCatalog : Catalog := repeatingManifests.foldl Catalog.loading Catalog.bare

theorem panels_of_repeatingCatalog :
    repeatingCatalog.find? Library.uiPackage "HasWidgets" = some 29 ∧
      repeatingCatalog.find? Library.uiPackage "HTMLPanel" = some 30 ∧
      repeatingCatalog.find? "example.com/m" "P" = some 31 ∧
      IsFor repeatingCatalog (widget "HTMLPanel" .children .markupPanel) 30 ∧
      IsFor repeatingCatalog (widget "HasWidgets" .children .widgets) 29 ∧
      30 ∈ repeatingCatalog.hierarchy 31 ∧ 29 ∈ repeatingCatalog.hierarchy 31 ∧
      29 ∈ repeatingCatalog.hierarchy 30 ∧ widgets ∈ chain repeatingCatalog 31 := by
  unfold IsFor
  decide

/-- What is known of the two rules for the panel below. -/
theorem rules_of_repeatingCatalog : ∃ before after,
    repeatingCatalog.hierarchy 31 = before ++ 29 :: after ∧
      (widgets ∉ chain repeatingCatalog 31 ↔
        ∃ q ∈ before, ∃ e, IsFor repeatingCatalog e q ∧ e.capability = .children) ∧
      (Nearer repeatingCatalog 31 30 29 → widgets ∉ chain repeatingCatalog 31) ∧
      (widgets ∈ chain repeatingCatalog 31 →
        30 ∈ after ∧ markupPanel ∉ chain repeatingCatalog 31) := by
  obtain ⟨-, -, -, hpanel, hwidgets, habove, hinterface, -, -⟩ := panels_of_repeatingCatalog
  exact first_rule_of_a_capability_counts repeatingManifests rfl hpanel hwidgets rfl (by decide)
    habove hinterface

/-- The rule for a panel of markup gives way to that of the interface above it. -/
theorem repeated_interface_comes_first : ∃ (t r s : TypeId) (a b : RuleEntry),
    IsFor repeatingCatalog a r ∧ IsFor repeatingCatalog b s ∧ a.capability = b.capability ∧
      r ≠ s ∧ r ∈ repeatingCatalog.hierarchy t ∧ s ∈ repeatingCatalog.hierarchy t ∧
      s ∈ repeatingCatalog.hierarchy r ∧ b.rule ∈ chain repeatingCatalog t := by
  obtain ⟨-, -, -, hpanel, hwidgets, habove, hinterface, hbelow, hrule⟩ := panels_of_repeatingCatalog
  exact ⟨31, 30, 29, _, _, hpanel, hwidgets, rfl, by decide, habove, hinterface, hbelow, hrule⟩

end Rule

end ViewBinder
