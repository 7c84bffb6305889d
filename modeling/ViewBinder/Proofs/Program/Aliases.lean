-- Packages told apart by their names. A name that was claimed gets the number of its claims, and
-- whether another package has the numbered name already is not looked at: two packages share a name
-- exactly if that happens once. It never happens where no wanted name is another one with digits
-- behind it.
import ViewBinder.Proofs.Program.Imports
import ViewBinder.Proofs.Text.Basic

namespace ViewBinder.Imports

/-! ## One package more -/

/-- The name a package would have if no other package claimed it. -/
def wanted (path preferred : Text) : Text :=
  Text.sanitize (if preferred.isEmpty then Path.base path else preferred)

/-- A name as the next package gets it: with a number if it was claimed. -/
def numbered (im : Imports) (name : Text) : Text :=
  if im.claimed name = 0 then name else name ++ Text.ofNat (im.claimed name + 1)

/-- The package is imported and has no name yet. -/
def IsNew (im : Imports) (path : Text) : Prop :=
  (path.isEmpty || path == im.self) = false ∧ im.names.lookup path = none

theorem claimed_setClaimed (im : Imports) (name other : Text) (n : Nat) :
    (im.setClaimed name n).claimed other = if other = name then n else im.claimed other := by
  unfold claimed setClaimed
  rw [List.lookup_cons]
  by_cases h : other = name
  · simp [h]
  · have hfilter : ∀ claims : List (Text × Nat),
        (claims.filter (·.1 != name)).lookup other = claims.lookup other := by
      intro claims
      induction claims with
      | nil => rfl
      | cons c claims ih =>
        by_cases hc : c.1 = name
        · have hother : (other == c.1) = false := by simp [hc, h]
          rw [List.filter_cons_of_neg (by simp [hc]), ih, List.lookup_cons, hother]
        · rw [List.filter_cons_of_pos (by simp [hc]), List.lookup_cons, List.lookup_cons, ih]
    rw [beq_eq_false_iff_ne.mpr h, if_neg h]
    simp only [hfilter]

/-- What a new package changes: it gets its wanted name as the next one does, and the name it wanted
and the name it got are claimed once more. -/
theorem IsNew.add {im : Imports} {path : Text} (h : im.IsNew path) (preferred : Text) :
    (im.add path preferred).1 = im.numbered (wanted path preferred) ∧
    (im.add path preferred).2.names =
      im.names ++ [(path, im.numbered (wanted path preferred))] ∧
    ∀ name, (im.add path preferred).2.claimed name = im.claimed name +
      ((if name = im.numbered (wanted path preferred) then 1 else 0) +
        if name = wanted path preferred ∧ im.claimed name ≠ 0 then 1 else 0) := by
  obtain ⟨hself, hnone⟩ := h
  unfold Imports.add
  rw [hself, hnone]
  simp only [Bool.false_eq_true, if_false]
  show _ ∧ _ ∧ _
  generalize hw : wanted path preferred = w
  unfold wanted at hw
  rw [hw]
  unfold numbered
  by_cases hzero : im.claimed w = 0
  · simp only [hzero, beq_self_eq_true, if_true, true_and]
    refine ⟨rfl, fun name => ?_⟩
    show (im.setClaimed w (0 + 1)).claimed name = _
    rw [claimed_setClaimed]
    split
    · rename_i hname
      simp [hname, hzero]
    · rename_i hname
      simp [hname]
  · have hcount : (im.claimed w == 0) = false := beq_eq_false_iff_ne.mpr hzero
    simp only [hcount, Bool.false_eq_true, if_false, hzero, true_and]
    refine ⟨rfl, fun name => ?_⟩
    generalize hgot : w ++ Text.ofNat (im.claimed w + 1) = got
    show ((im.setClaimed w (im.claimed w + 1)).setClaimed got _).claimed name = _
    have hother : got ≠ w := by
      rw [← hgot]
      exact fun heq => (Text.isDigitByte_ofNat _).1 (List.append_right_eq_self.mp heq)
    rw [claimed_setClaimed, claimed_setClaimed, claimed_setClaimed, if_neg hother]
    by_cases hname : name = got
    · simp [hname, hother]
    · by_cases hwanted : name = w
      · simp [hwanted, hzero, hother.symm]
      · simp [hname, hwanted]

/-! ## Names that are shared -/

/-- The package gets a name that another one has: its wanted name was claimed, and with the number
of the claim behind it is already in use. -/
def Clashes (im : Imports) (path preferred : Text) : Prop :=
  im.IsNew path ∧ im.claimed (wanted path preferred) ≠ 0 ∧
    wanted path preferred ++ Text.ofNat (im.claimed (wanted path preferred) + 1) ∈
      im.names.map (·.2)

/-- Different packages have different names. -/
def Distinct (im : Imports) : Prop :=
  ∀ e ∈ im.list, ∀ e' ∈ im.list, e.1 ≠ e'.1 → e.2 ≠ e'.2

/-- The names that were claimed are the names of packages. -/
def Tallied (im : Imports) : Prop := ∀ name, im.claimed name ≠ 0 ↔ name ∈ im.names.map (·.2)

theorem mem_list {im : Imports} {e : Text × Text} : e ∈ im.list ↔ e ∈ im.names :=
  (sortBy_perm _ _).mem_iff

theorem add_of_not_isNew {im : Imports} {path : Text} (h : ¬ im.IsNew path) (preferred : Text) :
    (im.add path preferred).2 = im := by
  unfold IsNew at h
  unfold Imports.add
  split
  · rfl
  · rename_i hself
    split
    · rfl
    · rename_i hnone
      exact absurd ⟨by simpa using hself, hnone⟩ h

theorem Tallied.add {im : Imports} (h : im.Tallied) (path preferred : Text) :
    (im.add path preferred).2.Tallied := by
  by_cases hnew : im.IsNew path
  · obtain ⟨-, hnames, hclaimed⟩ := hnew.add preferred
    intro name
    rw [hnames, hclaimed, List.map_append, List.mem_append, List.map_singleton,
      List.mem_singleton, ← h name]
    by_cases hgot : name = im.numbered (wanted path preferred)
    · simp [hgot]
    · by_cases hzero : im.claimed name = 0 <;> simp [hgot, hzero]
  · rw [add_of_not_isNew hnew]
    exact h

/-- The name a package gets is another one's exactly if the package clashes. -/
theorem Tallied.numbered_mem_iff {im : Imports} (h : im.Tallied) {path : Text}
    (hnew : im.IsNew path) (preferred : Text) :
    im.numbered (wanted path preferred) ∈ im.names.map (·.2) ↔ im.Clashes path preferred := by
  unfold numbered Clashes
  by_cases hzero : im.claimed (wanted path preferred) = 0
  · rw [if_pos hzero]
    refine iff_of_false (fun hmem => ?_) fun hclash => hclash.2.1 hzero
    exact (h _).mpr hmem hzero
  · rw [if_neg hzero]
    exact ⟨fun hmem => ⟨hnew, hzero, hmem⟩, fun hclash => hclash.2.2⟩

/-- One package more leaves the names distinct unless it clashes. -/
theorem Tallied.distinct_add_iff {im : Imports} (h : im.Tallied) (path preferred : Text) :
    (im.add path preferred).2.Distinct ↔ im.Distinct ∧ ¬ im.Clashes path preferred := by
  by_cases hnew : im.IsNew path
  · obtain ⟨-, hnames, -⟩ := hnew.add preferred
    have hpath : ∀ e ∈ im.names, e.1 ≠ path := fun e he heq =>
      bne_iff_ne.mp (List.lookup_eq_none_iff.mp hnew.2 e he) heq.symm
    rw [← h.numbered_mem_iff hnew]
    unfold Distinct
    simp only [mem_list, hnames, List.mem_append, List.mem_singleton]
    constructor
    · refine fun hdistinct => ⟨fun e he e' he' => hdistinct e (.inl he) e' (.inl he'), ?_⟩
      intro hmem
      obtain ⟨e, he, hname⟩ := List.mem_map.mp hmem
      exact hdistinct e (.inl he) _ (.inr rfl) (hpath e he) hname
    · rintro ⟨hdistinct, hname⟩ e (he | rfl) e' (he' | rfl) hne
      · exact hdistinct e he e' he' hne
      · exact fun heq => hname (List.mem_map.mpr ⟨e, he, heq⟩)
      · exact fun heq => hname (List.mem_map.mpr ⟨e', he', heq.symm⟩)
      · exact absurd rfl hne
  · rw [add_of_not_isNew hnew]
    exact ⟨fun hdistinct => ⟨hdistinct, fun hclash => hnew hclash.1⟩, And.left⟩

/-! ## Many packages -/

/-- The imports with packages added one after the other, each with the name it prefers. -/
def addAll (im : Imports) (packages : List (Text × Text)) : Imports :=
  packages.foldl (fun im p => (im.add p.1 p.2).2) im

theorem Known.addAll {im : Imports} {path name : Text} (h : im.Known path name)
    (packages : List (Text × Text)) : (im.addAll packages).Known path name := by
  induction packages generalizing im with
  | nil => exact h
  | cons p packages ih => exact ih (h.add p.1 p.2)

/-- Packages have distinct names if none of them clashes with those before it. -/
theorem Tallied.distinct_addAll_iff {im : Imports} (h : im.Tallied)
    (packages : List (Text × Text)) :
    (im.addAll packages).Distinct ↔ im.Distinct ∧ ∀ before path preferred after,
      packages = before ++ (path, preferred) :: after →
        ¬ (im.addAll before).Clashes path preferred := by
  induction packages generalizing im with
  | nil =>
    refine (and_iff_left fun before path preferred after hsplit => ?_).symm
    cases before <;> cases hsplit
  | cons p packages ih =>
    show ((im.add p.1 p.2).2.addAll packages).Distinct ↔ _
    rw [ih (h.add p.1 p.2), h.distinct_add_iff, and_assoc]
    refine and_congr_right fun _ => ?_
    constructor
    · rintro ⟨hfirst, hrest⟩ before path preferred after hsplit
      cases before with
      | nil =>
        cases hsplit
        exact hfirst
      | cons q before =>
        obtain ⟨rfl, hrest'⟩ := List.cons.inj hsplit
        exact hrest before path preferred after hrest'
    · intro hall
      refine ⟨hall [] p.1 p.2 packages rfl, fun before path preferred after hsplit => ?_⟩
      exact hall (p :: before) path preferred after (by rw [hsplit]; rfl)

/-! ## Names with numbers -/

/-- Every name was wanted, or it is a wanted name with the number of one of its claims. -/
def Numbered (asked : Text → Prop) (im : Imports) : Prop :=
  ∀ name ∈ im.names.map (·.2), asked name ∨
    ∃ w k, asked w ∧ k ≤ im.claimed w ∧ name = w ++ Text.ofNat k

/-- No name is another one with digits behind it. -/
def Apart (asked : Text → Prop) : Prop :=
  ∀ w w', asked w → asked w' → ∀ digits : Text, digits ≠ [] →
    digits.all Text.isDigitByte = true → w ≠ w' ++ digits

theorem Numbered.add {asked : Text → Prop} {im : Imports} (h : Numbered asked im)
    {path preferred : Text} (hasked : asked (wanted path preferred)) :
    Numbered asked (im.add path preferred).2 := by
  by_cases hnew : im.IsNew path
  · obtain ⟨-, hnames, hclaimed⟩ := hnew.add preferred
    intro name hname
    rw [hnames, List.map_append, List.mem_append, List.map_singleton, List.mem_singleton] at hname
    rcases hname with hold | rfl
    · refine (h name hold).imp_right ?_
      rintro ⟨w, k, hw, hle, rfl⟩
      exact ⟨w, k, hw, by rw [hclaimed]; omega, rfl⟩
    · by_cases hzero : im.claimed (wanted path preferred) = 0
      · refine .inl ?_
        unfold numbered
        rwa [if_pos hzero]
      · refine .inr ⟨_, _, hasked, ?_, by unfold numbered; rw [if_neg hzero]⟩
        rw [hclaimed]
        simp only [hzero, ne_eq, not_false_eq_true, and_self, if_true]
        omega
  · rw [add_of_not_isNew hnew]
    exact h

/-- Of two names that are the same with digits behind them, neither goes on where the other ends. -/
theorem Apart.middle {asked : Text → Prop} (h : Apart asked) {w mid rest : Text} (hw : asked w)
    (hlong : asked (w ++ mid)) (hdigits : (mid ++ rest).all Text.isDigitByte = true) :
    mid = [] := by
  rw [List.all_append, Bool.and_eq_true] at hdigits
  by_contra hne
  exact h _ _ hlong hw mid hne hdigits.1 rfl

theorem Numbered.not_clashes {asked : Text → Prop} {im : Imports} (h : Numbered asked im)
    (hapart : Apart asked) {path preferred : Text} (hasked : asked (wanted path preferred)) :
    ¬ im.Clashes path preferred := by
  rintro ⟨-, -, hmem⟩
  generalize wanted path preferred = w at hasked hmem
  obtain ⟨hne, hdigits⟩ := Text.isDigitByte_ofNat (im.claimed w + 1)
  rcases h _ hmem with hname | ⟨w', k, hw', hle, heq⟩
  · exact hapart _ _ hname hasked _ hne hdigits rfl
  · have hdigits' := (Text.isDigitByte_ofNat k).2
    have hsame : w = w' := by
      rcases List.append_eq_append_iff.mp heq with ⟨mid, rfl, hmid⟩ | ⟨mid, rfl, hmid⟩
      · rw [hapart.middle hasked hw' (hmid ▸ hdigits), List.append_nil]
      · rw [hapart.middle hw' hasked (hmid ▸ hdigits'), List.append_nil]
    subst hsame
    -- the number of this claim is larger than that of all before
    have hnumber := congrArg Text.digitsValue (List.append_cancel_left heq)
    rw [Text.digitsValue_ofNat, Text.digitsValue_ofNat] at hnumber
    omega

theorem Numbered.addAll {asked : Text → Prop} {im : Imports} (h : Numbered asked im)
    {packages : List (Text × Text)} (hasked : ∀ p ∈ packages, asked (wanted p.1 p.2)) :
    Numbered asked (im.addAll packages) := by
  induction packages generalizing im with
  | nil => exact h
  | cons p packages ih =>
    exact ih (h.add (hasked p List.mem_cons_self)) fun q hq => hasked q (List.mem_cons_of_mem _ hq)

/-! ## Names of packages -/

/-- A package keeps the name it first got. Different packages have different names exactly if none
wants a claimed name that is in use with the number of the claim behind it, which is so whenever no
wanted name is another one with digits behind it. -/
theorem packages_share_names_iff (self : Text) (packages : List (Text × Text)) :
    (∀ before path preferred between again,
      ((addAll { self } (before ++ (path, preferred) :: between)).add path again).1 =
        ((addAll { self } before).add path preferred).1) ∧
    ((addAll { self } packages).Distinct ↔ ∀ before path preferred after,
      packages = before ++ (path, preferred) :: after →
        ¬ (addAll { self } before).Clashes path preferred) ∧
    (Apart (fun name => ∃ p ∈ packages, wanted p.1 p.2 = name) →
      (addAll { self } packages).Distinct) := by
  have htallied : Tallied { self } := fun name => by simp [claimed]
  have hempty : Distinct { self } := fun e he => absurd (mem_list.mp he) List.not_mem_nil
  have hiff := htallied.distinct_addAll_iff packages
  rw [and_iff_right hempty] at hiff
  refine ⟨?_, hiff, fun hapart => hiff.mpr ?_⟩
  · intro before path preferred between again
    have hknown := known_add (addAll { self } before) path preferred
    have hlater := hknown.addAll between
    unfold addAll at hlater ⊢
    rw [List.foldl_append, List.foldl_cons, hlater.add_eq]
  · intro before path preferred after hsplit
    refine Numbered.not_clashes (Numbered.addAll (fun _ h => by cases h) ?_) hapart ?_
    · exact fun p hp => ⟨p, hsplit ▸ List.mem_append_left _ hp, rfl⟩
    · exact ⟨_, hsplit ▸ List.mem_append_right _ List.mem_cons_self, rfl⟩

/-- The third package gets the name that the second one asked for. -/
theorem numbered_name_is_shared :
    (addAll { self := "app" } [("a", "x"), ("b", "x2"), ("c", "x")]).list =
      ([("a", "x"), ("b", "x2"), ("c", "x2")] : List (Text × Text)) ∧
    ¬ (addAll { self := "app" } [("a", "x"), ("b", "x2"), ("c", "x")]).Distinct := by
  have hlist : (addAll { self := "app" } [("a", "x"), ("b", "x2"), ("c", "x")]).list =
      ([("a", "x"), ("b", "x2"), ("c", "x2")] : List (Text × Text)) := rfl
  refine ⟨hlist, fun hdistinct => ?_⟩
  unfold Distinct at hdistinct
  rw [hlist] at hdistinct
  exact hdistinct ("b", "x2") (by simp) ("c", "x2") (by simp) (by decide) rfl

end ViewBinder.Imports
