-- Layers. A layer is placed by a pair of attributes across and a pair down. The names of the pairs
-- are looked for in the order in which they first appear, over all pairs, so a pair is found only if
-- its own names appear in their order there. The last pair of each group has the width or the height
-- behind, which appeared in the first pair already: no layer is placed by it.
import Mathlib.Data.List.Sort
import ViewBinder.Proofs.Template.Phases

namespace ViewBinder

/-! ## The order of first appearance -/

section Appearance

variable {α : Type} [BEq α] [LawfulBEq α] {p : α → Bool} {a b : α}

theorem idxOf_lt_of_filter {xs : List α} (hb : p b = true)
    (h : (xs.filter p).idxOf a < (xs.filter p).idxOf b) : xs.idxOf a < xs.idxOf b := by
  induction xs with
  | nil => exact h
  | cons x xs ih =>
    by_cases hxb : x = b
    · rw [hxb, List.filter_cons_of_pos hb, List.idxOf_cons_self] at h
      omega
    · rw [List.idxOf_cons_ne _ hxb]
      by_cases hxa : x = a
      · rw [hxa, List.idxOf_cons_self]
        omega
      · rw [List.idxOf_cons_ne _ hxa]
        by_cases hx : p x = true
        · rw [List.filter_cons_of_pos hx, List.idxOf_cons_ne _ hxa, List.idxOf_cons_ne _ hxb] at h
          have := ih (by omega)
          omega
        · rw [List.filter_cons_of_neg hx] at h
          have := ih h
          omega

/-- Each once, the values stand in the order in which they first appear. -/
theorem eraseDups_pairwise (xs : List α) :
    xs.eraseDups.Pairwise fun a b => xs.idxOf a < xs.idxOf b := by
  induction hlength : xs.length using Nat.strongRecOn generalizing xs with
  | ind n ih =>
    cases xs with
    | nil => exact List.Pairwise.nil
    | cons x xs =>
      have hne : ∀ y ∈ (xs.filter fun b => !b == x).eraseDups, y ≠ x := by
        intro y hy
        have hkept := (List.mem_filter.mp (List.mem_eraseDups.mp hy)).2
        simpa using hkept
      rw [List.eraseDups_cons, List.pairwise_cons]
      constructor
      · intro y hy
        rw [List.idxOf_cons_self, List.idxOf_cons_ne _ (hne y hy).symm]
        omega
      · have hshorter : (xs.filter fun b => !b == x).length < n := by
          have := List.length_filter_le (fun b => !b == x) xs
          rw [← hlength, List.length_cons]
          omega
        refine (ih _ hshorter _ rfl).imp_of_mem fun {a b} ha hb hab => ?_
        have hlt := idxOf_lt_of_filter (by simpa using hne b hb) hab
        rw [List.idxOf_cons_ne _ (hne a ha).symm, List.idxOf_cons_ne _ (hne b hb).symm]
        omega

/-- Of some values each once, the two that pass are a pair in the order of first appearance. -/
theorem filter_eraseDups_eq_pair_iff {xs : List α} : xs.eraseDups.filter p = [a, b] ↔
    (∀ x, x ∈ xs ∧ p x = true ↔ x = a ∨ x = b) ∧ xs.idxOf a < xs.idxOf b := by
  have hordered := (eraseDups_pairwise xs).filter p
  have hmem : ∀ x, x ∈ xs.eraseDups.filter p ↔ x ∈ xs ∧ p x = true := by
    intro x
    rw [List.mem_filter, List.mem_eraseDups]
  constructor
  · intro heq
    rw [heq] at hordered hmem
    refine ⟨fun x => ?_, List.rel_of_pairwise_cons hordered List.mem_cons_self⟩
    rw [← hmem]
    simp
  · rintro ⟨hboth, hlt⟩
    have hpair : [a, b].Pairwise fun a b => xs.idxOf a < xs.idxOf b := by
      simpa using hlt
    have hnodup : ∀ {l : List α}, (l.Pairwise fun a b => xs.idxOf a < xs.idxOf b) → l.Nodup :=
      fun h => h.imp fun hlt heq => absurd hlt (by rw [heq]; omega)
    have hperm : (xs.eraseDups.filter p).Perm [a, b] := by
      rw [List.perm_ext_iff_of_nodup (hnodup hordered) (hnodup hpair)]
      intro x
      rw [hmem, hboth]
      simp
    refine hperm.eq_of_pairwise (fun x y _ _ hxy hyx => ?_) hordered hpair
    omega

end Appearance

namespace Element

open Markup (Document)

/-! ## Pairs -/

/-- The element sets a name of the pairs. -/
def SetsName (d : Document) (e : Nat) (pairs : List (Text × Text)) (name : Text) : Prop :=
  (∃ p ∈ pairs, name = p.1 ∨ name = p.2) ∧ d.has e name = true

/-- Of the names of the pairs, the element sets the two of this one. -/
def SetsPair (d : Document) (e : Nat) (pairs : List (Text × Text)) (p : Text × Text) : Prop :=
  ∀ name, SetsName d e pairs name ↔ name = p.1 ∨ name = p.2

/-- Reading pair by pair, the one name appears first in front of where the other does. -/
def ComesBefore (pairs : List (Text × Text)) (a b : Text) : Prop :=
  (pairs.flatMap fun p => [p.1, p.2]).idxOf a < (pairs.flatMap fun p => [p.1, p.2]).idxOf b

instance (pairs : List (Text × Text)) (a b : Text) : Decidable (ComesBefore pairs a b) :=
  inferInstanceAs (Decidable (_ < _))

/-- The failure of an element with other names than those of a pair. -/
def pairFailure (d : Document) (e : Nat) (pairs : List (Text × Text)) : Failure :=
  .one (Diagnostic.make .error .attributes (d.location e)
    (Problem.exactlyOnePair (d.tag e) (pairs.map fun p => p.1 ++ "/" ++ p.2)).message)

variable {e : Nat} {pairs : List (Text × Text)} {s : Session}

theorem runOn_pickPair (e : Nat) (pairs : List (Text × Text)) (s : Session) :
    (pickPair e pairs).runOn s =
      match (pairNames pairs).filter (s.document.has e) with
      | [] => (.ok none, s)
      | names =>
        match pairs.find? fun p => names == [p.1, p.2] with
        | some p => (.ok (some p), s)
        | none => (.error (pairFailure s.document e pairs), s) := by
  show (match (pairNames pairs).filter (s.document.has e) with
    | [] => pure none
    | names => match pairs.find? fun p => names == [p.1, p.2] with
      | some p => pure (some p)
      | none => Session.failOn e fun d =>
        .exactlyOnePair (d.tag e) (pairs.map fun p => p.1 ++ "/" ++ p.2) :
          Work Session (Option (Text × Text))).runOn s = _
  generalize (pairNames pairs).filter (s.document.has e) = names
  cases names with
  | nil => rfl
  | cons name names =>
    dsimp only
    generalize pairs.find? (fun p => (name :: names) == [p.1, p.2]) = found
    cases found with
    | none => rfl
    | some p => rfl

theorem mem_names_iff {d : Document} {name : Text} : name ∈ (pairNames pairs).filter (d.has e) ↔
    SetsName d e pairs name := by
  unfold pairNames SetsName
  rw [List.mem_filter, List.mem_eraseDups, List.mem_flatMap]
  simp

theorem names_eq_pair_iff {p : Text × Text} :
    (pairNames pairs).filter (s.document.has e) = [p.1, p.2] ↔
      SetsPair s.document e pairs p ∧ ComesBefore pairs p.1 p.2 := by
  unfold pairNames SetsPair SetsName ComesBefore
  rw [filter_eraseDups_eq_pair_iff]
  simp

theorem SetsPair.eq {p q : Text × Text} (hp : SetsPair s.document e pairs p)
    (hq : SetsPair s.document e pairs q) (hpq : ComesBefore pairs p.1 p.2)
    (hqp : ComesBefore pairs q.1 q.2) : p = q := by
  have hsame := (names_eq_pair_iff.mpr ⟨hp, hpq⟩).symm.trans (names_eq_pair_iff.mpr ⟨hq, hqp⟩)
  simp only [List.cons.injEq, and_true] at hsame
  exact Prod.ext hsame.1 hsame.2

/-- There are no names, or there is a pair in its order, or the element is refused. -/
theorem pickPair_cases (e : Nat) (pairs : List (Text × Text)) (s : Session) :
    (∀ name, ¬ SetsName s.document e pairs name) ∧ (pickPair e pairs).runOn s = (.ok none, s) ∨
    (∃ p ∈ pairs, SetsPair s.document e pairs p ∧ ComesBefore pairs p.1 p.2 ∧
      (pickPair e pairs).runOn s = (.ok (some p), s)) ∨
    (∃ name, SetsName s.document e pairs name) ∧
      (∀ p ∈ pairs, SetsPair s.document e pairs p → ¬ ComesBefore pairs p.1 p.2) ∧
      (pickPair e pairs).runOn s = (.error (pairFailure s.document e pairs), s) := by
  rw [runOn_pickPair]
  split
  · rename_i hnil
    refine .inl ⟨fun name hname => ?_, rfl⟩
    rw [← mem_names_iff, hnil] at hname
    cases hname
  · rename_i names hne
    split
    · rename_i p hfind
      have hnames := List.find?_some hfind
      obtain ⟨hpair, horder⟩ := names_eq_pair_iff.mp (beq_iff_eq.mp hnames)
      exact .inr (.inl ⟨p, List.mem_of_find?_eq_some hfind, hpair, horder, rfl⟩)
    · rename_i hfind
      refine .inr (.inr ⟨?_, fun p hp hpair horder => ?_, rfl⟩)
      · obtain ⟨name, hname⟩ := List.exists_mem_of_ne_nil _ hne
        exact ⟨name, mem_names_iff.mp hname⟩
      · have hno := List.find?_eq_none.mp hfind p hp
        exact hno (beq_iff_eq.mpr (names_eq_pair_iff.mpr ⟨hpair, horder⟩))

/-- The pairs of layers whose names first appear the other way round. -/
def reversedPairs : List (Text × Text) := [("right", "width"), ("bottom", "height")]

/-- A layer that sets such a pair is refused before it is placed. -/
theorem placement?_reversed {group : List (Text × Text)} {p : Text × Text}
    (hgroup : group ∈ layerPairs) (hp : p ∈ group) (hreversed : p ∈ reversedPairs)
    (hset : SetsPair s.document e group p) :
    (placement? e group).runOn s = (.error (pairFailure s.document e group), s) := by
  have honly : ∀ group ∈ layerPairs, ∀ p ∈ group, p ∈ reversedPairs → ∀ q ∈ group,
      (q.1 = p.1 ∨ q.1 = p.2) → (q.2 = p.1 ∨ q.2 = p.2) → ¬ ComesBefore group q.1 q.2 := by
    decide
  have hrefused : (pickPair e group).runOn s = (.error (pairFailure s.document e group), s) := by
    rcases pickPair_cases e group s with ⟨hno, -⟩ | ⟨q, hq, hpair, horder, -⟩ | ⟨-, -, hrun⟩
    · exact absurd ((hset p.1).mpr (.inl rfl)) (hno p.1)
    · have hfirst := (hset q.1).mp ((hpair q.1).mpr (.inl rfl))
      have hsecond := (hset q.2).mp ((hpair q.2).mpr (.inr rfl))
      exact absurd horder (honly group hgroup p hp hreversed q hq hfirst hsecond)
    · exact hrun
  have hprimitive : ∀ name, (Session.primitive name).runOn s = (.ok (s.catalog.find? [] name), s) :=
    fun _ => rfl
  have huiType : ∀ name, (Session.uiType name).runOn s =
      (.ok (s.catalog.find? Library.uiPackage name), s) :=
    fun _ => rfl
  unfold placement?
  rw [Work.runOn_bind, hprimitive]
  dsimp only
  rw [Work.runOn_bind, huiType]
  dsimp only
  rw [Work.runOn_bind, hrefused]

/-- An element without names of the pairs has no pair; one that sets the two names of a pair has it if
these first appear in their order; every other is refused. So layers are placed by some of the pairs
only, not by their right side and their width, or by their bottom and their height. -/
theorem pairs_are_found_in_their_order (e : Nat) (pairs : List (Text × Text)) (s : Session) :
    ((pickPair e pairs).runOn s = (.ok none, s) ↔
      ∀ name, ¬ SetsName s.document e pairs name) ∧
    (∀ p, (pickPair e pairs).runOn s = (.ok (some p), s) ↔
      p ∈ pairs ∧ SetsPair s.document e pairs p ∧ ComesBefore pairs p.1 p.2) ∧
    ((pickPair e pairs).runOn s = (.error (pairFailure s.document e pairs), s) ↔
      (∃ name, SetsName s.document e pairs name) ∧
        ∀ p ∈ pairs, SetsPair s.document e pairs p → ¬ ComesBefore pairs p.1 p.2) ∧
    ∀ group ∈ layerPairs, ∀ p ∈ group,
      (ComesBefore group p.1 p.2 ↔ p ∉ reversedPairs) ∧
        (p ∈ reversedPairs → SetsPair s.document e group p →
          (placement? e group).runOn s = (.error (pairFailure s.document e group), s)) := by
  have hsome : ∀ {p : Text × Text}, SetsPair s.document e pairs p →
      ∃ name, SetsName s.document e pairs name := fun {p} hp => ⟨p.1, (hp p.1).mpr (.inl rfl)⟩
  have horder : ∀ group ∈ layerPairs, ∀ p ∈ group,
      (ComesBefore group p.1 p.2 ↔ p ∉ reversedPairs) := by decide
  refine ⟨?_, fun p => ?_, ?_, fun group hgroup p hp =>
    ⟨horder group hgroup p hp, placement?_reversed hgroup hp⟩⟩
  · rcases pickPair_cases e pairs s with ⟨hno, hrun⟩ | ⟨p, _, hpair, _, hrun⟩ | ⟨hname, _, hrun⟩
    · simp [hrun, hno]
    · simpa [hrun] using hsome hpair
    · simpa [hrun] using hname
  · rcases pickPair_cases e pairs s with ⟨hno, hrun⟩ | ⟨q, hq, hpair, horder, hrun⟩ | ⟨_, hno, hrun⟩
    · rw [hrun]
      constructor
      · intro h
        cases h
      · rintro ⟨-, hpair, -⟩
        obtain ⟨name, hname⟩ := hsome hpair
        exact absurd hname (hno name)
    · rw [hrun]
      constructor
      · intro h
        cases h
        exact ⟨hq, hpair, horder⟩
      · rintro ⟨-, hpair', horder'⟩
        rw [hpair.eq hpair' horder horder']
    · rw [hrun]
      constructor
      · intro h
        cases h
      · rintro ⟨hp, hpair, horder⟩
        exact absurd horder (hno p hp hpair)
  · rcases pickPair_cases e pairs s with ⟨hno, hrun⟩ | ⟨q, hq, hpair, horder, hrun⟩ | ⟨hname, hno, hrun⟩
    · rw [hrun]
      constructor
      · intro h
        cases h
      · rintro ⟨⟨name, hname⟩, -⟩
        exact absurd hname (hno name)
    · rw [hrun]
      constructor
      · intro h
        cases h
      · rintro ⟨-, hno⟩
        exact absurd horder (hno q hq hpair)
    · rw [hrun]
      exact ⟨fun _ => ⟨hname, hno⟩, fun _ => rfl⟩

end Element

/-! ## A layer with a right side and a width -/

namespace Template

open Markup (Document)
open Element (layerPairs pairNames pairFailure SetsPair)

/-- A library with layers. -/
def layerManifests : List Manifest :=
  sampleManifests ++
    [{ package := Library.uiPackage,
       types :=
         [{ name := "Unit", kind := "enum", constants := [⟨"PX", "UnitPX"⟩] },
          { name := "LayoutPanel", kind := "class",
            interfaces := [Library.ui "IsWidget", Library.ui "HasWidgets"],
            constructors := [{ name := "NewLayoutPanel" }] }] }]

/-- The catalog of that library. -/
def layerCatalog : Catalog := layerManifests.foldl Catalog.loading Catalog.bare

/-- A label in a layer that sets two attributes. -/
def placedLabel (first second : Text) : Template :=
  { source := "<ui:UiBinder xmlns:ui=\"urn:ui:uibind\" xmlns:g=\"urn:import:uibind.dev/ui\">" ++
      "<g:LayoutPanel><g:layer " ++ first ++ "=\"1px\" " ++ second ++
      "=\"2px\"><g:Label/></g:layer></g:LayoutPanel></ui:UiBinder>",
    url := "View.ui.xml" }

/-- The element sets these names of the pairs and no other, and the template is refused for it. -/
def refusesNames (t : Template) (e : Nat) (pairs : List (Text × Text)) (names : List Text) : Bool :=
  match Document.load t.source t.url, (t.compile layerCatalog sampleSettings).answer with
  | .ok document, .error failure =>
    (pairNames pairs).filter (document.has e) == names && failure == pairFailure document e pairs
  | _, _ => false

/-- A layer sets its right side and its width, which are a pair across, and the template is refused
because they are none. -/
theorem right_and_width_place_no_layer :
    ∃ document, ∃ group ∈ layerPairs, ∃ p ∈ group,
      Document.load (placedLabel "right" "width").source "View.ui.xml" = .ok document ∧
        SetsPair document 2 group p ∧
        ((placedLabel "right" "width").compile layerCatalog sampleSettings).answer =
          .error (pairFailure document 2 group) := by
  have h : refusesNames (placedLabel "right" "width") 2
      [("left", "width"), ("left", "right"), ("right", "width")] ["width", "right"] = true := by
    decide +kernel
  unfold refusesNames at h
  split at h
  · rename_i document failure hload hanswer
    rw [Bool.and_eq_true, beq_iff_eq, beq_iff_eq] at h
    obtain ⟨hnames, rfl⟩ := h
    refine ⟨document, [("left", "width"), ("left", "right"), ("right", "width")], by decide,
      ("right", "width"), by decide, hload, fun name => ?_, hanswer⟩
    rw [← Element.mem_names_iff, hnames]
    simp [or_comm]
  · cases h

end Template

end ViewBinder
