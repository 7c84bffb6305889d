-- Types of fields that are shared with the owner. What a local holds can be used where the field of
-- the owner is expected, whichever of the two is assigned to the other; so a local that fills a
-- field fits, and one that is taken from a field of a wider type does not.
import ViewBinder.Proofs.Template.Owner

namespace ViewBinder

open Markup (Document)

/-- Two different types of which each stands above the other, or is any type at all. -/
def Catalog.Circular (c : Catalog) (s t : TypeId) : Prop :=
  (c.decl s).key ≠ (c.decl t).key ∧
    (c.isAny t ∨ ∃ r ∈ c.hierarchy s, (c.decl r).key = (c.decl t).key) ∧
    (c.isAny s ∨ ∃ r ∈ c.hierarchy t, (c.decl r).key = (c.decl s).key)

namespace Catalog

variable {c : Catalog} {s t : TypeId}

theorem isAssignable_some_iff : c.isAssignable (some s) (some t) = true ↔
    (c.decl s).key = (c.decl t).key ∨ c.isAny t ∨
      ∃ r ∈ c.hierarchy s, (c.decl r).key = (c.decl t).key := by
  simp [isAssignable, or_assoc]

theorem isSome_of_isAssignable {s t : Option TypeId} (h : c.isAssignable s t = true) :
    s.isSome = true ∧ t.isSome = true := by
  unfold isAssignable at h
  split at h
  · exact ⟨rfl, rfl⟩
  · cases h

/-- What can be used one way can be used the other way if both types are one, or go in a circle. -/
theorem isAssignable_back_iff (h : c.isAssignable (some s) (some t) = true) :
    c.isAssignable (some t) (some s) = true ↔ (c.decl s).key = (c.decl t).key ∨ c.Circular s t := by
  rw [isAssignable_some_iff] at h ⊢
  by_cases hkey : (c.decl s).key = (c.decl t).key
  · exact iff_of_true (.inl hkey.symm) (.inl hkey)
  · rw [or_iff_right (Ne.symm hkey), or_iff_right hkey]
    exact ⟨fun hback => ⟨hkey, h.resolve_left hkey, hback⟩, fun hcircular => hcircular.2.2⟩

end Catalog

namespace Template

open Binding (FillsOwner fillLine filling?)

/-- The line that fills a field of the owner is written unless its local is provided. -/
theorem Stages.fillLine_mem_iff {t : Template} {settings : Settings} {c : Catalog}
    {supply : Nat → Nat} {document : Document} {built s : Session} {root : FieldId}
    {compiled : Compiled}
    (h : Stages t settings (t.start c settings supply document) built s root compiled)
    {owner : TypeId} (howner : t.owner = some owner) {u : UiField}
    (hu : u ∈ (c.describe owner).uiFields) {id : FieldId} (hfind : s.fields.find? u.name = some id) :
    fillLine u.name (s.fields.field id).name ∈ compiled.program.trailing ↔
      (s.fields.field id).provided = false := by
  have hid := (FieldTable.byName?_eq_some hfind).1
  have hfilling := Binding.filling?_of_find? hfind
  constructor
  · intro hmem
    have hfills : FillsOwner u.name (fillLine u.name (s.fields.field id).name) :=
      ⟨_, fun hblank => absurd ((h.wellFormed.plain id hid).part _ hblank) (by decide), rfl⟩
    obtain ⟨v, -, hname, hwritten⟩ := (h.mem_trailing_iff howner).mp ⟨hmem, hfills⟩
    obtain ⟨other, hother, hprovided, -⟩ := Binding.filling?_eq_some hwritten
    rw [hname, hfind, Option.some.injEq] at hother
    rw [hother]
    exact hprovided
  · intro hprovided
    rw [hprovided] at hfilling
    exact ((h.mem_trailing_iff howner).mpr ⟨u, hu, rfl, hfilling⟩).1

/-- The line that takes a local from a field of the owner is written where the local is provided and
was declared by the name of the field, and nowhere else unless the text of the line is ambiguous. -/
theorem Stages.takeLine_mem {t : Template} {settings : Settings} {c : Catalog}
    {supply : Nat → Nat} {document : Document} {built s : Session} {root : FieldId}
    {compiled : Compiled}
    (h : Stages t settings (t.start c settings supply document) built s root compiled)
    (hdone : Done compiled s) {owner : TypeId} (howner : t.owner = some owner) (owned : Text)
    {id : FieldId} (hid : id < s.fields.fields.size) :
    ((s.fields.field id).provided = true → (s.fields.field id).declared = owned →
      (s.fields.field id).name ++ " = " ++ ("owner." ++ owned) ∈ compiled.program.construct) ∧
    ((s.fields.field id).name ++ " = " ++ ("owner." ++ owned) ∈ compiled.program.construct →
      ((s.fields.field id).provided = true ∧ (s.fields.field id).declared = owned) ∨
        Ambiguous s owned) := by
  constructor
  · rintro hprovided rfl
    obtain ⟨v, -, -, hname, hmade⟩ := h.provided howner hid hprovided
    rw [hdone.mem_construct_iff hid, hmade, hname]
  · intro htaken
    have hmade := (hdone.mem_construct_iff hid).mp htaken
    refine (h.provided_of_owned hid hmade).imp_left fun hprovided => ⟨hprovided, ?_⟩
    obtain ⟨v, -, -, hname, hmade'⟩ := h.provided howner hid hprovided
    rw [hmade, Option.some.injEq] at hmade'
    rw [← hname]
    exact (List.append_cancel_left hmade').symm

/-- Every typed field of the owner has a local of its name, whose type can be used where that of the
field is expected, and which fills the field unless it is provided; so what fills a field is well
typed. The local is taken from the field if it is provided and was declared by the very name. The
same was checked there, so that line is well typed only if both have one type, or types that go in
a circle. -/
theorem owner_fields_fit_what_fills_them {t : Template} {c : Catalog} {settings : Settings}
    {supply : Nat → Nat} {document : Document} {compiled : Compiled} {s : Session} {owner : TypeId}
    (hsupply : Function.Injective supply)
    (h : (t.compileDocument settings).runOn (t.start c settings supply document) =
      (.ok compiled, s))
    (howner : t.owner = some owner) :
    ∀ u ∈ (c.describe owner).uiFields, u.type.isSome = true →
      ∃ id < s.fields.fields.size, ∃ held owned : TypeId,
        (s.fields.field id).name = Text.sanitize u.name ∧
        (s.fields.field id).type = some held ∧ u.type = some owned ∧
        s.catalog.isAssignable held owned = true ∧
        (fillLine u.name (s.fields.field id).name ∈ compiled.program.trailing ↔
          (s.fields.field id).provided = false) ∧
        ((s.fields.field id).provided = true → (s.fields.field id).declared = u.name →
          (s.fields.field id).name ++ " = " ++ ("owner." ++ u.name) ∈ compiled.program.construct) ∧
        ((s.fields.field id).name ++ " = " ++ ("owner." ++ u.name) ∈ compiled.program.construct →
          (((s.fields.field id).provided = true ∧ (s.fields.field id).declared = u.name) ∨
            Ambiguous s u.name) ∧
          (s.catalog.isAssignable owned held = true ↔
            (s.catalog.decl held).key = (s.catalog.decl owned).key ∨
              s.catalog.Circular held owned)) := by
  intro u hu htyped
  have hdone := compileDocument_done hsupply h
  obtain ⟨built, root, hstages⟩ := compileDocument_stages hsupply h
  obtain ⟨id, hfind, hfits⟩ := (hstages.trailing howner).1 u hu
  obtain ⟨hid, hname⟩ := FieldTable.byName?_eq_some hfind
  have hassignable := hfits htyped
  obtain ⟨held, hlocal⟩ :=
    Option.isSome_iff_exists.mp (Catalog.isSome_of_isAssignable hassignable).1
  obtain ⟨owned, howned⟩ := Option.isSome_iff_exists.mp htyped
  rw [hlocal, howned] at hassignable
  obtain ⟨htake, htaken⟩ := hstages.takeLine_mem hdone howner u.name hid
  exact ⟨id, hid, held, owned, hname, hlocal, howned, hassignable,
    hstages.fillLine_mem_iff howner hu hfind, htake,
    fun hline => ⟨htaken hline, Catalog.isAssignable_back_iff hassignable⟩⟩

/-! ## A provided field of a wider type -/

/-- The sample library, and an owner that provides a label as some widget. -/
def widerManifests : List Manifest :=
  sampleManifests ++
    [{ package := "example.com/app",
       types :=
         [{ name := "View", kind := "class",
            traits :=
              { uiFields :=
                  [{ name := "label", type := Library.ui "IsWidget", provided := true }] } }] }]

/-- The catalog of that library. -/
def widerCatalog : Catalog := widerManifests.foldl Catalog.loading Catalog.bare

/-- The label of that owner. -/
def widerLabel : Template :=
  { source := "<ui:UiBinder xmlns:ui=\"urn:ui:uibind\" xmlns:g=\"urn:import:uibind.dev/ui\">" ++
      "<g:Label ui:field=\"label\"/></ui:UiBinder>",
    url := "View.ui.xml", owner := widerCatalog.find? "example.com/app" "View" }

theorem widerLabel_compiles : ∃ owner u document compiled s,
    widerLabel.owner = some owner ∧ (widerCatalog.describe owner).uiFields = [u] ∧
      u.name = "label" ∧ u.type.isSome = true ∧
      Document.load widerLabel.source widerLabel.url = .ok document ∧
      (widerLabel.compileDocument sampleSettings).runOn
        (widerLabel.start widerCatalog sampleSettings (· + 1) document) = (.ok compiled, s) ∧
      compiled.program.construct.contains "label = owner.label" = true ∧
      (s.fields.find? "label").any (fun id =>
        s.catalog.isAssignable u.type (s.fields.field id).type == false) = true := by
  have hfields : (widerLabel.owner.bind fun owner : TypeId =>
      (widerCatalog.describe owner).uiFields.head?.map fun u =>
        ((widerCatalog.describe owner).uiFields.length, u.name, u.type)) =
        some (1, Text.ofString "label", widerCatalog.find? Library.uiPackage "IsWidget") := by
    decide +kernel
  have hdeclared : (widerCatalog.find? Library.uiPackage "IsWidget").isSome = true := by
    decide +kernel
  have h : widerLabel.succeeds (fun document =>
      (widerLabel.compileDocument sampleSettings).runOn
        (widerLabel.start widerCatalog sampleSettings (· + 1) document))
      (fun _ compiled s => compiled.program.construct.contains "label = owner.label" &&
        (s.fields.find? "label").any fun id =>
          s.catalog.isAssignable (widerCatalog.find? Library.uiPackage "IsWidget")
            (s.fields.field id).type == false) = true := by
    decide +kernel
  obtain ⟨owner, howner, hfields⟩ := Option.bind_eq_some_iff.mp hfields
  obtain ⟨u, hu, hshape⟩ := Option.map_eq_some_iff.mp hfields
  obtain ⟨hlength, hname, htype⟩ : _ ∧ _ ∧ _ := by simpa using hshape
  obtain ⟨v, hv⟩ := List.length_eq_one_iff.mp hlength
  rw [hv, List.head?_cons, Option.some.injEq] at hu
  obtain ⟨document, compiled, s, hload, hrun, htest⟩ := exists_of_succeeds h
  rw [Bool.and_eq_true, ← htype] at htest
  exact ⟨owner, u, document, compiled, s, howner, hu ▸ hv, hname, htype ▸ hdeclared, hload, hrun,
    htest⟩

/-- What is known of the field of that owner. -/
theorem owner_fields_of_widerLabel : ∃ owner u document compiled s,
    Function.Injective (· + 1 : Nat → Nat) ∧
      (widerLabel.compileDocument sampleSettings).runOn
        (widerLabel.start widerCatalog sampleSettings (· + 1) document) = (.ok compiled, s) ∧
      widerLabel.owner = some owner ∧ u ∈ (widerCatalog.describe owner).uiFields ∧
      u.type.isSome = true ∧
      ∃ id < s.fields.fields.size, ∃ held owned : TypeId,
        (s.fields.field id).name = Text.sanitize u.name ∧
        (s.fields.field id).type = some held ∧ u.type = some owned ∧
        s.catalog.isAssignable held owned = true ∧
        (fillLine u.name (s.fields.field id).name ∈ compiled.program.trailing ↔
          (s.fields.field id).provided = false) ∧
        ((s.fields.field id).provided = true → (s.fields.field id).declared = u.name →
          (s.fields.field id).name ++ " = " ++ ("owner." ++ u.name) ∈ compiled.program.construct) ∧
        ((s.fields.field id).name ++ " = " ++ ("owner." ++ u.name) ∈ compiled.program.construct →
          (((s.fields.field id).provided = true ∧ (s.fields.field id).declared = u.name) ∨
            Ambiguous s u.name) ∧
          (s.catalog.isAssignable owned held = true ↔
            (s.catalog.decl held).key = (s.catalog.decl owned).key ∨
              s.catalog.Circular held owned)) := by
  obtain ⟨owner, u, document, compiled, s, howner, hu, -, htyped, -, hrun, -⟩ := widerLabel_compiles
  have hsupply : Function.Injective (· + 1 : Nat → Nat) := fun _ _ h => Nat.succ.inj h
  have hmem : u ∈ (widerCatalog.describe owner).uiFields := by
    rw [hu]
    exact List.mem_singleton_self u
  exact ⟨owner, u, document, compiled, s, hsupply, hrun, howner, hmem, htyped,
    owner_fields_fit_what_fills_them hsupply hrun howner u hmem htyped⟩

/-- The label is taken from the field of the owner, which cannot be used as a label. -/
theorem widerLabel_is_taken_as_a_label : ∃ owner document compiled s,
    widerLabel.owner = some owner ∧
      Document.load widerLabel.source widerLabel.url = .ok document ∧
      (widerLabel.compileDocument sampleSettings).runOn
        (widerLabel.start widerCatalog sampleSettings (· + 1) document) = (.ok compiled, s) ∧
      ∃ u ∈ (widerCatalog.describe owner).uiFields, u.type.isSome = true ∧
        ∃ id, s.fields.find? u.name = some id ∧
          (s.fields.field id).name ++ " = " ++ ("owner." ++ u.name) ∈ compiled.program.construct ∧
          s.catalog.isAssignable u.type (s.fields.field id).type = false := by
  obtain ⟨owner, u, document, compiled, s, howner, hu, hname, htyped, hload, hrun, htaken, hill⟩ :=
    widerLabel_compiles
  obtain ⟨id, hfind, hill⟩ := (Option.any_eq_true _ _).mp hill
  refine ⟨owner, document, compiled, s, howner, hload, hrun, u, ?_, htyped, id, ?_, ?_, ?_⟩
  · rw [hu]
    exact List.mem_singleton_self u
  · rw [hname]
    exact hfind
  · have hline : Text.sanitize (Text.ofString "label") ++ " = " ++ ("owner." ++ Text.ofString "label")
        = Text.ofString "label = owner.label" := by
      decide
    rw [(FieldTable.byName?_eq_some hfind).2, hname]
    exact hline ▸ List.contains_iff_mem.mp htaken
  · simpa using hill

end Template

end ViewBinder
