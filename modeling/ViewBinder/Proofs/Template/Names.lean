-- Names of locals. Every local of a program is a plain identifier of its own, and hides none of the
-- imports that were known when names were checked. What is not checked are the blank identifier,
-- the primitives that no identifier avoids, the generated types, and imports that come later.
import ViewBinder.Proofs.Program.Generated
import ViewBinder.Proofs.Template.Phases

namespace ViewBinder

open Markup (Document)

/-! ## Usable names -/

/-- The primitives whose names a local may have. -/
def unguarded : List Text := primitiveNames.filter fun name => !Text.isTaken name

namespace Template

open Assembly (isRecordName)

/-- A local of that name can be declared, and hides nothing the program needs: no import, no
primitive, nothing that the program names itself, and no type that it makes a value of. -/
structure Usable (s : Session) (p : Program) (name : Text) : Prop where
  plain : Text.IsPlainName name
  read : name ≠ "_"
  imports : ∀ entry ∈ p.imports.list, entry.2 ≠ name
  owner : name ≠ "owner"
  record : isRecordName name = false
  primitive : name ∉ primitiveNames
  bundle : s.bundle.size ≠ 0 → name ≠ s.bundle.name
  messages : s.messages.declared ≠ [] → name ≠ s.messages.name

/-- The locals of a program are plain identifiers, each of one local, and none is the name of the
owner, of a record or of an import that was known when names were checked. Imports that come later
are for types of styles only; but for their names, the blank identifier, unguarded primitives and
generated types, every local is usable. -/
theorem locals_are_usable_iff {t : Template} {c : Catalog} {settings : Settings}
    {supply : Nat → Nat} {document : Document} {compiled : Compiled} {s : Session}
    (hsupply : Function.Injective supply)
    (h : (t.compileDocument settings).runOn (t.start c settings supply document) =
      (.ok compiled, s)) :
    compiled.program.locals.Nodup ∧ ∃ known late,
      compiled.program.imports.names = known ++ late ∧
        (∀ entry ∈ late, entry.1 ∈ s.bundle.packages s.catalog) ∧
        ∀ name ∈ compiled.program.locals, Text.IsPlainName name ∧ name ≠ "owner" ∧
          isRecordName name = false ∧ (∀ entry ∈ known, entry.2 ≠ name) ∧
          (Usable s compiled.program name ↔
            name ≠ "_" ∧ name ∉ unguarded ∧ (∀ entry ∈ late, entry.2 ≠ name) ∧
              (s.bundle.size ≠ 0 → name ≠ s.bundle.name) ∧
              (s.messages.declared ≠ [] → name ≠ s.messages.name)) := by
  obtain ⟨built, root, hstages⟩ := compileDocument_stages hsupply h
  have hwell := hstages.wellFormed
  have hinside : ∀ id ∈ s.fields.declarationOrder, id < s.fields.fields.size := fun id hid =>
    List.mem_range.mp ((FieldTable.declarationOrder_perm _).mem_iff.mp hid)
  obtain ⟨d, d', bundle, hcatalog, hbundle, hchecked, hdeclared, himports, -⟩ :=
    hstages.assembled.bundle
  obtain ⟨late, hnames, hlate⟩ := (Draft.bundleDeclarations_ok hdeclared).2
  rw [himports, ← hstages.assembled.imports] at hnames
  rw [hbundle, hcatalog] at hlate
  refine ⟨?_, d.imports.names, late, hnames, hlate, fun name hname => ?_⟩
  · rw [hstages.assembled.locals]
    refine (List.nodup_map_iff_inj_on ?_).mpr fun a ha b hb hab => ?_
    · exact (FieldTable.declarationOrder_perm _).nodup_iff.mpr List.nodup_range
    · exact hwell.unique a (hinside a ha) b (hinside b hb) hab
  · rw [hstages.assembled.locals] at hname
    obtain ⟨id, hid, rfl⟩ := List.mem_map.mp hname
    have hplain := hwell.plain id (hinside id hid)
    obtain ⟨hknown, howner, hrecord⟩ :=
      Assembly.nameProblem?_eq_none (hchecked id (hinside id hid))
    refine ⟨hplain, howner, hrecord, hknown, fun hu => ?_, fun hu => ?_⟩
    · refine ⟨hu.read, fun hmem => hu.primitive (List.mem_filter.mp hmem).1, ?_, hu.bundle,
        hu.messages⟩
      intro entry hentry
      refine hu.imports entry (Assembly.mem_list.mpr ?_)
      rw [hnames]
      exact List.mem_append_right _ hentry
    · obtain ⟨hread, hprimitive, hfree, hbundled, hmessages⟩ := hu
      refine ⟨hplain, hread, fun entry hentry => ?_, howner, hrecord, fun hmem => ?_, hbundled,
        hmessages⟩
      · have hmem := Assembly.mem_list.mp hentry
        rw [hnames] at hmem
        exact (List.mem_append.mp hmem).elim (hknown entry) (hfree entry)
      · exact hprimitive (List.mem_filter.mpr ⟨hmem, by rw [hplain.free]; rfl⟩)

/-! ## A local that hides a primitive -/

/-- The sample library with docks, and a package of data. -/
def dockManifests : List Manifest :=
  sampleManifests ++
    [{ package := Library.uiPackage,
       types :=
         [{ name := "DockLayoutPanel", kind := "class", interfaces := [Library.ui "IsWidget"],
            constructors := [{ name := "NewDockLayoutPanel" }] }] },
     { package := "example.com/m",
       types :=
         [{ name := "Data", kind := "class", methods := [{ name := "Size", returns := "int" }],
            constructors := [{ name := "NewData" }] }] }]

/-- The catalog of that library. -/
def dockCatalog : Catalog := dockManifests.foldl Catalog.loading Catalog.bare

/-- A dock with the name of a number type, and a side of a size that is converted to that type. -/
def sizedDock : Template :=
  { source := "<ui:UiBinder xmlns:ui=\"urn:ui:uibind\" xmlns:g=\"urn:import:uibind.dev/ui\">" ++
      "<ui:with field=\"s\" type=\"example.com/m.Data\"/>" ++
      "<g:DockLayoutPanel ui:field=\"float64\"><g:north size=\"\x7bs.size\x7d\"><g:Label/>" ++
      "</g:north></g:DockLayoutPanel></ui:UiBinder>",
    url := "View.ui.xml" }

theorem sizedDock_compiles : ∃ document compiled s,
    Document.load sizedDock.source sizedDock.url = .ok document ∧
      (sizedDock.compileDocument sampleSettings).runOn
        (sizedDock.start dockCatalog sampleSettings (· + 1) document) = (.ok compiled, s) ∧
      compiled.program.locals.contains "float64" = true := by
  have h : sizedDock.succeeds (fun document => (sizedDock.compileDocument sampleSettings).runOn
      (sizedDock.start dockCatalog sampleSettings (· + 1) document))
      (fun _ compiled _ => compiled.program.locals.contains "float64") = true := by
    decide +kernel
  exact exists_of_succeeds h

/-- What is known of the locals of that program. -/
theorem locals_of_sizedDock : ∃ document compiled s,
    Function.Injective (· + 1 : Nat → Nat) ∧
      (sizedDock.compileDocument sampleSettings).runOn
        (sizedDock.start dockCatalog sampleSettings (· + 1) document) = (.ok compiled, s) ∧
      compiled.program.locals.Nodup ∧ ∀ name ∈ compiled.program.locals,
        Text.IsPlainName name ∧ name ≠ "owner" ∧ isRecordName name = false := by
  obtain ⟨document, compiled, s, -, hrun, -⟩ := sizedDock_compiles
  have hsupply : Function.Injective (· + 1 : Nat → Nat) := fun _ _ h => Nat.succ.inj h
  obtain ⟨hnodup, known, late, -, -, hlocals⟩ := locals_are_usable_iff hsupply hrun
  refine ⟨document, compiled, s, hsupply, hrun, hnodup, fun name hname => ?_⟩
  obtain ⟨hplain, howner, hrecord, -⟩ := hlocals name hname
  exact ⟨hplain, howner, hrecord⟩

/-- The local of the dock hides the primitive that the size is converted to. -/
theorem sizedDock_hides_a_primitive : ∃ document compiled s,
    Document.load sizedDock.source sizedDock.url = .ok document ∧
      (sizedDock.compileDocument sampleSettings).runOn
        (sizedDock.start dockCatalog sampleSettings (· + 1) document) = (.ok compiled, s) ∧
      ∃ name ∈ compiled.program.locals,
        name ∈ primitiveNames ∧ ¬ Usable s compiled.program name := by
  obtain ⟨document, compiled, s, hload, hrun, hlocal⟩ := sizedDock_compiles
  have hprimitive : Text.ofString "float64" ∈ primitiveNames := by decide
  exact ⟨document, compiled, s, hload, hrun, "float64", List.contains_iff_mem.mp hlocal,
    hprimitive, fun husable => husable.primitive hprimitive⟩

end Template

end ViewBinder
