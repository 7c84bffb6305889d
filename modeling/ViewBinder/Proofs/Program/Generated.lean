-- Types that are generated beside the binder: the bundle, one for every style, and the one of the
-- messages. Each is declared with its constants and its methods. Writing the bundle may import
-- packages, but only those that the declarations of styles refer to.
import Mathlib.Data.List.Forall2
import ViewBinder.Proofs.Draft.Step
import ViewBinder.Proofs.Program.Imports

namespace ViewBinder

open Text (ofString)

/-! ## Declarations -/

/-- A declaration at the top of a generated file. -/
inductive Toplevel where
  | type (name : Text)
  | constant (name : Text)
  | method (owner name : Text)
  deriving DecidableEq, Repr

/-- The text is the declaration; comments may stand in front. -/
def Toplevel.WrittenAs : Toplevel → Text → Prop
  | type name, text => ∃ comment, text = comment ++ ("type " ++ name ++ " struct\x7b\x7d")
  | constant name, text => ∃ value, text = "const " ++ name ++ " = " ++ value
  | method owner name, text => ∃ comment params body,
      text = comment ++ ("func (*" ++ owner ++ ") " ++ name ++ "(" ++ params ++ ") " ++ body)

/-- A type that is generated beside the binder, with its constants and its methods. -/
structure GeneratedType where
  name : Text
  constants : List Text := []
  methods : List Text := []
  deriving DecidableEq, Repr

namespace GeneratedType

/-- What is declared for the type. -/
def declarations (g : GeneratedType) : List Toplevel :=
  .type g.name :: (g.constants.map .constant ++ g.methods.map (.method g.name))

/-- The names it takes at the top of the file. -/
def names (g : GeneratedType) : List Text := g.name :: g.constants

end GeneratedType

/-- The type of a style; the stylesheet is a constant. -/
def BundledStyle.generated (s : BundledStyle) (name : Text) : GeneratedType :=
  { name, constants := [Text.uncapitalize name ++ "CSS"],
    methods := Bundle.reservedAccessors ++ s.classes.map (·.accessor) }

/-- The types of a bundle; none without resources. -/
def Bundle.generated (c : Catalog) (b : Bundle) : List GeneratedType :=
  if b.size == 0 then []
  else { name := b.name, methods := b.styles.map (·.method) ++ b.others.map (·.method) } ::
    b.styles.map fun s => s.generated (c.decl s.type).name

/-- The type of the messages; none without messages. -/
def Messages.generated (ms : Messages) : List GeneratedType :=
  if ms.declared.isEmpty then []
  else [{ name := ms.name, methods := (List.range ms.declared.length).map methodName }]

/-! ## What is written -/

theorem written_renderMethod (owner method result expr : Text) :
    (Toplevel.method owner method).WrittenAs (Bundle.renderMethod owner method result expr) := by
  refine ⟨[], [], result ++ " \x7b\n\treturn " ++ expr ++ "\n\x7d", ?_⟩
  unfold Bundle.renderMethod
  have hparens : ofString "() " = ofString "(" ++ ([] ++ ofString ") ") := by decide
  simp only [hparens, List.append_assoc, List.nil_append]

theorem written_renderStyle (package name : Text) (s : BundledStyle) :
    List.Forall₂ Toplevel.WrittenAs (s.generated name).declarations
      (Bundle.renderStyle package name s) := by
  have htype : (Toplevel.type name).WrittenAs
      ("// " ++ name ++ " is the generated style of field " ++ Text.quote s.style.field ++
        ".\ntype " ++ name ++ " struct\x7b\x7d") := by
    refine ⟨"// " ++ name ++ " is the generated style of field " ++ Text.quote s.style.field ++
      ".\n", ?_⟩
    have hline : ofString ".\ntype " = ofString ".\n" ++ ofString "type " := by decide
    simp only [hline, List.append_assoc]
  refine .cons htype (.cons ⟨_, rfl⟩ ?_)
  refine .cons (written_renderMethod ..) (.cons (written_renderMethod ..) ?_)
  show List.Forall₂ _ ((s.classes.map (·.accessor)).map (Toplevel.method name))
    (s.classes.map fun c => Bundle.renderMethod name c.accessor "string" (Text.quote c.renamed))
  rw [List.map_map, List.forall₂_map_left_iff, List.forall₂_map_right_iff]
  exact List.forall₂_same.mpr fun c _ => written_renderMethod ..

theorem written_message (ms : Messages) (i : Nat) (m : Message) :
    (Toplevel.method ms.name (Messages.methodName i)).WrittenAs (ms.renderMethod i m) := by
  unfold Messages.renderMethod
  extract_lets operands body samples params
  have hresult : ofString ") string \x7b\n" = ofString ") " ++ ofString "string \x7b\n" := by
    decide
  refine ⟨"// " ++ Messages.methodName i ++ " returns " ++ Text.quote m.plainText ++ ".\n" ++
    Text.onlyIf (!m.description.isEmpty)
      ("// Description: " ++ Messages.oneLine m.description ++ "\n") ++
    Text.onlyIf (!m.meaning.isEmpty) ("// Meaning: " ++ Messages.oneLine m.meaning ++ "\n") ++
    Messages.commentLine "Examples" (Text.join ", " samples), params,
    "string \x7b\n" ++ "\treturn " ++ Text.join " + " body ++ "\n\x7d", ?_⟩
  simp only [hresult, List.append_assoc]

/-- The messages are written as their type with its methods. -/
theorem written_messages (ms : Messages) :
    List.Forall₂ Toplevel.WrittenAs (ms.generated.flatMap (·.declarations)) ms.declarations := by
  unfold Messages.generated Messages.declarations
  split
  · exact .nil
  · have hnumbers : ms.declared.zipIdx.map (·.2) = List.range ms.declared.length := by
      rw [List.zipIdx_map_snd, List.range_eq_range']
    rw [List.flatMap_singleton, ← hnumbers]
    unfold GeneratedType.declarations
    refine .cons ⟨[], rfl⟩ ?_
    rw [List.map_nil, List.nil_append, List.map_map, List.map_map, List.forall₂_map_left_iff,
      List.forall₂_map_right_iff]
    exact List.forall₂_same.mpr fun entry _ => written_message ms entry.2 entry.1

/-! ## The bundle -/

/-- The packages that the declarations of a bundle refer to: that of resources and those of the
types of styles. -/
def Bundle.packages (c : Catalog) (b : Bundle) : List Text :=
  b.styles.flatMap fun s =>
    Library.resourcesPackage :: (s.type :: s.style.type.toList).map fun t => (c.decl t).package

namespace Draft

/-- The catalog is `c`, and all that was imported after `names` are some of the packages. -/
structure ImportsOnly (c : Catalog) (names : List (Text × Text)) (packages : List Text)
    (d : Draft) : Prop where
  catalog : d.catalog = c
  late : ∃ late, d.imports.names = names ++ late ∧ ∀ entry ∈ late, entry.1 ∈ packages

variable {c : Catalog} {names : List (Text × Text)} {packages : List Text} {d d' : Draft}

theorem ImportsOnly.add (h : d.ImportsOnly c names packages) {path : Text}
    (hpath : path ∈ packages) (preferred : Text) :
    ImportsOnly c names packages { d with imports := (d.imports.add path preferred).2 } := by
  refine ⟨h.catalog, ?_⟩
  obtain ⟨late, hnames, hlate⟩ := h.late
  rcases d.imports.names_add path preferred with ⟨-, hsame⟩ | ⟨-, hnew⟩
  · exact ⟨late, (congrArg (·.names) hsame).trans hnames, hlate⟩
  · refine ⟨late ++ [(path, (d.imports.add path preferred).1)], ?_, fun entry hentry => ?_⟩
    · simp only [hnew, hnames, List.append_assoc]
    · rcases List.mem_append.mp hentry with hold | hlast
      · exact hlate entry hold
      · rw [List.mem_singleton.mp hlast]
        exact hpath

theorem ImportsOnly.importPackage {path preferred a : Text} (h : d.ImportsOnly c names packages)
    (hpath : path ∈ packages)
    (hrun : (Draft.importPackage path preferred).runOn d = (.ok a, d')) :
    d'.ImportsOnly c names packages := by
  cases hrun
  exact h.add hpath preferred

theorem ImportsOnly.typeRef {t : TypeId} {a : Text} (h : d.ImportsOnly c names packages)
    (hpath : (c.decl t).package ∈ packages)
    (hrun : (Draft.typeRef t).runOn d = (.ok a, d')) : d'.ImportsOnly c names packages := by
  cases hrun
  have hcatalog := h.catalog
  subst hcatalog
  show ImportsOnly d.catalog names packages
    { d with imports := (d.imports.typeRef (d.catalog.decl t)).2 }
  unfold Imports.typeRef
  split
  · exact h
  · exact h
  · exact h.add hpath _
  · exact h.add hpath _

/-- A bundle is written as its types with their methods, and only packages that it refers to are
imported for that. -/
theorem bundleDeclarations_ok {texts : List Text}
    (h : bundleDeclarations.runOn d = (.ok texts, d')) :
    List.Forall₂ Toplevel.WrittenAs ((d.bundle.generated d.catalog).flatMap (·.declarations))
        texts ∧
      ∃ late, d'.imports.names = d.imports.names ++ late ∧
        ∀ entry ∈ late, entry.1 ∈ d.bundle.packages d.catalog := by
  unfold bundleDeclarations at h
  obtain ⟨_, _, hget, h⟩ := Work.bind_ok h
  cases hget
  unfold Bundle.generated
  dsimp only at h
  split at h
  · rename_i hnone
    cases h
    rw [if_pos hnone]
    exact ⟨.nil, [], (List.append_nil _).symm, nofun⟩
  · rename_i hsome
    rw [if_neg hsome]
    obtain ⟨styles, d₁, hstyles, h⟩ := Work.bind_ok h
    obtain ⟨types, d₂, htypes, h⟩ := Work.bind_ok h
    cases h
    have hpackage : ∀ s ∈ d.bundle.styles,
        ∀ path ∈ Library.resourcesPackage ::
          (s.type :: s.style.type.toList).map fun t => (d.catalog.decl t).package,
        path ∈ d.bundle.packages d.catalog :=
      fun s hs path hpath => List.mem_flatMap.mpr ⟨s, hs, hpath⟩
    have hstart : d.ImportsOnly d.catalog d.imports.names (d.bundle.packages d.catalog) :=
      ⟨rfl, [], (List.append_nil _).symm, nofun⟩
    obtain ⟨hknown₁, hwritten₁⟩ := Work.mapM_ok
      (Q := fun s text => (Toplevel.method d.bundle.name s.method).WrittenAs text)
      (fun s hs d₁ text d₂ hknown hstyle => by
        obtain ⟨generated, d₃, hgenerated, hstyle⟩ := Work.bind_ok hstyle
        have hknown₃ := hknown.typeRef (hpackage s hs _ (by simp)) hgenerated
        split at hstyle
        · rename_i t htype
          obtain ⟨result, d₄, hresult, hstyle⟩ := Work.bind_ok hstyle
          have hknown₄ := hknown₃.typeRef (hpackage s hs _ (by simp [htype])) hresult
          cases hstyle
          exact ⟨hknown₄, written_renderMethod ..⟩
        · cases hstyle
          exact ⟨hknown₃, written_renderMethod ..⟩) hstart hstyles
    obtain ⟨hknown₂, hwritten₂⟩ := Work.mapM_ok
      (Q := fun s texts => List.Forall₂ Toplevel.WrittenAs
        (s.generated (d.catalog.decl s.type).name).declarations texts)
      (fun s hs d₁ texts d₂ hknown htype => by
        obtain ⟨package, d₃, himport, htype⟩ := Work.bind_ok htype
        have hknown₃ := hknown.importPackage (hpackage s hs _ (by simp)) himport
        obtain ⟨_, _, hget, htype⟩ := Work.bind_ok htype
        cases hget
        cases htype
        rw [hknown₃.catalog]
        exact ⟨hknown₃, written_renderStyle ..⟩) hknown₁ htypes
    refine ⟨?_, hknown₂.late⟩
    rw [List.flatMap_cons, List.flatMap_map]
    refine .cons ⟨[], rfl⟩ ?_
    show List.Forall₂ _ ((d.bundle.styles.map (·.method) ++ d.bundle.others.map (·.method)).map
      (Toplevel.method d.bundle.name) ++ _) _
    rw [List.map_append, List.map_map, List.map_map]
    refine List.rel_append (List.rel_append ?_ ?_) ?_
    · exact List.forall₂_map_left_iff.mpr hwritten₁
    · rw [List.forall₂_map_left_iff, List.forall₂_map_right_iff]
      exact List.forall₂_same.mpr fun f _ => written_renderMethod ..
    · rw [List.flatMap_def]
      exact List.rel_flatten (List.forall₂_map_left_iff.mpr hwritten₂)

end Draft

end ViewBinder
