-- Templates that crash. Where the catalog leaves no type open that work relies on, the work on a
-- template crashes in one place only: at a tree that is asked to hold a widget by a method that
-- takes none.
import ViewBinder.Proofs.Catalog.Typed
import ViewBinder.Proofs.Template.Guarded
import ViewBinder.Proofs.Template.Phases

namespace ViewBinder

open Markup (Document)
open Session
open Work (Safe SafeAt)

namespace Template

variable {t : Template} {c : Catalog} {settings : Settings} {D : Document}

/-- The session of a template when its bundle and its messages are open. -/
def opened (t : Template) (settings : Settings) (s : Session) : Session :=
  ((do
    Draft.openBundle (t.emptyBundle settings)
    Draft.openMessages settings.packagePath settings.package (t.name settings ++ "Messages") :
      Work Session Unit).runOn s).2

/-- What is left to do when a template was read: the program is put together and written. -/
def finish (t : Template) (settings : Settings) (f : FieldId) : Work Session Compiled := do
  let program ← Assembly.assemble settings t.url (t.name settings) f
  let text ← weave program
  let text := if settings.format then Layout.format text else text
  return ⟨program, text, (← get).log.warnings⟩

theorem runOn_opened (t : Template) (settings : Settings) (s : Session) :
    (t.compileDocument settings).runOn s = (do
      let f ← read 0
      t.finish settings f : Work Session Compiled).runOn (t.opened settings s) := by
  have hopens : (do
      Draft.openBundle (t.emptyBundle settings)
      Draft.openMessages settings.packagePath settings.package (t.name settings ++ "Messages") :
        Work Session Unit).runOn s = (.ok (), t.opened settings s) := rfl
  have hwork : t.compileDocument settings = (do
      (do
        Draft.openBundle (t.emptyBundle settings)
        Draft.openMessages settings.packagePath settings.package (t.name settings ++ "Messages") :
          Work Session Unit)
      let f ← read 0
      t.finish settings f) := by
    rw [bind_assoc]
    rfl
  rw [hwork, Work.runOn_bind, hopens]

theorem opens_opened (t : Template) (settings : Settings) (s : Session) :
    Opens t settings s (t.opened settings s) := opens_ok rfl rfl

/-- The types of the bundle and of the messages are the first ones the unit adds. -/
theorem guarded_opened (hc : c.Ready) (hD : D.Ordered) (t : Template) (settings : Settings)
    (supply : Nat → Nat) : Guarded D c (t.opened settings (t.start c settings supply D)) := by
  have hnone : ∀ m ∈ ([] : List Method), m.Typed := List.forall_mem_nil _
  have hfields : (t.opened settings (t.start c settings supply D)).fields.Typed :=
    ⟨fun _ h => absurd h (Nat.not_lt_zero _), List.forall_mem_nil _⟩
  have hbundle := Nat.ne_of_lt (Nat.lt_succ_self c.types.size)
  refine ⟨⟨hD, Document.SameTree.refl D, (hc.push hnone rfl).push hnone rfl,
    (Catalog.retains_push c _).trans (Catalog.retains_push _ _), hfields,
    ⟨c.types.size, ?_, rfl, ?_⟩, ⟨c.types.size + 1, ?_, ?_, ?_⟩⟩, Attribute.typed_of hc, ?_⟩
  · show _ < ((c.push _).2.push _).2.types.size
    rw [Catalog.size_push, Catalog.size_push]
    omega
  · show some (c.push _).2.types.size ≠ _
    rw [Catalog.size_push]
    exact fun h => hbundle (Option.some.inj h).symm
  · show _ < ((c.push _).2.push _).2.types.size
    rw [Catalog.size_push, Catalog.size_push]
    exact Nat.lt_succ_self _
  · show some (c.push _).2.types.size = _
    rw [Catalog.size_push]
  · show ∀ m ∈ (((c.push _).2.push _).2.decl (c.types.size + 1)).methods, _
    rw [← Catalog.size_push c, Catalog.decl_push_size]
    exact List.forall_mem_nil _
  · intro traits htraits
    obtain ⟨owner, -, rfl⟩ := Option.map_eq_some_iff.mp htraits
    exact hc.toComplete.describe owner

/-- Compiling a document keeps its session guarded, and crashes only over a bare tree. -/
theorem safeAt_compileDocument (hc : c.Ready) (hD : D.Ordered) {supply : Nat → Nat}
    (hsupply : Function.Injective supply) (t : Template) (settings : Settings) :
    SafeAt (Guarded D c) HasBareTree (t.compileDocument settings)
      (t.start c settings supply D) := by
  have hopened := guarded_opened hc hD t settings supply
  have hsound := (opens_opened t settings _).reaches.sound (sound_start t c settings hsupply D)
  have hrest : SafeAt (Guarded D c) HasBareTree (do
      let f ← read 0
      t.finish settings f) (t.opened settings (t.start c settings supply D)) := by
    have hread : Safe (Guarded D c) HasBareTree (read 0) := inferInstance
    refine SafeAt.bind (hread.safe _ hopened) fun {f s} hrun => ?_
    obtain ⟨built, -, hfinishes, -⟩ := read_ok hsound hrun
    have hknown : f < s.fields.fields.size := hfinishes.marks.size ▸ hfinishes.known
    have hassembled := Assembly.safeAt_assemble (B := HasBareTree) settings t.url (t.name settings)
      (hread.keeps hopened hrun) hknown
    unfold finish
    refine hassembled.bind fun {program s'} hassemble => ?_
    refine (?_ : Safe (Guarded D c) HasBareTree _).safe s' ?_
    · infer_instance
    · have hkept := hassembled.1
      rwa [hassemble] at hkept
  unfold SafeAt at hrest ⊢
  rw [runOn_opened]
  exact hrest

theorem checkRoot_ne_crash (d : Document) : checkRoot d ≠ .error .crash := by
  unfold checkRoot
  dsimp only
  split <;> (intro h; cases h)

/-- The catalog of a template when the work on it is over: with the types of its bundle, its messages
and its styles. -/
def unitCatalog (t : Template) (c : Catalog) (settings : Settings) (d : Document) : Catalog :=
  ((t.compileDocument settings).runOn (t.start c settings (· + 1) d)).2.catalog

/-- Compiling a template gives a program or an error that is told, if the manifests leave open no
type of a parameter, of a tag or of an attribute of the library: it crashes only if some
tree, of the library or a style of the template, has a setter of its widget that takes nothing. -/
theorem compile_crashes_only_over_a_bare_tree {ms : List Manifest}
    (hc : (ms.foldl Catalog.loading Catalog.bare).Complete) (t : Template) (settings : Settings) :
    (t.compile (ms.foldl Catalog.loading Catalog.bare) settings).answer ≠ .error .crash ∨
      ∃ d, Document.load t.source t.url = .ok d ∧
        (t.unitCatalog (ms.foldl Catalog.loading Catalog.bare) settings d).HasBareTree := by
  have hsupply : Function.Injective (· + 1 : Nat → Nat) := fun _ _ h => Nat.succ.inj h
  refine (Classical.em _).symm.imp_right fun hcrash => ?_
  unfold compile compileWith at hcrash
  split at hcrash
  · rename_i failure hfailed
    cases hcrash
    refine absurd hfailed (bind_ne_error (Document.load_ne_crash _ _) fun d =>
      bind_ne_error (checkRoot_ne_crash d) fun _ h => ?_)
    cases h
  · rename_i d hready
    obtain ⟨d', hload, hchecked⟩ := answer_bind hready
    obtain ⟨_, -, hsame⟩ := answer_bind hchecked
    cases hsame
    have hordered := (Document.fresh_of_load hload).ordered
    exact ⟨d, hload, (safeAt_compileDocument hc.ready hordered hsupply t settings).2 hcrash⟩

/-- A tree with a label in an item of it. -/
def plainTree : Template :=
  { source := "<ui:UiBinder xmlns:ui=\"urn:ui:uibind\" xmlns:g=\"urn:import:uibind.dev/ui\">" ++
      "<g:Tree><g:TreeItem><g:Label/></g:TreeItem></g:Tree></ui:UiBinder>",
    url := "View.ui.xml" }

/-- The default library leaves nothing open. -/
theorem compile_of_plainTree : Library.catalog.Complete ∧
    ((plainTree.compile Library.catalog sampleSettings).answer ≠ .error .crash ∨
      ∃ d, Document.load plainTree.source plainTree.url = .ok d ∧
        (plainTree.unitCatalog Library.catalog sampleSettings d).HasBareTree) := by
  have hc : (Library.manifests.foldl Catalog.loading Catalog.bare).Complete := by
    have hall := @Library.complete_loadings [] (List.forall_mem_nil _)
    rw [List.append_nil] at hall
    exact hall
  have hplain := compile_crashes_only_over_a_bare_tree hc plainTree sampleSettings
  unfold Library.catalog
  exact ⟨hc, hplain⟩

/-! ## Crashes -/

/-- The work on a template crashes. -/
def crashes (outcome : Outcome) : Bool :=
  match outcome.answer with
  | .error failure => failure == .crash
  | .ok _ => false

theorem answer_of_crashes {outcome : Outcome} (h : crashes outcome = true) :
    outcome.answer = .error .crash := by
  unfold crashes at h
  split at h
  · rename_i failure hfailure
    rw [hfailure, beq_iff_eq.mp h]
  · cases h

/-- Trees, and a type of trees with a setter that takes nothing. -/
def treeManifests : List Manifest :=
  sampleManifests ++
    [{ package := Library.uiPackage,
       types := [{ name := "HasTreeItems", kind := "interface" }] },
     { package := "example.com/m",
       types := [{ name := "Tree", kind := "class",
                   interfaces := [Library.ui "IsWidget", Library.ui "HasTreeItems"],
                   methods := [{ name := "SetWidget" }],
                   constructors := [{ name := "NewTree" }] }] }]

/-- A label in such a tree. -/
def bareTree : Template :=
  { source := "<ui:UiBinder xmlns:ui=\"urn:ui:uibind\" xmlns:g=\"urn:import:uibind.dev/ui\" " ++
      "xmlns:m=\"urn:import:example.com/m\"><m:Tree><g:Label/></m:Tree></ui:UiBinder>",
    url := "View.ui.xml" }

/-- An element of markup that has no type. -/
def untypedElement : Template :=
  { source := "<ui:UiBinder xmlns:ui=\"urn:ui:uibind\"><div/></ui:UiBinder>", url := "View.ui.xml" }

/-- Loading manifests can go well, and compiling a template with them crash: a tree is asked to hold
a label, or elements have no type because no manifest gave them one. -/
theorem compile_can_crash :
    (∃ c, (treeManifests.forM Catalog.load).runOn Catalog.bare = (.ok (), c) ∧
      (bareTree.compile c sampleSettings).answer = .error .crash) ∧
    (untypedElement.compile Catalog.bare sampleSettings).answer = .error .crash := by
  have hloads : ((treeManifests.forM Catalog.load).runOn Catalog.bare).1.isOk = true := by
    decide +kernel
  have htree : crashes (bareTree.compile
      ((treeManifests.forM Catalog.load).runOn Catalog.bare).2 sampleSettings) = true := by
    decide +kernel
  have helement : crashes (untypedElement.compile Catalog.bare sampleSettings) = true := by
    decide +kernel
  refine ⟨?_, answer_of_crashes helement⟩
  rcases hrun : (treeManifests.forM Catalog.load).runOn Catalog.bare with ⟨failure | _, c⟩
  · rw [hrun] at hloads
    cases hloads
  · rw [hrun] at htree
    exact ⟨c, rfl, answer_of_crashes htree⟩

end Template

end ViewBinder
