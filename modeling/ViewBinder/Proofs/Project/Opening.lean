-- Opening a project again. Its settings and the manifests they name are read as before where
-- nothing was written over them; a settings file that was not there beside the templates is still
-- missing. What packages say when they are loaded from their sources is up to the loader.
import ViewBinder.Project.Run
import ViewBinder.Proofs.Catalog.Linking
import ViewBinder.Proofs.Project.Templates

namespace ViewBinder.Project

variable {p : Project} {t t' : FileTree} {files places : List Text} {here : Text}
  {load : SourceLoader}

/-- The files that opening a project looks at: its settings and the manifests they name. -/
def settingsPlaces (p : Project) (given : Text) : List Text :=
  Path.clean (settingsPath p.root given) :: p.settings.manifests.map Path.clean

/-! ## Settings and manifests -/

/-- Settings that were not written over are read as before, if a file that may be missing is. -/
theorem readSettings_of_writes {path : Text} {asked : Bool} {file? : Option SettingsFile}
    (hwrites : FileTree.WritesAt places t t')
    (hpath : Path.clean path ∉ places)
    (hmissing : asked = false → t.lookup (Path.clean path) = .nothing →
      t'.lookup (Path.clean path) = .nothing)
    (h : readSettings t here path asked = .ok file?) :
    readSettings t' here path asked = .ok file? := by
  unfold readSettings at h ⊢
  rcases hread : t.read path with o | content
  · rw [hread] at h
    dsimp only at h
    split at h
    · rename_i hcounts
      rw [Bool.and_eq_true, beq_iff_eq, Bool.not_eq_true'] at hcounts
      obtain ⟨rfl, hasked⟩ := hcounts
      have hnothing : t.lookup (Path.clean path) = .nothing := by
        unfold FileTree.read at hread
        split at hread
        case h_4 hfound => exact hfound
        all_goals cases hread
      have hread' : t'.read path = .error .missing := by
        unfold FileTree.read
        rw [hmissing hasked hnothing]
      cases h
      rw [hread', hasked]
      rfl
    · cases h
  · rw [hread] at h
    rw [hwrites.read_ok hpath hread]
    exact h

/-- Manifests that were not written over make the same catalog. -/
theorem catalogOf_of_writes {manifests : List Text} {c : Catalog}
    (hwrites : FileTree.WritesAt places t t')
    (hapart : ∀ path ∈ manifests, Path.clean path ∉ places)
    (h : catalogOf t here manifests = .ok c) : catalogOf t' here manifests = .ok c := by
  unfold catalogOf at h ⊢
  generalize Library.catalog = start at h ⊢
  induction manifests generalizing start with
  | nil => exact h
  | cons path rest ih =>
    obtain ⟨hfirst, hrest⟩ := List.forall_mem_cons.mp hapart
    rw [List.foldlM_cons] at h ⊢
    obtain ⟨c₁, hadd, h⟩ := answer_bind h
    have hadd' : addManifest t' here start path = .ok c₁ := by
      unfold addManifest at hadd ⊢
      obtain ⟨m, hread, hload⟩ := answer_bind hadd
      have hread' : readManifest t' here path = .ok m := by
        unfold readManifest at hread ⊢
        split at hread
        · cases hread
        · rename_i content hcontent
          rw [hwrites.read_ok hfirst hcontent]
          exact hread
      rw [hread']
      exact hload
    rw [hadd']
    exact ih hrest c₁ h

/-! ## Opening -/

/-- The project that some settings and a catalog make. -/
def ofSettings (root given : Text) (file : SettingsFile) (catalog : Catalog) : Project :=
  { root, settings := file.apply (SettingsFile.projectRoot (settingsPath root given)) {},
    included := file.included, excluded := file.excluded, catalog }

theorem catalog_ofSettings (root given : Text) (file : SettingsFile) (c : Catalog) :
    (ofSettings root given file c).catalog = c := rfl

/-- Opening a project reads its settings, then the manifests they name, and then the packages they
name. -/
theorem ofDirectory_eq_ok {root given : Text} :
    ofDirectory load t here root given = .ok p ↔
      ∃ file? declared, readSettings t here (settingsPath root given) (!given.isEmpty) = .ok file? ∧
        catalogOf t here p.settings.manifests = .ok declared ∧
        addSources load t root p.settings.sourcePackages declared = .ok p.catalog ∧
        p = ofSettings root given (file?.getD {}) p.catalog := by
  unfold ofDirectory
  dsimp only
  constructor
  · intro h
    obtain ⟨file?, hsettings, h⟩ := answer_bind h
    obtain ⟨declared, hdeclared, h⟩ := answer_bind h
    obtain ⟨catalog, hcatalog, h⟩ := answer_bind h
    cases h
    exact ⟨file?, declared, hsettings, hdeclared, hcatalog, rfl⟩
  · rintro ⟨file?, declared, hsettings, hdeclared, hcatalog, hp⟩
    have hsame : p.settings = (file?.getD {}).apply
        (SettingsFile.projectRoot (settingsPath root given)) {} := by
      rw [hp]
      rfl
    rw [hsame] at hdeclared hcatalog
    rw [hsettings, hp]
    show (catalogOf t here _ >>= fun declared => _) = _
    rw [hdeclared]
    show (addSources load t root _ declared >>= fun catalog => _) = _
    rw [hcatalog]
    rfl

/-- The settings file of a project that no other is given for is in its root. -/
theorem settingsPath_default {root : Text} (hroot : root ≠ []) :
    Path.clean (settingsPath root []) = settingsPath root [] ∧
      Path.directory (settingsPath root []) = Path.clean root := by
  have hjoin : settingsPath root [] = Path.join [root, SettingsFile.defaultName] := rfl
  rw [hjoin]
  constructor
  · rw [Path.join_pair hroot (by decide), Path.clean_clean]
  · exact Path.directory_join hroot (by decide) (by decide) (by decide) (by decide)

/-- A project is opened as before where its settings and manifests were not written over, and where
the packages that the settings name, if they do, are loaded as before. -/
theorem ofDirectory_of_writes {root given : Text}
    (hwrites : FileTree.WritesAt places t t') (hclosed : t.Closed) (hplaces : [] ∉ places)
    (hfiles : p.templates t = .ok files) (hopen : ofDirectory load t here root given = .ok p)
    (hapart : ∀ path ∈ p.settingsPlaces given, path ∉ places)
    (hload : p.settings.sourcePackages ≠ [] → ∀ c,
      load t root p.settings.sourcePackages c = .ok p.catalog →
        load t' root p.settings.sourcePackages c = .ok p.catalog) :
    ofDirectory load t' here root given = .ok p := by
  rw [ofDirectory_eq_ok] at hopen ⊢
  obtain ⟨file?, declared, hsettings, hdeclared, hcatalog, hp⟩ := hopen
  have hroot : p.root = root := congrArg Project.root hp
  obtain ⟨hpath, hmanifests⟩ := List.forall_mem_cons.mp hapart
  rw [hroot] at hpath
  refine ⟨file?, declared, readSettings_of_writes hwrites hpath (fun hasked hnothing => ?_) hsettings,
    catalogOf_of_writes hwrites (fun path hmem => ?_) hdeclared, ?_, hp⟩
  case refine_2 => exact hmanifests _ (List.mem_map_of_mem hmem)
  case refine_3 =>
    unfold addSources at hcatalog ⊢
    split
    · rename_i hnone
      rwa [if_pos hnone] at hcatalog
    · rename_i hsome
      rw [if_neg hsome] at hcatalog
      exact hload (fun hnone => hsome (by rw [hnone]; rfl)) declared hcatalog
  -- the settings file would stand beside the templates
  obtain ⟨hne, hstands⟩ := root_of_templates hfiles
  rw [hroot] at hne hstands
  obtain rfl : given = [] := by simpa using hasked
  refine hwrites.lookup_nothing hclosed hplaces (Path.clean_clean _) hpath ?_ hnothing
  obtain ⟨hclean, hdirectory⟩ := settingsPath_default hne
  rw [hclean, hdirectory]
  exact hstands.imp_right fun ⟨content, hfile, _⟩ => ⟨content, hfile⟩

/-! ## Without settings -/

/-- The default library, its types linked only when they are looked at. -/
theorem library_eq_gaining :
    Library.catalog = Library.manifests.foldl Catalog.gaining Catalog.bare :=
  Catalog.loadings_eq_gaining (by decide +kernel)

/-- A project without settings has the default library, and writes the program of a label that
refers to another one. -/
theorem label_is_written : ((ofSettings "." [] {} Library.catalog).runAfter 0 .write
    { files := [("View.ui.xml",
      "<ui:UiBinder xmlns:ui=\"urn:ui:uibind\" xmlns:g=\"urn:import:uibind.dev/ui\">" ++
        "<ui:with field=\"s\" type=\"uibind.dev/ui.Label\"/>" ++
        "<g:Label text=\"\x7bs.text\x7d\"/>" ++ "</ui:UiBinder>")] }).failure = none := by
  -- loading the library one type after the other would be evaluated at every look at a type
  rw [library_eq_gaining]
  decide +kernel

end ViewBinder.Project
