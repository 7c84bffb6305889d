-- Trees of files that are written. What is written at some places changes nothing at others: the same
-- files are read there and the same directories stand there. Writing it once more changes nothing.
import Mathlib.Data.List.Basic
import ViewBinder.FileTree
import ViewBinder.Proofs.Numbering.Resources
import ViewBinder.Proofs.Path.Clean

namespace ViewBinder

namespace FileTree

variable {t t' t'' : FileTree} {places : List Text}

/-! ## Directories -/

/-- What a directory is in is a directory. -/
def Closed (t : FileTree) : Prop :=
  ∀ folder ∈ t.folders, ∀ outer : Text, outer ≠ [] →
    Text.startsWith folder (outer ++ "/") = true → t.isDirectory outer = true

theorem isDirectory_of_file {f : Text × Text} {path : Text} (hf : f ∈ t.files)
    (h : Text.startsWith f.1 (path ++ "/") = true) : t.isDirectory path = true := by
  unfold isDirectory
  rw [Bool.or_eq_true]
  exact .inr (List.any_eq_true.mpr ⟨f, hf, h⟩)

theorem Closed.outer (h : t.Closed) {path outer : Text} (hpath : t.isDirectory path = true)
    (houter : outer ≠ []) (hin : Text.startsWith path (outer ++ "/") = true) :
    t.isDirectory outer = true := by
  unfold isDirectory at hpath
  rw [Bool.or_eq_true, Bool.or_eq_true] at hpath
  rcases hpath with (hdot | hfolder) | hfile
  · -- nothing stands in front of a slash of the dot
    rw [beq_iff_eq] at hdot
    subst hdot
    have hlength := (List.isPrefixOf_iff_prefix.mp hin).length_le
    have hpos := List.length_pos_iff.mpr houter
    rw [List.length_append, show ("/" : Text).length = 1 from rfl,
      show ("." : Text).length = 1 from rfl] at hlength
    omega
  · exact h path (List.elem_iff.mp hfolder) outer houter hin
  · obtain ⟨f, hf, hbelow⟩ := List.any_eq_true.mp hfile
    refine isDirectory_of_file hf (List.isPrefixOf_iff_prefix.mpr ?_)
    exact (List.isPrefixOf_iff_prefix.mp hin).trans
      ((List.prefix_append path "/").trans (List.isPrefixOf_iff_prefix.mp hbelow))

/-! ## Trees that differ at some places -/

/-- Nothing but the files at some places was written, or added where nothing stood. -/
structure WritesAt (places : List Text) (t t' : FileTree) : Prop where
  folders : t'.folders = t.folders
  keys : ∃ added, t'.files.map (·.1) = t.files.map (·.1) ++ added ∧
    ∀ path ∈ added, path ∈ places ∧ path ∉ t.files.map (·.1) ∧ t.isDirectory path = false
  lookup : ∀ path, path ∉ places → t'.files.lookup path = t.files.lookup path
  entries : ∀ f : Text × Text, f.1 ∉ places → (f ∈ t'.files ↔ f ∈ t.files)
  directories : ∀ path, path ≠ [] → t'.isDirectory path = t.isDirectory path

theorem WritesAt.refl (places : List Text) (t : FileTree) : WritesAt places t t :=
  ⟨rfl, ⟨[], by simp, nofun⟩, fun _ _ => rfl, fun _ _ => Iff.rfl, fun _ _ => rfl⟩

theorem WritesAt.mono {more : List Text} (h : WritesAt places t t') (hmore : places ⊆ more) :
    WritesAt more t t' := by
  obtain ⟨added, hkeys, hadded⟩ := h.keys
  exact ⟨h.folders, ⟨added, hkeys, fun path hpath =>
      ⟨hmore (hadded path hpath).1, (hadded path hpath).2⟩⟩,
    fun path hpath => h.lookup path fun hin => hpath (hmore hin),
    fun f hf => h.entries f fun hin => hf (hmore hin), h.directories⟩

theorem WritesAt.trans (hne : [] ∉ places) (h : WritesAt places t t')
    (h' : WritesAt places t' t'') : WritesAt places t t'' := by
  obtain ⟨added, hkeys, hadded⟩ := h.keys
  obtain ⟨added', hkeys', hadded'⟩ := h'.keys
  refine ⟨h'.folders.trans h.folders, ⟨added ++ added', ?_, ?_⟩,
    fun path hpath => (h'.lookup path hpath).trans (h.lookup path hpath),
    fun f hf => (h'.entries f hf).trans (h.entries f hf),
    fun path hpath => (h'.directories path hpath).trans (h.directories path hpath)⟩
  · rw [hkeys', hkeys, List.append_assoc]
  · refine List.forall_mem_append.mpr ⟨hadded, fun path hpath => ?_⟩
    obtain ⟨hplace, hnew, hfree⟩ := hadded' path hpath
    rw [hkeys] at hnew
    rw [h.directories path fun hnil => hne (hnil ▸ hplace)] at hfree
    exact ⟨hplace, fun hold => hnew (List.mem_append_left _ hold), hfree⟩

theorem WritesAt.closed (h : WritesAt places t t') (hclosed : t.Closed) : t'.Closed := by
  intro folder hfolder outer houter hin
  rw [h.folders] at hfolder
  rw [h.directories outer houter]
  exact hclosed folder hfolder outer houter hin

/-- The file at a path holds a content, and nothing else does. -/
structure Holds (t : FileTree) (path content : Text) : Prop where
  here : (path, content) ∈ t.files
  only : ∀ f ∈ t.files, f.1 = path → f.2 = content

theorem Holds.lookup {path content : Text} (h : t.Holds path content) :
    t.files.lookup path = some content := by
  have hsome : ∀ files : List (Text × Text), (path, content) ∈ files →
      (∀ f ∈ files, f.1 = path → f.2 = content) → files.lookup path = some content := by
    intro files hhere honly
    induction files with
    | nil => cases hhere
    | cons f rest ih =>
      obtain ⟨key, value⟩ := f
      obtain ⟨hfirst, hrest⟩ := List.forall_mem_cons.mp honly
      by_cases hkey : path = key
      · subst hkey
        rw [List.lookup_cons_self, show value = content from hfirst rfl]
      · rw [List.lookup_cons, beq_false_of_ne hkey]
        refine ih ((List.mem_cons.mp hhere).resolve_left fun hsame => hkey ?_) hrest
        exact congrArg Prod.fst hsame
  exact hsome t.files h.here h.only

/-! ## Writing -/

theorem lookup_map_ne {files : List (Text × Text)} {path place content : Text} (h : path ≠ place) :
    (files.map fun f => if f.1 == place then (place, content) else f).lookup path =
      files.lookup path := by
  induction files with
  | nil => rfl
  | cons f rest ih =>
    obtain ⟨key, value⟩ := f
    rw [List.map_cons]
    by_cases hkey : key = place
    · subst hkey
      rw [if_pos (by simp), List.lookup_cons, List.lookup_cons, beq_false_of_ne h]
      exact ih
    · rw [if_neg (by simpa using hkey), List.lookup_cons, List.lookup_cons, ih]

theorem keys_map_write (files : List (Text × Text)) (place content : Text) :
    (files.map fun f => if f.1 == place then (place, content) else f).map (·.1) =
      files.map (·.1) := by
  rw [List.map_map]
  refine List.map_congr_left fun f _ => ?_
  show (if f.1 == place then (place, content) else f).1 = f.1
  split
  · rename_i hkey
    exact (beq_iff_eq.mp hkey).symm
  · rfl

theorem isDirectory_of_keys {files files' : List (Text × Text)} (folders : List Text)
    (h : files'.map (·.1) = files.map (·.1)) (path : Text) :
    (FileTree.mk files' folders).isDirectory path = (FileTree.mk files folders).isDirectory path := by
  have hany : ∀ files : List (Text × Text),
      (files.any fun f => Text.startsWith f.1 (path ++ "/")) =
        (files.map (·.1)).any fun f => Text.startsWith f (path ++ "/") :=
    fun files => by rw [List.any_map]; rfl
  unfold isDirectory
  dsimp only
  rw [hany, hany, h]

theorem lookup_eq_file {path content : Text} :
    t.lookup path = .file content ↔ t.files.lookup path = some content := by
  unfold lookup
  rcases t.files.lookup path with _ | found
  · dsimp only
    constructor
    · split
      · nofun
      · split <;> nofun
    · nofun
  · simp

theorem lookup_nothing {path : Text} (h : t.lookup path = .nothing) :
    t.files.lookup path = none ∧ t.isDirectory path = false ∧ t.isBehindFile path = false := by
  unfold lookup at h
  split at h
  · cases h
  · rename_i hnone
    split at h
    · cases h
    · rename_i hdirectory
      split at h
      · cases h
      · rename_i hbehind
        exact ⟨hnone, Bool.eq_false_iff.mpr hdirectory, Bool.eq_false_iff.mpr hbehind⟩

theorem lookup_eq_directory {path : Text} (h : t.lookup path = .directory) :
    t.files.lookup path = none ∧ t.isDirectory path = true := by
  unfold lookup at h
  split at h
  · cases h
  · rename_i hnone
    split at h
    · rename_i hdirectory
      exact ⟨hnone, hdirectory⟩
    · split at h <;> cases h

theorem mem_of_lookup {files : List (Text × Text)} {path content : Text}
    (h : files.lookup path = some content) : (path, content) ∈ files := by
  obtain ⟨before, after, hsplit, -⟩ := List.lookup_eq_some_iff.mp h
  rw [hsplit]
  exact List.mem_append_right _ List.mem_cons_self

theorem notMem_keys {files : List (Text × Text)} {path : Text} (h : files.lookup path = none) :
    path ∉ files.map (·.1) := by
  intro hmem
  obtain ⟨f, hf, rfl⟩ := List.mem_map.mp hmem
  exact bne_iff_ne.mp (List.lookup_eq_none_iff.mp h f hf) rfl

/-- A file that is there is written in its place. -/
theorem writesAt_change {place content : Text} (h : (t.files.lookup place).isSome = true) :
    WritesAt [place] t (t.write place content) ∧ (t.write place content).Holds place content := by
  have hwrite : t.write place content =
      ⟨t.files.map fun f => if f.1 == place then (place, content) else f, t.folders⟩ := by
    unfold write
    rw [if_pos h]
  obtain ⟨old, hold⟩ := Option.isSome_iff_exists.mp h
  have hentry : ∀ f : Text × Text, f.1 ∉ [place] →
      (f ∈ (t.files.map fun f => if f.1 == place then (place, content) else f) ↔ f ∈ t.files) := by
    intro f hf
    rw [List.mem_singleton] at hf
    rw [List.mem_map]
    constructor
    · rintro ⟨f', hf', rfl⟩
      split at hf
      · exact absurd rfl hf
      · rename_i hother
        rwa [if_neg hother]
    · exact fun hmem => ⟨f, hmem, if_neg (by simpa using hf)⟩
  rw [hwrite]
  refine ⟨⟨rfl, ⟨[], ?_, nofun⟩, fun path hpath => ?_, hentry, fun path _ => ?_⟩, ?_,
    fun f hf hkey => ?_⟩
  · rw [keys_map_write, List.append_nil]
  · exact lookup_map_ne fun hsame => hpath (hsame ▸ List.mem_singleton_self _)
  · exact isDirectory_of_keys t.folders (keys_map_write t.files place content) path
  · exact List.mem_map.mpr ⟨(place, old), mem_of_lookup hold, by simp⟩
  · obtain ⟨f', -, rfl⟩ := List.mem_map.mp hf
    split at hkey
    · rename_i hplace
      rw [if_pos hplace]
    · rename_i hplace
      exact absurd (beq_iff_eq.mpr hkey) hplace

/-- A file that is not there is added where its directory is. -/
theorem writesAt_add {place content : Text} (hclosed : t.Closed) (hclean : Path.clean place = place)
    (hnothing : t.lookup place = .nothing)
    (hin : t.isDirectory (Path.directory place) = true) :
    WritesAt [place] t (t.write place content) ∧ (t.write place content).Holds place content := by
  obtain ⟨hnone, hfree, -⟩ := lookup_nothing hnothing
  have hnew := notMem_keys hnone
  have hwrite : t.write place content = ⟨t.files ++ [(place, content)], t.folders⟩ := by
    unfold write
    rw [hnone]
    rfl
  have hentry : ∀ f : Text × Text, f.1 ∉ [place] →
      (f ∈ t.files ++ [(place, content)] ↔ f ∈ t.files) := by
    intro f hf
    rw [List.mem_append, List.mem_singleton]
    exact or_iff_left fun hsame => hf (hsame ▸ List.mem_singleton_self _)
  rw [hwrite]
  refine ⟨⟨rfl, ⟨[place], by simp, fun path hpath => ⟨hpath, ?_⟩⟩, fun path hpath => ?_, hentry,
    fun path hpath => ?_⟩, by simp, fun f hf hkey => ?_⟩
  · rw [List.mem_singleton.mp hpath]
    exact ⟨hnew, hfree⟩
  · have hne : path ≠ place := fun hsame => hpath (hsame ▸ List.mem_singleton_self _)
    dsimp only
    rw [List.lookup_append, List.lookup_cons, beq_false_of_ne hne]
    simp
  · unfold isDirectory
    dsimp only
    rw [List.any_append, ← Bool.or_assoc]
    rcases hbelow : Text.startsWith place (path ++ "/") with _ | _
    · simp [hbelow]
    · -- the directory of the new file is there, and so is all that it is in
      have hdirectory : t.isDirectory path = true := by
        rcases Path.directory_below hclean hpath hbelow with hsame | houter
        · exact hsame ▸ hin
        · exact hclosed.outer hin hpath houter
      unfold isDirectory at hdirectory
      rw [hdirectory, Bool.true_or]
  · rcases List.mem_append.mp hf with hold | hadded
    · exact absurd (List.mem_map.mpr ⟨f, hold, hkey⟩) hnew
    · rw [List.mem_singleton.mp hadded]

/-- A file that can be stored is stored at its place, and nothing else changes. -/
theorem store_ok {path content : Text} (hclosed : t.Closed) (h : t.store path content = .ok t') :
    WritesAt [Path.clean path] t t' ∧ t'.Holds (Path.clean path) content := by
  unfold store at h
  dsimp only at h
  split at h
  · rename_i old hfound
    cases h
    exact writesAt_change (by rw [lookup_eq_file.mp hfound]; rfl)
  · cases h
  · cases h
  · rename_i hnothing
    split at h
    · rename_i hin
      cases h
      exact writesAt_add hclosed (Path.clean_clean path) hnothing hin
    · cases h

theorem Holds.kept {path content : Text} (h : t.Holds path content) (hwrites : WritesAt places t t')
    (hpath : path ∉ places) : t'.Holds path content :=
  ⟨(hwrites.entries _ hpath).mpr h.here, fun f hf hkey =>
    h.only f ((hwrites.entries f (hkey ▸ hpath)).mp hf) hkey⟩

/-- What stands at a path already can be stored there and changes nothing. -/
theorem store_again {path content : Text} (h : t.Holds (Path.clean path) content) :
    t.store path content = .ok t := by
  have hsame : t.files.map (fun f => if f.1 == Path.clean path then (Path.clean path, content) else f) =
      t.files := by
    rw [← List.map_id t.files, List.map_map]
    refine List.map_congr_left fun f hf => ?_
    show (if f.1 == Path.clean path then (Path.clean path, content) else f) = f
    split
    · rename_i hkey
      exact Prod.ext (beq_iff_eq.mp hkey).symm (h.only f hf (beq_iff_eq.mp hkey)).symm
    · rfl
  unfold store
  dsimp only
  rw [lookup_eq_file.mpr h.lookup]
  unfold write
  rw [h.lookup, hsame]
  rfl

/-! ## Writing in turn -/

/-- The tree with some files stored one after the other, if all can be. -/
def storeAll (t : FileTree) (writes : List (Text × Text)) : Except Obstacle FileTree :=
  writes.foldlM (fun t w => t.store w.1 w.2) t

/-- Files that are stored at different places all stand there in the end. -/
theorem storeAll_ok {writes : List (Text × Text)} (hclosed : t.Closed)
    (hnodup : (writes.map fun w => Path.clean w.1).Nodup) (h : t.storeAll writes = .ok t') :
    WritesAt (writes.map fun w => Path.clean w.1) t t' ∧
      ∀ w ∈ writes, t'.Holds (Path.clean w.1) w.2 := by
  induction writes generalizing t with
  | nil =>
    cases h
    exact ⟨WritesAt.refl _ _, nofun⟩
  | cons w rest ih =>
    unfold storeAll at h
    rw [List.foldlM_cons] at h
    obtain ⟨t₁, hstore, hrest⟩ := answer_bind h
    obtain ⟨hfirst, hholds⟩ := store_ok hclosed hstore
    obtain ⟨hnew, hnodup⟩ := List.nodup_cons.mp hnodup
    obtain ⟨hlater, hall⟩ := ih (hfirst.closed hclosed) hnodup hrest
    refine ⟨(hfirst.mono ?_).trans ?_ (hlater.mono ?_), List.forall_mem_cons.mpr ⟨?_, hall⟩⟩
    · exact List.cons_subset_cons _ (List.nil_subset _)
    · exact Path.nil_notMem_map_clean _ _
    · exact List.subset_cons_self _ _
    · exact hholds.kept hlater hnew

/-! ## Reading what was not written -/

namespace WritesAt

theorem lookup_file {path content : Text} (h : WritesAt places t t') (hpath : path ∉ places)
    (hfile : t.lookup path = .file content) : t'.lookup path = .file content := by
  rw [lookup_eq_file] at hfile ⊢
  rw [h.lookup path hpath, hfile]

/-- A directory stays one: nothing can be written where it stands. -/
theorem lookup_directory {path : Text} (h : WritesAt places t t') (hne : path ≠ [])
    (hdirectory : t.lookup path = .directory) : t'.lookup path = .directory := by
  obtain ⟨hnone, hstands⟩ := lookup_eq_directory hdirectory
  obtain ⟨added, hkeys, hadded⟩ := h.keys
  have hnone' : t'.files.lookup path = none := by
    rcases hfound : t'.files.lookup path with _ | content
    · rfl
    · have hmem : path ∈ t'.files.map (·.1) := List.mem_map.mpr ⟨_, mem_of_lookup hfound, rfl⟩
      rw [hkeys] at hmem
      rcases List.mem_append.mp hmem with hold | hnew
      · exact absurd hold (notMem_keys hnone)
      · rw [(hadded path hnew).2.2] at hstands
        cases hstands
  unfold FileTree.lookup
  rw [hnone']
  dsimp only
  rw [h.directories path hne, if_pos hstands]

theorem isBehindFile_keys (t : FileTree) (path : Text) :
    t.isBehindFile path = (t.files.map (·.1)).any fun key => Text.startsWith path (key ++ "/") := by
  unfold isBehindFile
  rw [List.any_map]
  rfl

/-- Where nothing is written, nothing new stands: a path may only get behind a new file. -/
theorem lookup_cases {path : Text} (h : WritesAt places t t') (hne : path ≠ [])
    (hpath : path ∉ places) : t'.lookup path = t.lookup path ∨
      t.lookup path = .nothing ∧ t'.lookup path = .behindFile := by
  obtain ⟨added, hkeys, -⟩ := h.keys
  unfold FileTree.lookup
  rw [h.lookup path hpath, h.directories path hne]
  rcases t.files.lookup path with _ | content
  · dsimp only
    rcases t.isDirectory path with _ | _
    · rw [isBehindFile_keys, isBehindFile_keys, hkeys, List.any_append]
      rcases (t.files.map (·.1)).any fun key => Text.startsWith path (key ++ "/") with _ | _
      · rcases added.any fun key => Text.startsWith path (key ++ "/") with _ | _
        · exact .inl rfl
        · exact .inr ⟨rfl, rfl⟩
      · exact .inl rfl
    · exact .inl rfl
  · exact .inl rfl

/-- Nothing stands where nothing stood, if something stands in front of it. -/
theorem lookup_nothing {path : Text} (h : WritesAt places t t') (hclosed : t.Closed)
    (hplaces : [] ∉ places) (hclean : Path.clean path = path) (hpath : path ∉ places)
    (hstands : t.lookup (Path.directory path) = .directory ∨
      ∃ content, t.lookup (Path.directory path) = .file content)
    (hnothing : t.lookup path = .nothing) : t'.lookup path = .nothing := by
  have hne : path ≠ [] := hclean ▸ Path.clean_ne_nil path
  rcases h.lookup_cases hne hpath with hsame | ⟨-, hbehind⟩
  · rw [hsame, hnothing]
  · exfalso
    obtain ⟨hnone, hfree, hfront⟩ := FileTree.lookup_nothing hnothing
    obtain ⟨added, hkeys, hadded⟩ := h.keys
    -- a new file would stand in front of the path
    have hnew : ∃ key ∈ added, Text.startsWith path (key ++ "/") = true := by
      unfold FileTree.lookup at hbehind
      rw [h.lookup path hpath, hnone, h.directories path hne, hfree] at hbehind
      dsimp only at hbehind
      rw [isBehindFile_keys, hkeys, List.any_append, ← isBehindFile_keys, hfront] at hbehind
      by_contra hnothing
      have hany : (added.any fun key => Text.startsWith path (key ++ "/")) = false := by
        rw [List.any_eq_false]
        exact fun key hkey hin => hnothing ⟨key, hkey, hin⟩
      rw [hany] at hbehind
      cases hbehind
    obtain ⟨key, hkey, hin⟩ := hnew
    obtain ⟨hplace, hnewKey, hnotDirectory⟩ := hadded key hkey
    have hkeyne : key ≠ [] := fun hnil => hplaces (hnil ▸ hplace)
    have hdirectory : t.isDirectory key = true := by
      rcases hstands with hinside | ⟨content, hfile⟩
      · have houter := (lookup_eq_directory hinside).2
        rcases Path.directory_below hclean hkeyne hin with hsame | hbelow
        · exact hsame ▸ houter
        · exact hclosed.outer houter hkeyne hbelow
      · have hmem := mem_of_lookup (lookup_eq_file.mp hfile)
        rcases Path.directory_below hclean hkeyne hin with hsame | hbelow
        · exact absurd (List.mem_map.mpr ⟨_, hmem, hsame⟩) hnewKey
        · exact isDirectory_of_file hmem hbelow
    rw [hdirectory] at hnotDirectory
    cases hnotDirectory

theorem read_ok {path content : Text} (h : WritesAt places t t') (hpath : Path.clean path ∉ places)
    (hread : t.read path = .ok content) : t'.read path = .ok content := by
  unfold FileTree.read at hread ⊢
  split at hread
  · rename_i found hfound
    cases hread
    rw [h.lookup_file hpath hfound]
  all_goals cases hread

/-- Paths mean the same before and after, if nothing was written where they lead. -/
theorem agree {base path : Text} (h : WritesAt places t t') (hbase : base ≠ [])
    (hpath : Path.isValid (Path.clean path) = true → Path.join [base, Path.clean path] ∉ places)
    (storage : Storage) :
    Bundle.Agree True (some ⟨t, base, storage⟩) (some ⟨t', base, storage⟩) path := by
  have hjoin := Path.join_front hbase
  refine ⟨?_, ?_⟩
  · show FileSource.has _ path = FileSource.has _ path
    unfold FileSource.has FileSource.lookup
    rcases hvalid : Path.isValid path with _ | _
    · rfl
    · rw [Path.clean_of_isValid hvalid] at hpath
      dsimp only
      rcases h.lookup_cases (hjoin path) (hpath hvalid) with hsame | ⟨hnothing, hbehind⟩
      · rw [hsame]
      · rw [hnothing, hbehind]
  · unfold Bundle.contentIn Bundle.read
    dsimp only
    unfold FileSource.read FileSource.lookup
    rcases hvalid : Path.isValid (Path.clean path) with _ | _
    · exact .inl rfl
    · dsimp only
      rcases h.lookup_cases (hjoin _) (hpath hvalid) with hsame | ⟨hnothing, -⟩
      · exact .inl (by rw [hsame])
      · refine .inr ⟨trivial, .missingResource path, ?_⟩
        rw [hnothing]
        rfl

end WritesAt

end FileTree

end ViewBinder
