-- The templates of a project. Their programs are written to different paths; and where no program is
-- written over a template or under the name of one, the project has the same templates as before. Their
-- binders have different names unless the names of the templates are alike.
import Mathlib.Data.List.Basic
import ViewBinder.Project.Basic
import ViewBinder.Proofs.Project.Files
import ViewBinder.Proofs.Template.Declared
import ViewBinder.Proofs.Text.Basic
import ViewBinder.Proofs.Text.Exported

namespace ViewBinder

/-! ## The order of a walk -/

theorem Text.before_iff (s t : Text) : Text.before s t = true ↔ s < t := by
  induction s generalizing t with
  | nil =>
    cases t with
    | nil => simp [Text.before]
    | cons b t => simp [Text.before]
  | cons a s ih =>
    cases t with
    | nil => simp [Text.before]
    | cons b t =>
      rw [Text.before, Bool.or_eq_true, decide_eq_true_iff, Bool.and_eq_true, beq_iff_eq, ih,
        List.cons_lt_cons_iff]

namespace Project

theorem elementsBefore_iff (as bs : List Text) : elementsBefore as bs = true ↔ as < bs := by
  induction as generalizing bs with
  | nil =>
    cases bs with
    | nil => simp [elementsBefore]
    | cons b bs => simp [elementsBefore]
  | cons a as ih =>
    cases bs with
    | nil => simp [elementsBefore]
    | cons b bs =>
      rw [elementsBefore, Bool.or_eq_true, Text.before_iff, Bool.and_eq_true, beq_iff_eq, ih,
        List.cons_lt_cons_iff]

/-- One path comes no later than another. -/
def walksBefore (a b : Text) : Bool := !elementsBefore (Path.elements b) (Path.elements a)

theorem walksBefore_iff {a b : Text} :
    walksBefore a b = true ↔ Path.elements a ≤ Path.elements b := by
  unfold walksBefore
  rw [Bool.not_eq_true', Bool.eq_false_iff, ne_eq, elementsBefore_iff, Std.not_lt]

instance : Std.Total fun a b => walksBefore a b = true where
  total a b := by
    simp only [walksBefore_iff]
    exact Std.le_total

instance : IsTrans Text fun a b => walksBefore a b = true where
  trans a b c hab hbc := by
    rw [walksBefore_iff] at *
    exact Std.le_trans hab hbc

/-- Paths that do not count play no part in the order of the others. -/
theorem filterMap_walkOrder {α : Type} {g : Text → Option α} {xs extra : List Text}
    (h : ∀ path ∈ extra, g path = none) :
    (walkOrder (xs ++ extra)).filterMap g = (walkOrder xs).filterMap g := by
  have hcount : ∀ paths : List Text,
      paths.filterMap g = (paths.filter fun path => (g path).isSome).filterMap g := by
    intro paths
    rw [List.filterMap_filter]
    refine List.filterMap_congr fun path _ => ?_
    rcases g path with _ | a <;> rfl
  have hextra : (extra.filter fun path => (g path).isSome) = [] := by
    rw [List.filter_eq_nil_iff]
    intro path hpath
    rw [h path hpath]
    exact Bool.false_ne_true
  have hsorted : ∀ paths : List Text,
      ((walkOrder paths).filter fun path => (g path).isSome).Pairwise fun a b =>
        walksBefore a b = true := fun paths => (sortBy_pairwise walksBefore paths).filter _
  have hsame : ((walkOrder (xs ++ extra)).filter fun path => (g path).isSome) =
      (walkOrder xs).filter fun path => (g path).isSome := by
    refine List.Perm.eq_of_pairwise (fun a b _ _ hab hba => ?_) (hsorted _) (hsorted _) ?_
    · rw [walksBefore_iff] at hab hba
      rw [← Path.join_elements a, ← Path.join_elements b, Std.le_antisymm hab hba]
    · refine ((sortBy_perm walksBefore _).filter _).trans ?_
      rw [List.filter_append, hextra, List.append_nil]
      exact ((sortBy_perm walksBefore _).filter _).symm
  rw [hcount, hsame, ← hcount]

/-! ## Output paths -/

/-- Programs of different templates are written to different paths. -/
theorem outputPath_inj {p : Project} {a b : Text}
    (ha : Text.endsWith a p.settings.templateSuffix = true)
    (hb : Text.endsWith b p.settings.templateSuffix = true)
    (h : p.outputPath a = p.outputPath b) : a = b := by
  have hstem : ∀ file : Text, Text.endsWith file p.settings.templateSuffix = true →
      file = Text.dropBack file p.settings.templateSuffix ++ p.settings.templateSuffix := by
    intro file hends
    obtain ⟨stem, rfl⟩ := List.isSuffixOf_iff_suffix.mp hends
    unfold Text.dropBack
    rw [if_pos hends]
    simp
  unfold outputPath at h
  rw [hstem a ha, hstem b hb, List.append_cancel_right h]

/-- The paths of the templates have the suffix of templates. -/
theorem endsWith_of_templates {p : Project} {t : FileTree} {files : List Text}
    (h : p.templates t = .ok files) {file : Text} (hfile : file ∈ files) :
    Text.endsWith file p.settings.templateSuffix = true := by
  unfold templates at h
  dsimp only at h
  split at h
  · cases h
    split at hfile
    · rename_i hcounts
      rw [List.mem_singleton.mp hfile]
      exact (Bool.and_eq_true_iff.mp hcounts).1
    · cases hfile
  · cases h
    obtain ⟨path, -, hcounts⟩ := List.mem_filterMap.mp hfile
    split at hcounts
    · rename_i hpass
      cases hcounts
      exact (Bool.and_eq_true_iff.mp hpass).1
    · cases hcounts
  · cases h
  · cases h

/-! ## Finding templates again -/

variable {p : Project} {t t' : FileTree} {places files : List Text}

/-- What follows a directory in the path of a file, if the file is in or below it. -/
def pathBelow? (directory key : Text) : Option Text :=
  if directory == "." then
    if !Path.isAbsolute key && !Text.startsWith key "../" then some key else none
  else if Text.startsWith key (directory ++ "/") then
    some (key.drop (directory ++ "/").length)
  else none

theorem filesBelow_eq (t : FileTree) (directory : Text) :
    t.filesBelow directory = (t.files.map (·.1)).filterMap (pathBelow? directory) := by
  unfold FileTree.filesBelow
  split
  · rename_i hdot
    rw [← List.filterMap_eq_filter]
    refine List.filterMap_congr fun key _ => ?_
    unfold pathBelow?
    rw [if_pos hdot]
    rfl
  · rename_i hdot
    refine List.filterMap_congr fun key _ => ?_
    unfold pathBelow?
    rw [if_neg hdot]

/-- A file below the root of a project is met at its place. -/
theorem join_pathBelow {root place path : Text} (hroot : root ≠ [])
    (hclean : Path.clean place = place)
    (hbelow : pathBelow? (Path.clean root) place = some path) : Path.join [root, path] = place := by
  unfold pathBelow? at hbelow
  split at hbelow
  · rename_i hdot
    split at hbelow
    · rename_i hrelative
      cases hbelow
      rw [Bool.and_eq_true, Bool.not_eq_true'] at hrelative
      have hplace : place ≠ [] := hclean ▸ Path.clean_ne_nil place
      rw [Path.join_pair hroot hplace, ← Path.clean_behind hroot, beq_iff_eq.mp hdot,
        Path.clean_dot hrelative.1, hclean]
    · cases hbelow
  · split at hbelow
    · rename_i hstarts
      obtain ⟨rest, rfl⟩ := List.isPrefixOf_iff_prefix.mp hstarts
      rw [List.drop_left] at hbelow
      cases hbelow
      have hsplit : Path.clean root ++ "/" ++ path = Path.clean root ++ Path.slash :: path :=
        List.append_assoc _ _ _
      rw [hsplit] at hclean ⊢
      have hpath : path ≠ [] := by
        -- a clean path does not end with a slash
        rintro rfl
        rw [Path.clean_slash (Path.clean_ne_nil root), Path.clean_clean] at hclean
        exact absurd hclean.symm (by simp)
      rw [Path.join_pair hroot hpath, ← Path.clean_behind hroot, hclean]
    · cases hbelow

/-- A project that can be searched for templates has a root: a directory, or a file that is the only
template if there is one. -/
theorem root_of_templates (h : p.templates t = .ok files) :
    p.root ≠ [] ∧ (t.lookup (Path.clean p.root) = .directory ∨
      ∃ content, t.lookup (Path.clean p.root) = .file content ∧ files ⊆ [p.root]) := by
  unfold templates at h
  dsimp only at h
  by_cases hempty : p.root.isEmpty = true
  · rw [if_pos hempty] at h
    cases h
  · rw [if_neg hempty] at h
    refine ⟨by simpa using hempty, ?_⟩
    rcases hfound : t.lookup (Path.clean p.root) with content | _ | _ | _
    · refine .inr ⟨content, rfl, ?_⟩
      rw [hfound] at h
      cases h
      split
      · exact List.Subset.refl _
      · exact List.nil_subset _
    · exact .inl rfl
    all_goals
      rw [hfound] at h
      cases h

/-- Where the programs of a project take nothing that looks like a template, the project has the same
templates when they are written. -/
theorem templates_of_writes (h : FileTree.WritesAt places t t')
    (hclean : ∀ place ∈ places, Path.clean place = place)
    (hsuffix : ∀ place ∈ places, Text.endsWith place p.settings.templateSuffix = false)
    (hroot : ∀ content, t.lookup (Path.clean p.root) = .file content →
      Path.clean p.root ∉ places)
    (hfiles : p.templates t = .ok files) : p.templates t' = .ok files := by
  unfold templates at hfiles ⊢
  dsimp only at hfiles ⊢
  split at hfiles
  · rename_i content hfound
    split at hfound
    · cases hfound
    · rename_i hsome
      rw [if_neg hsome, h.lookup_file (hroot content hfound) hfound]
      exact hfiles
  · rename_i hfound
    split at hfound
    · cases hfound
    · rename_i hsome
      have hne : p.root ≠ [] := by simpa using hsome
      rw [if_neg hsome, h.lookup_directory (Path.clean_ne_nil _) hfound]
      rw [List.filterMap_filter] at hfiles
      dsimp only
      rw [List.filterMap_filter, ← hfiles]
      obtain ⟨added, hkeys, hadded⟩ := h.keys
      rw [filesBelow_eq, filesBelow_eq, hkeys, List.filterMap_append]
      refine congrArg Except.ok (filterMap_walkOrder fun path hpath => ?_)
      obtain ⟨place, hplace, hbelow⟩ := List.mem_filterMap.mp hpath
      have hmember := (hadded place hplace).1
      have hother : ¬((Text.endsWith place p.settings.templateSuffix && p.selects path) = true) := by
        rw [hsuffix place hmember, Bool.false_and]
        exact Bool.false_ne_true
      rw [join_pathBelow hne (hclean place hmember) hbelow, if_neg hother]
      split <;> rfl
  · cases hfiles
  · cases hfiles

/-- A template that is not written over is read as before; what it refers to stands in the new
tree. -/
theorem template_of_writes {file : Text} {template : Template} (h : FileTree.WritesAt places t t')
    (hfile : Path.clean file ∉ places) (htemplate : p.template t file = .ok template) :
    p.template t' file = .ok { template with
        files := some { tree := t', base := Path.directory file, storage := .disk } } ∧
      template.files = some { tree := t, base := Path.directory file, storage := .disk } := by
  unfold Project.template at htemplate ⊢
  split at htemplate
  · cases htemplate
  · rename_i source hread
    cases htemplate
    rw [h.read_ok hfile hread]
    exact ⟨rfl, rfl⟩

end Project

/-! ## Names of binders -/

/-- The last element of a path without the suffix, or up to its first dot if no suffix is given. -/
def Path.stem (path suffix : Text) : Text :=
  if !suffix.isEmpty then Text.dropBack (Path.base path) suffix
  else match (Path.base path).idxOf? '.'.toUInt8 with
    | some 0 => Path.base path
    | some i => (Path.base path).take i
    | none => Path.base path

theorem Program.binderNameOf_eq (path suffix : Text) : Program.binderNameOf path suffix =
    Text.exported (Text.sanitize (Path.stem path suffix)) ++ "Binder" := rfl

/-- The stem of a file is what its suffix is put behind. -/
theorem Path.stem_behind {front name suffix : Text}
    (hfront : front = [] ∨ ∃ outer, front = outer ++ [Path.slash]) (hsuffix : suffix ≠ [])
    (hslash : Path.slash ∉ name ++ suffix) : Path.stem (front ++ (name ++ suffix)) suffix = name := by
  have hne : name ++ suffix ≠ [] := List.append_ne_nil_of_right_ne_nil _ hsuffix
  have hgiven : (!suffix.isEmpty) = true := by simp [hsuffix]
  have hends : Text.endsWith (name ++ suffix) suffix = true :=
    List.isSuffixOf_iff_suffix.mpr (List.suffix_append name suffix)
  unfold Path.stem
  rw [if_pos hgiven, Path.base_behind hfront hslash hne]
  unfold Text.dropBack
  rw [if_pos hends, List.length_append, Nat.add_sub_cancel, List.take_left]

namespace Project

open Markup (Document)

/-- The template in a file compiles, and the file of its program declares these types. -/
def Declares (p : Project) (tree : FileTree) (file : Text) (types : List Text) : Prop :=
  ∃ t supply document compiled s, Function.Injective supply ∧ p.template tree file = .ok t ∧
    Document.load t.source t.url = .ok document ∧
    (t.compileDocument p.settings).runOn (t.start p.catalog p.settings supply document) =
      (.ok compiled, s) ∧
    types = Template.declaredTypes compiled.program s

/-- The binder is one of the types, and all of them are named after it. -/
theorem Declares.binder {p : Project} {tree : FileTree} {file : Text} {types : List Text}
    (h : p.Declares tree file types) :
    Program.binderNameOf file p.settings.templateSuffix ∈ types ∧
      ∀ name ∈ types, Program.binderNameOf file p.settings.templateSuffix <+: name := by
  obtain ⟨t, supply, document, compiled, s, hsupply, htemplate, -, hrun, rfl⟩ := h
  have hgiven : t.binderName = Program.binderNameOf file p.settings.templateSuffix := by
    unfold Project.template at htemplate
    split at htemplate
    · cases htemplate
    · cases htemplate
      rfl
  have hname : compiled.program.binderName =
      Program.binderNameOf file p.settings.templateSuffix := by
    obtain ⟨built, root, hstages⟩ := Template.compileDocument_stages hsupply hrun
    have hne : (Program.binderNameOf file p.settings.templateSuffix).isEmpty = false := by
      rw [Program.binderNameOf_eq, List.isEmpty_eq_false_iff]
      exact List.append_ne_nil_of_right_ne_nil _ (by decide)
    rw [hstages.assembled.binderName, Template.name, hgiven, hne]
    rfl
  rw [← hname]
  exact ⟨List.mem_cons_self, fun _ => Template.binderName_prefix hsupply hrun⟩

/-- The binders of two templates have one name exactly if the normal forms of their stems differ in
the case of the first letter at most. Of templates in one directory that is so for stems that are
plain identifiers exactly if the stems themselves do. Files of binders with one name both declare
it; files of binders of which neither begins with the name of the other share no type. -/
theorem binders_share_a_name_iff (suffix file file' : Text) :
    (Program.binderNameOf file suffix = Program.binderNameOf file' suffix ↔
      Text.AgreeButCase (Text.sanitize (Path.stem file suffix))
        (Text.sanitize (Path.stem file' suffix))) ∧
    (∀ front name name' : Text, (front = [] ∨ ∃ outer, front = outer ++ [Path.slash]) →
      suffix ≠ [] → Path.slash ∉ suffix → Text.IsPlainName name → Text.IsPlainName name' →
      (Program.binderNameOf (front ++ (name ++ suffix)) suffix =
          Program.binderNameOf (front ++ (name' ++ suffix)) suffix ↔
        Text.AgreeButCase name name')) ∧
    ∀ (p : Project) (tree : FileTree) (types types' : List Text),
      p.settings.templateSuffix = suffix →
      p.Declares tree file types → p.Declares tree file' types' →
        (Program.binderNameOf file suffix = Program.binderNameOf file' suffix →
          Program.binderNameOf file suffix ∈ types ∧ Program.binderNameOf file suffix ∈ types') ∧
        (¬ Program.binderNameOf file suffix <+: Program.binderNameOf file' suffix →
          ¬ Program.binderNameOf file' suffix <+: Program.binderNameOf file suffix →
          types.Disjoint types') := by
  have hany : ∀ file file', Program.binderNameOf file suffix = Program.binderNameOf file' suffix ↔
      Text.AgreeButCase (Text.sanitize (Path.stem file suffix))
        (Text.sanitize (Path.stem file' suffix)) := by
    intro file file'
    rw [Program.binderNameOf_eq, Program.binderNameOf_eq, List.append_cancel_right_eq]
    exact Text.exported_eq_iff (Text.sanitize_isPlainName _) (Text.sanitize_isPlainName _)
  refine ⟨hany file file', fun front name name' hfront hgiven hsuffix hname hname' => ?_, ?_⟩
  · have hslash : ∀ {name}, Text.IsPlainName name → Path.slash ∉ name ++ suffix := by
      intro name hname hmem
      rcases List.mem_append.mp hmem with hmem | hmem
      · exact absurd (hname.part _ hmem) (by decide)
      · exact hsuffix hmem
    rw [hany, Path.stem_behind hfront hgiven (hslash hname),
      Path.stem_behind hfront hgiven (hslash hname'), Text.sanitize_of_isPlainName hname,
      Text.sanitize_of_isPlainName hname']
  · rintro p tree types types' rfl hdeclares hdeclares'
    refine ⟨fun hsame => ⟨hdeclares.binder.1, hsame ▸ hdeclares'.binder.1⟩, ?_⟩
    intro hfirst hsecond name hname hname'
    -- what begins with both names shows which of them is the shorter one
    rcases List.prefix_or_prefix_of_prefix (hdeclares.binder.2 name hname)
      (hdeclares'.binder.2 name hname') with hprefix | hprefix
    · exact hfirst hprefix
    · exact hsecond hprefix

/-- A project with a library of few types. -/
def sampleProject : Project :=
  { root := ".", settings := Template.sampleSettings, catalog := Template.sampleCatalog }

/-- The templates of two views, each with a style. -/
def loginTree : FileTree where
  files := [("views/login.ui.xml", Template.bundleStyle.source),
    ("views/logout.ui.xml", Template.bundleStyle.source)]

theorem sampleProject_declares {file : Text}
    (h : (match sampleProject.template loginTree file with
      | .error _ => false
      | .ok t => t.succeeds (fun document => (t.compileDocument sampleProject.settings).runOn
          (t.start sampleProject.catalog sampleProject.settings (· + 1) document))
          fun _ _ _ => true) = true) :
    ∃ types, sampleProject.Declares loginTree file types := by
  split at h
  · cases h
  · rename_i t htemplate
    obtain ⟨document, compiled, s, hload, hrun, -⟩ := Template.exists_of_succeeds h
    exact ⟨_, t, _, document, compiled, s, fun _ _ h => Nat.succ.inj h, htemplate, hload, hrun, rfl⟩

/-- Two plain names that differ behind their first letter give two binders, whose files share no
type. -/
theorem login_and_logout_have_two_binders :
    Program.binderNameOf "views/login.ui.xml" ".ui.xml" ≠
        Program.binderNameOf "views/logout.ui.xml" ".ui.xml" ∧
      ∃ types types', sampleProject.Declares loginTree "views/login.ui.xml" types ∧
        sampleProject.Declares loginTree "views/logout.ui.xml" types' ∧
        types.Disjoint types' := by
  have hiff := binders_share_a_name_iff ".ui.xml"
  refine ⟨fun hsame => ?_, ?_⟩
  · have hlogin : Text.IsPlainName "login" :=
      ⟨⟨_, _, rfl, by decide, forall_of_all (by decide)⟩, by decide⟩
    have hlogout : Text.IsPlainName "logout" :=
      ⟨⟨_, _, rfl, by decide, forall_of_all (by decide)⟩, by decide⟩
    obtain ⟨b, b', rest, hfirst, hsecond, -⟩ :=
      ((hiff [] []).2.1 "views/" "login" "logout"
        (.inr ⟨"views", by decide⟩) (by decide) (by decide) hlogin hlogout).mp hsame
    have hrest : List.tail (Text.ofString "login") = List.tail (Text.ofString "logout") :=
      (congrArg List.tail hfirst).trans (congrArg List.tail hsecond).symm
    exact absurd hrest (by decide)
  · obtain ⟨types, hlogin⟩ : ∃ types, sampleProject.Declares loginTree "views/login.ui.xml" types :=
      sampleProject_declares (by decide +kernel)
    obtain ⟨types', hlogout⟩ :
        ∃ types, sampleProject.Declares loginTree "views/logout.ui.xml" types :=
      sampleProject_declares (by decide +kernel)
    exact ⟨types, types', hlogin, hlogout, ((hiff "views/login.ui.xml" "views/logout.ui.xml").2.2
      sampleProject loginTree types types' rfl hlogin hlogout).2 (by decide) (by decide)⟩

/-- Templates in one directory whose names differ in the case of their first letter, or where one has
a dash and the other an underscore, have binders of one name. -/
theorem different_templates_share_a_binder :
    let suffix : Text := ".ui.xml"
    ∀ pair ∈ [(Text.ofString "views/login.ui.xml", Text.ofString "views/Login.ui.xml"),
        (Text.ofString "views/log-in.ui.xml", Text.ofString "views/log_in.ui.xml")],
      pair.1 ≠ pair.2 ∧ Path.directory pair.1 = Path.directory pair.2 ∧
        Text.endsWith pair.1 suffix = true ∧ Text.endsWith pair.2 suffix = true ∧
        Program.binderNameOf pair.1 suffix = Program.binderNameOf pair.2 suffix := by
  decide

end Project

end ViewBinder
