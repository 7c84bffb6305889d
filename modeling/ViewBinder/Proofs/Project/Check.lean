-- A check after a run. What a run writes is what a check compares with, and what another run would
-- write again: the templates are the same, each compiles to the same program, and what they read is
-- what they read before. That needs programs that are written to files of their own, and either one
-- worker that counts from the same number or programs that do not show the numbers.
import ViewBinder.Project.Run
import ViewBinder.Proofs.Markup.Prefixes
import ViewBinder.Proofs.Project.Opening
import ViewBinder.Proofs.Template.Turns

namespace ViewBinder

open Markup (Document)

/-! ## Compiling again -/

namespace Template

variable {c : Catalog} {settings : Settings}

/-- The program of a template does not show which numbers its markers have. -/
def NumberFree (c : Catalog) (settings : Settings) (t : Template) : Prop :=
  ∀ (n : Nat) (ν ν' : Numbering n), (t.compileWith ν.supply c settings).markers ≤ n →
    (t.compileWith ν'.supply c settings).text? = (t.compileWith ν.supply c settings).text?

/-- A template without markers has one program, and so has a discreet one. -/
theorem numberFree {t : Template}
    (h : (t.compile c settings).markers = 0 ∨ t.Discreet c settings) : t.NumberFree c settings := by
  intro n ν ν' hn
  rcases h with hnone | hdiscreet
  · rw [compileWith_of_unmarked hnone, compileWith_of_unmarked hnone]
  · obtain ⟨htext, -, hmarkers⟩ := hdiscreet.compileWith_numbered ν hn
    rw [htext]
    exact (hdiscreet.compileWith (ν'.restrict (hmarkers ▸ hn))).1

/-- The template in another place, where what could be read for its directives reads the same. -/
structure Moved (t t' : Template) : Prop where
  same : t' = { t with files := t'.files }
  reads : ∀ d, Document.load t.source t.url = .ok d → ∀ path ∈ sought t.files d,
    Bundle.Agree True t.files t'.files path

theorem Moved.compileWith {t t' : Template} (h : Moved t t') {supply : Nat → Nat}
    (hsome : (t.compileWith supply c settings).text?.isSome = true) :
    t'.compileWith supply c settings = t.compileWith supply c settings := by
  rw [h.same]
  refine (compileWith_elsewhere h.reads fun _ _ => rfl).resolve_right ?_
  rintro ⟨-, failure, hfails⟩
  unfold Outcome.text? at hsome
  rw [hfails] at hsome
  cases hsome

/-- Templates that all compile give the same in another place, if they start with the same number. -/
theorem compileFrom_moved {ts ts' : List Template} (hmoved : List.Forall₂ Moved ts ts') {used : Nat}
    (hall : ∀ o ∈ compileFrom c settings used ts, o.text?.isSome = true) :
    compileFrom c settings used ts' = compileFrom c settings used ts := by
  induction hmoved generalizing used with
  | nil => rfl
  | @cons t t' ts ts' hfirst _ ih =>
    unfold compileFrom at hall ⊢
    dsimp only at hall ⊢
    obtain ⟨hsome, hrest⟩ := List.forall_mem_cons.mp hall
    rw [hfirst.compileWith hsome, ih hrest]

/-- What templates give with some numbers for their markers. -/
def Numbered (c : Catalog) (settings : Settings) : List Template → List Outcome → Prop :=
  List.Forall₂ fun t o => ∃ ν : Numbering o.markers, o = t.compileWith ν.supply c settings

/-- A template that compiles has the same program in another place and with other numbers, if it does
not show them. -/
theorem Moved.text? {t t' : Template} (h : Moved t t') (hfree : t.NumberFree c settings)
    {o o' : Outcome} (ho : ∃ ν : Numbering o.markers, o = t.compileWith ν.supply c settings)
    (ho' : ∃ ν : Numbering o'.markers, o' = t'.compileWith ν.supply c settings)
    (hsome : o.text?.isSome = true) : o'.text? = o.text? := by
  obtain ⟨ν, ho⟩ := ho
  obtain ⟨ν', ho'⟩ := ho'
  have hle := Nat.max_le.mpr ⟨ν.le, ν'.le⟩
  obtain ⟨μ, hμ⟩ := ν.exists_extension (Nat.le_max_left _ o'.markers) hle
  obtain ⟨μ', hμ'⟩ := ν'.exists_extension (Nat.le_max_right o.markers _) hle
  have hsame : t.compileWith μ.supply c settings = o :=
    (compileWith_agree fun k hk => hμ k (ho ▸ hk)).trans ho.symm
  have hsame' : t'.compileWith μ'.supply c settings = o' :=
    (compileWith_agree fun k hk => hμ' k (ho' ▸ hk)).trans ho'.symm
  have htext := hfree _ μ μ' (by
    rw [hsame]
    exact Nat.le_max_left _ _)
  rw [hsame] at htext
  rw [← hsame', ← htext, h.compileWith (htext ▸ hsome)]

/-- Templates that all compile have the same programs in another place, if they do not show the
numbers. -/
theorem text?_moved {ts ts' : List Template} (hmoved : List.Forall₂ Moved ts ts')
    {outcomes outcomes' : List Outcome} (h : Numbered c settings ts outcomes)
    (h' : Numbered c settings ts' outcomes') (hfree : ∀ t ∈ ts, t.NumberFree c settings)
    (hall : ∀ o ∈ outcomes, o.text?.isSome = true) :
    outcomes'.map (·.text?) = outcomes.map (·.text?) := by
  induction hmoved generalizing outcomes outcomes' with
  | nil =>
    cases h
    cases h'
    rfl
  | @cons t t' ts ts' hfirst _ ih =>
    obtain _ | ⟨hnumbered, h⟩ := h
    obtain _ | ⟨hnumbered', h'⟩ := h'
    obtain ⟨hsome, hrest⟩ := List.forall_mem_cons.mp hall
    obtain ⟨hfree, hfrees⟩ := List.forall_mem_cons.mp hfree
    rw [List.map_cons, List.map_cons, hfirst.text? hfree hnumbered hnumbered' hsome,
      ih h h' hfrees hrest]

end Template

namespace Project

variable {p : Project}

/-! ## The programs of a run -/

section Programs

/-- The file that the program of a template is written to. -/
def outputPlace (p : Project) (file : Text) : Text := Path.clean (p.outputPath file)

variable {outcomes : List (Text × Outcome)}

/-- The programs of some templates with the paths they are written to. -/
def programs (p : Project) (outcomes : List (Text × Outcome)) : List (Text × Text) :=
  outcomes.filterMap fun x => x.2.text?.map fun text => (p.outputPath x.1, text)

theorem programs_cons {file : Text} {o : Outcome} {compiled : Compiled}
    (h : o.answer = .ok compiled) (rest : List (Text × Outcome)) :
    p.programs ((file, o) :: rest) = (p.outputPath file, compiled.text) :: p.programs rest := by
  unfold programs
  rw [List.filterMap_cons]
  unfold Outcome.text?
  rw [h]
  rfl

theorem answer_of_text? {o : Outcome} (h : o.text?.isSome = true) :
    ∃ compiled, o.answer = .ok compiled := by
  rcases hanswer : o.answer with failure | compiled
  · unfold Outcome.text? at h
    rw [hanswer] at h
    cases h
  · exact ⟨compiled, rfl⟩

/-- Every template that compiles has its program in its file. -/
theorem places_programs (hall : ∀ x ∈ outcomes, x.2.text?.isSome = true) :
    (p.programs outcomes).map (fun w => Path.clean w.1) =
      (outcomes.map (·.1)).map p.outputPlace := by
  induction outcomes with
  | nil => rfl
  | cons x rest ih =>
    obtain ⟨file, o⟩ := x
    obtain ⟨hfirst, hrest⟩ := List.forall_mem_cons.mp hall
    obtain ⟨compiled, hanswer⟩ := answer_of_text? hfirst
    rw [programs_cons hanswer, List.map_cons, ih hrest]
    rfl

/-- Outcomes with the same texts have the same programs. -/
theorem programs_zip {files : List Text} {os os' : List Outcome}
    (h : os'.map (·.text?) = os.map (·.text?)) :
    p.programs (files.zip os') = p.programs (files.zip os) := by
  have htexts : ∀ os : List Outcome, p.programs (files.zip os) =
      (files.zip (os.map (·.text?))).filterMap fun x =>
        x.2.map fun text => (p.outputPath x.1, text) := by
    intro os
    rw [List.zip_map_right, List.filterMap_map]
    rfl
  rw [htexts, htexts, h]

/-- A run that writes stores the programs in turn; it fails if a template does. -/
theorem settleAll_write {s s' : Progress}
    (h : p.settleAll .write s outcomes = (s', none)) (hfailed : s'.failed = 0) :
    s.failed = 0 ∧ (∀ x ∈ outcomes, x.2.text?.isSome = true) ∧
      s.tree.storeAll (p.programs outcomes) = .ok s'.tree := by
  induction outcomes generalizing s with
  | nil =>
    cases h
    exact ⟨hfailed, List.forall_mem_nil _, rfl⟩
  | cons x rest ih =>
    obtain ⟨file, o⟩ := x
    unfold settleAll settle at h
    rcases hanswer : o.answer with failure | compiled
    · rw [hanswer] at h
      -- a template that failed was counted
      obtain ⟨hnone, -⟩ := ih h
      exact absurd hnone (Nat.succ_ne_zero _)
    · rw [hanswer] at h
      dsimp only [Progress.note] at h
      rcases hstore : s.tree.store (p.outputPath file) compiled.text with o' | tree
      · rw [hstore] at h
        cases h
      · rw [hstore] at h
        obtain ⟨hnone, hrest, hstored⟩ := ih h
        refine ⟨hnone, List.forall_mem_cons.mpr ⟨?_, hrest⟩, ?_⟩
        · unfold Outcome.text?
          rw [hanswer]
          rfl
        · rw [programs_cons hanswer]
          unfold FileTree.storeAll at hstored ⊢
          rw [List.foldlM_cons, hstore]
          exact hstored

/-- A program that stands in its file is found there by a check, and writing it changes nothing. -/
theorem settle_again {s : Progress} {file : Text} {o : Outcome} {compiled : Compiled}
    (hanswer : o.answer = .ok compiled)
    (hholds : s.tree.Holds (Path.clean (p.outputPath file)) compiled.text) (mode : Mode) :
    ∃ s', p.settle mode s file o = (s', none) ∧ s'.failed = s.failed ∧ s'.tree = s.tree := by
  unfold settle
  rw [hanswer]
  dsimp only [Progress.note]
  cases mode with
  | write =>
    rw [FileTree.store_again hholds]
    exact ⟨_, rfl, rfl, rfl⟩
  | check =>
    have hread : s.tree.read (p.outputPath file) = .ok compiled.text := by
      unfold FileTree.read
      rw [FileTree.lookup_eq_file.mpr hholds.lookup]
    rw [hread]
    dsimp only
    rw [if_pos (beq_self_eq_true _)]
    exact ⟨_, rfl, rfl, rfl⟩

/-- Where every program stands in its file, a run does not fail and changes nothing. -/
theorem settleAll_again {s : Progress} (mode : Mode)
    (hall : ∀ x ∈ outcomes, x.2.text?.isSome = true)
    (hholds : ∀ w ∈ p.programs outcomes, s.tree.Holds (Path.clean w.1) w.2) :
    ∃ s', p.settleAll mode s outcomes = (s', none) ∧ s'.failed = s.failed ∧ s'.tree = s.tree := by
  induction outcomes generalizing s with
  | nil => exact ⟨s, rfl, rfl, rfl⟩
  | cons x rest ih =>
    obtain ⟨file, o⟩ := x
    obtain ⟨hfirst, hrest⟩ := List.forall_mem_cons.mp hall
    obtain ⟨compiled, hanswer⟩ := answer_of_text? hfirst
    rw [programs_cons hanswer] at hholds
    obtain ⟨hhere, hlater⟩ := List.forall_mem_cons.mp hholds
    obtain ⟨s₁, hsettle, hfailed, htree⟩ := settle_again hanswer hhere mode
    obtain ⟨s', hall', hfailed', htree'⟩ := ih (s := s₁) hrest (by rwa [htree])
    refine ⟨s', ?_, hfailed'.trans hfailed, htree'.trans htree⟩
    unfold settleAll
    rw [hsettle]
    exact hall'

end Programs

/-! ## Files of their own -/

section Places

variable {t t' : FileTree} {files : List Text}

/-- The files that compiling a template looks at: its source and what its directives seek. -/
def sourcePlaces (p : Project) (t : FileTree) (file : Text) : List Text :=
  let resources :=
    match p.template t file with
    | .error _ => []
    | .ok template =>
      match Document.load template.source template.url with
      | .error _ => []
      | .ok d => Template.sought template.files d
  Path.clean file :: ((resources.map Path.clean).filter Path.isValid).map fun path =>
    Path.join [Path.directory file, path]

/-- Every program has a file of its own, which no template looks at and which is not named like a
template. -/
structure WritesApart (p : Project) (t : FileTree) (files : List Text) : Prop where
  distinct : (files.map p.outputPlace).Nodup
  named : ∀ file ∈ files, Text.endsWith (p.outputPlace file) p.settings.templateSuffix = false
  unread : ∀ file ∈ files, ∀ other ∈ files, p.outputPlace file ∉ p.sourcePlaces t other

/-- Templates whose sources and resources were not written over are compiled in another place. -/
theorem mapM_template_of_writes {places : List Text} (hwrites : FileTree.WritesAt places t t')
    {templates : List Template} (hfiles : ∀ place ∈ places, ∀ file ∈ files,
      place ∉ p.sourcePlaces t file)
    (h : files.mapM (p.template t) = .ok templates) :
    ∃ templates', files.mapM (p.template t') = .ok templates' ∧
      List.Forall₂ Template.Moved templates templates' := by
  induction files generalizing templates with
  | nil =>
    cases h
    exact ⟨[], rfl, .nil⟩
  | cons file rest ih =>
    rw [List.mapM_cons] at h
    obtain ⟨template, htemplate, h⟩ := answer_bind h
    obtain ⟨others, hothers, h⟩ := answer_bind h
    cases h
    obtain ⟨others', hothers', hmoved⟩ := ih (fun place hplace other hother =>
      hfiles place hplace other (List.mem_cons_of_mem _ hother)) hothers
    have hapart : ∀ place ∈ places, place ∉ p.sourcePlaces t file := fun place hplace =>
      hfiles place hplace file List.mem_cons_self
    have hsource : Path.clean file ∉ places := fun hplace =>
      hapart _ hplace List.mem_cons_self
    obtain ⟨htemplate', hplace⟩ := template_of_writes hwrites hsource htemplate
    refine ⟨{ template with
      files := some { tree := t', base := Path.directory file, storage := .disk } } :: others',
      ?_, .cons ⟨rfl, fun d hload path hpath => ?_⟩ hmoved⟩
    · rw [List.mapM_cons, htemplate', hothers']
      rfl
    · rw [hplace]
      refine hwrites.agree (Path.clean_ne_nil _) (fun hvalid hwritten => ?_) _
      refine hapart _ hwritten (List.mem_cons_of_mem _ ?_)
      rw [htemplate]
      dsimp only
      rw [hload]
      exact List.mem_map.mpr ⟨_, List.mem_filter.mpr ⟨List.mem_map_of_mem hpath, hvalid⟩, rfl⟩

/-! ## Running again -/

variable {workers : Nat} {compile : Batch → Compilation}

/-- Dealing with outcomes so that nothing fails writes every program in its file. -/
theorem conclude_write {b : Batch} {compiled : Compilation}
    (h : (p.conclude .write t files b compiled).failure = none) :
    (∀ x ∈ files.zip compiled.outcomes, x.2.text?.isSome = true) ∧
      t.storeAll (p.programs (files.zip compiled.outcomes)) =
        .ok (p.conclude .write t files b compiled).tree := by
  unfold conclude at h ⊢
  dsimp only at h ⊢
  rcases hsettle : p.settleAll .write _ _ with ⟨s, _ | reason⟩
  · rw [hsettle] at h
    dsimp only at h ⊢
    split at h
    · rename_i hfailed
      exact (settleAll_write hsettle (beq_iff_eq.mp hfailed)).2
    · cases h
  · rw [hsettle] at h
    cases h

/-- Where every program is met in its file, nothing fails and nothing changes. -/
theorem conclude_again {b : Batch} {compiled : Compilation} (mode : Mode)
    (hall : ∀ x ∈ files.zip compiled.outcomes, x.2.text?.isSome = true)
    (hholds : ∀ w ∈ p.programs (files.zip compiled.outcomes), t.Holds (Path.clean w.1) w.2) :
    (p.conclude mode t files b compiled).failure = none ∧
      (p.conclude mode t files b compiled).tree = t := by
  unfold conclude
  dsimp only
  obtain ⟨s, hsettle, hfailed, htree⟩ := settleAll_again (s := { tree := t, journal := _ }) mode
    hall hholds
  rw [hsettle]
  exact ⟨if_pos (beq_iff_eq.mpr hfailed), htree⟩

/-- Some templates of a project, to be compiled together. -/
def batch (p : Project) (workers : Nat) (templates : List Template) : Batch :=
  ⟨p.catalog, p.settings, workers, templates⟩

/-- All templates of a project. -/
def allTemplates (p : Project) (t : FileTree) : Except Text (List Template) :=
  p.templates t >>= (·.mapM (p.template t))

theorem allTemplates_of_mapM (hfiles : p.templates t = .ok files) {templates : List Template}
    (h : files.mapM (p.template t) = .ok templates) : p.allTemplates t = .ok templates := by
  unfold allTemplates
  rw [hfiles]
  exact h

/-- What a run that writes leaves behind: nothing was written but the programs, and each of them
stands in its file. -/
theorem runWith_write
    (hcompile : ∀ templates, p.allTemplates t = .ok templates →
      (compile (p.batch workers templates)).outcomes.length = templates.length)
    (hclosed : t.Closed) (hfiles : p.templates t = .ok files)
    (hdistinct : (files.map p.outputPlace).Nodup)
    (hrun : (p.runWith workers compile .write t).failure = none) :
    FileTree.WritesAt (files.map p.outputPlace) t (p.runWith workers compile .write t).tree ∧
      ∃ templates, files.mapM (p.template t) = .ok templates ∧
        (∀ o ∈ (compile (p.batch workers templates)).outcomes, o.text?.isSome = true) ∧
        ∀ w ∈ p.programs (files.zip (compile (p.batch workers templates)).outcomes),
          (p.runWith workers compile .write t).tree.Holds (Path.clean w.1) w.2 := by
  unfold runWith at hrun ⊢
  rw [hfiles] at hrun ⊢
  rcases files with _ | ⟨file, rest⟩
  · have hnone := List.eq_nil_of_length_eq_zero (hcompile [] (allTemplates_of_mapM hfiles rfl))
    refine ⟨FileTree.WritesAt.refl _ _, [], rfl, ?_, List.forall_mem_nil _⟩
    rw [hnone]
    exact List.forall_mem_nil _
  · dsimp only at hrun ⊢
    generalize file :: rest = files at *
    rcases htemplates : files.mapM (p.template t) with reason | templates
    · rw [htemplates] at hrun
      cases hrun
    rw [htemplates] at hrun
    obtain ⟨hall, hstored⟩ := conclude_write hrun
    change ∀ x ∈ files.zip (compile (p.batch workers templates)).outcomes, _ at hall
    change t.storeAll (p.programs (files.zip (compile (p.batch workers templates)).outcomes)) = _
      at hstored
    have hlength : (compile (p.batch workers templates)).outcomes.length = files.length :=
      (hcompile _ (allTemplates_of_mapM hfiles htemplates)).trans
        (Markup.forall₂_of_mapM htemplates).length_eq.symm
    have hplaces := places_programs (p := p) hall
    rw [List.map_fst_zip hlength.ge] at hplaces
    obtain ⟨hwrites, hholds⟩ := FileTree.storeAll_ok hclosed (by rwa [hplaces]) hstored
    rw [hplaces] at hwrites
    refine ⟨hwrites, templates, rfl, fun o ho => ?_, hholds⟩
    rw [← List.map_snd_zip hlength.le] at ho
    obtain ⟨x, hx, rfl⟩ := List.mem_map.mp ho
    exact hall x hx

/-- What a run may leave behind when `used` numbers were handed out before and numbers up to `last` are
handed out. The templates are compiled by as many workers as the settings say, or else by some; their
steps come in any order, some descriptors may have been kept, and what comes up is reported in any
order. -/
def MayLeave (p : Project) (used last : Nat) (mode : Mode) (t : FileTree) (r : RunResult) : Prop :=
  ∃ (workers : Nat) (kept : DescriptorCache) (compile : Batch → Compilation),
    (∀ n ∈ p.settings.workers, workers = n) ∧ kept.Sound p.catalog ∧
    (∀ templates, p.allTemplates t = .ok templates →
      (p.batch workers templates).Ends used last kept
        (compile (p.batch workers templates)).outcomes) ∧
    r = p.runWith workers compile mode t

/-- The last number when the templates are compiled one after the other and `used` numbers were
handed out before. -/
def lastNumber (p : Project) (used : Nat) (t : FileTree) : Nat :=
  match p.allTemplates t with
  | .error _ => used
  | .ok templates =>
    let b := p.batch (p.settings.workers.getD 1) templates
    used + Template.numbersFrom p.catalog p.settings used (b.takenUp templates)

/-- One template after the other is a way to run. -/
theorem mayLeave_runAfter (p : Project) (used : Nat) (mode : Mode) (t : FileTree) :
    p.MayLeave used (p.lastNumber used t) mode t (p.runAfter used mode t) := by
  refine ⟨p.settings.workers.getD 1, {}, compileInTurn used, fun n hn => ?_,
    DescriptorCache.sound_empty _, fun templates htemplates => ?_, rfl⟩
  · rw [Option.mem_def.mp hn]
    rfl
  · unfold lastNumber
    rw [htemplates]
    exact (p.batch _ templates).ends_outcomes used {}

/-- The programs of the templates do not show the numbers of markers. -/
def NumberFree (p : Project) (t : FileTree) (files : List Text) : Prop :=
  ∀ file ∈ files, ∀ template, p.template t file = .ok template →
    template.NumberFree p.catalog p.settings

/-- A run behind another one has the same programs: the templates are compiled in turn and with the
same numbers, or the numbers do not show and none of them is too large for a marker. -/
def Steady (p : Project) (t : FileTree) (files : List Text) (used last used' last' : Nat) : Prop :=
  (used' = used ∧ (p.settings.workers = some 1 ∨ files.length ≤ 1)) ∨
    (p.NumberFree t files ∧ last ≤ Marker.maxId ∧ last' ≤ Marker.maxId)

/-- A run that writes and does not fail writes nothing but the programs. -/
theorem MayLeave.writes {used last : Nat} {r : RunResult} (hrun : p.MayLeave used last .write t r)
    (hclosed : t.Closed) (hfiles : p.templates t = .ok files)
    (hdistinct : (files.map p.outputPlace).Nodup) (hfailure : r.failure = none) :
    FileTree.WritesAt (files.map p.outputPlace) t r.tree := by
  obtain ⟨workers, kept, compile, -, hkept, hends, rfl⟩ := hrun
  exact (runWith_write (fun templates htemplates => (hends templates htemplates).length_eq hkept)
    hclosed hfiles hdistinct hfailure).1

/-- Where programs have files of their own, the project has the same templates after they were
written. -/
theorem WritesApart.templates_again (hapart : p.WritesApart t files)
    (hwrites : FileTree.WritesAt (files.map p.outputPlace) t t') (hfiles : p.templates t = .ok files) :
    p.templates t' = .ok files := by
  refine templates_of_writes hwrites ?_ ?_ ?_ hfiles
  · exact List.forall_mem_map.mpr fun file _ => Path.clean_clean _
  · exact List.forall_mem_map.mpr hapart.named
  · intro content hroot hmem
    obtain ⟨-, hdirectory | ⟨_, -, honly⟩⟩ := root_of_templates hfiles
    · rw [hroot] at hdirectory
      cases hdirectory
    · obtain ⟨file, hfile, hplace⟩ := List.mem_map.mp hmem
      have hsame := List.mem_singleton.mp (honly hfile)
      subst hsame
      exact hapart.unread _ hfile _ hfile (hplace ▸ List.mem_cons_self)

/-- Templates that all compile have the same programs in another place, in a run behind another one
that is steady. -/
theorem Steady.text? {used last used' last' workers workers' : Nat} {kept kept' : DescriptorCache}
    {templates templates' : List Template} {outcomes outcomes' : List Outcome}
    (h : p.Steady t files used last used' last')
    (htemplates : files.mapM (p.template t) = .ok templates)
    (hmoved : List.Forall₂ Template.Moved templates templates')
    (hworkers : ∀ n ∈ p.settings.workers, workers = n)
    (hworkers' : ∀ n ∈ p.settings.workers, workers' = n)
    (hkept : kept.Sound p.catalog) (hkept' : kept'.Sound p.catalog)
    (hends : (p.batch workers templates).Ends used last kept outcomes)
    (hends' : (p.batch workers' templates').Ends used' last' kept' outcomes')
    (hall : ∀ o ∈ outcomes, o.text?.isSome = true) :
    outcomes'.map (·.text?) = outcomes.map (·.text?) := by
  have hread := Markup.forall₂_of_mapM htemplates
  rcases h with ⟨rfl, hturns⟩ | ⟨hfree, hlast, hlast'⟩
  · have hone : ∀ n templates, (∀ m ∈ p.settings.workers, n = m) →
        templates.length = files.length → (p.batch n templates).limit = 1 ∨
          (p.batch n templates).templates.length ≤ 1 := by
      intro n templates hn hlength
      refine hturns.imp (fun hworkers => ?_) (hlength.trans_le ·)
      rw [hn 1 hworkers]
      rfl
    have hcount := hread.length_eq.symm
    have hsame := hends.eq_compileFrom (hone _ _ hworkers hcount)
    have hsame' := hends'.eq_compileFrom
      (hone _ _ hworkers' (hmoved.length_eq.symm.trans hcount))
    rw [hsame] at hall
    rw [hsame, hsame']
    exact congrArg _ (Template.compileFrom_moved hmoved hall)
  · refine Template.text?_moved hmoved (hends.numbered hkept hlast) (hends'.numbered hkept' hlast')
      (fun template htemplate => ?_) hall
    obtain ⟨file, hfile, hthere⟩ := Markup.exists_of_forall₂_right hread htemplate
    exact hfree file hfile template hthere

/-- Where programs have files of their own, another run finds each template and each program as it
was: it does not fail and changes nothing. -/
theorem mayLeave_again {used last used' last' : Nat} {mode : Mode} {r r' : RunResult}
    (hclosed : t.Closed) (hfiles : p.templates t = .ok files) (hapart : p.WritesApart t files)
    (hrun : p.MayLeave used last .write t r) (hfailure : r.failure = none)
    (hsteady : p.Steady t files used last used' last')
    (hagain : p.MayLeave used' last' mode r.tree r') :
    r'.failure = none ∧ r'.tree = r.tree := by
  obtain ⟨workers, kept, compile, hworkers, hkept, hends, rfl⟩ := hrun
  obtain ⟨workers', kept', compile', hworkers', hkept', hends', rfl⟩ := hagain
  obtain ⟨hwrites, templates, htemplates, hall, hholds⟩ :=
    runWith_write (fun templates htemplates => (hends templates htemplates).length_eq hkept)
      hclosed hfiles hapart.distinct hfailure
  have hends := hends templates (allTemplates_of_mapM hfiles htemplates)
  generalize (p.runWith workers compile .write t).tree = t' at *
  have hfiles' : p.templates t' = .ok files := hapart.templates_again hwrites hfiles
  obtain ⟨templates', htemplates', hmoved⟩ := mapM_template_of_writes hwrites
    (List.forall_mem_map.mpr hapart.unread) htemplates
  have hends' := hends' templates' (allTemplates_of_mapM hfiles' htemplates')
  have htexts := hsteady.text? htemplates hmoved hworkers hworkers' hkept hkept' hends hends' hall
  unfold runWith
  rw [hfiles']
  rcases files with _ | ⟨file, rest⟩
  · exact ⟨rfl, rfl⟩
  · dsimp only
    rw [htemplates']
    refine conclude_again mode (fun x hx => ?_) ?_
    · have hmem : x.2.text? ∈
          (compile' (p.batch workers' templates')).outcomes.map (·.text?) :=
        List.mem_map_of_mem (List.of_mem_zip hx).2
      rw [htexts] at hmem
      obtain ⟨o, ho, hsame⟩ := List.mem_map.mp hmem
      rw [← hsame]
      exact hall o ho
    · change ∀ w ∈ p.programs ((file :: rest).zip
        (compile' (p.batch workers' templates')).outcomes), _
      rwa [programs_zip htexts]

end Places

/-! ## A check after a run -/

/-- A directory with one template. -/
def viewTree : FileTree := { files := [("View.ui.xml", Batch.referring.source)] }

/-- The project in that directory as it is opened. -/
def viewProject : Project := ofSettings "." [] {} Library.catalog

theorem ofDirectory_viewTree : ofDirectory noSources viewTree "/work" "." [] = .ok viewProject := by
  unfold viewProject
  rw [ofDirectory_eq_ok]
  refine ⟨none, Library.catalog, by decide, ?_, ?_, ?_⟩
  · show catalogOf viewTree "/work" [] = .ok Library.catalog
    rw [catalogOf]
    generalize Library.catalog = c
    rfl
  · rw [catalog_ofSettings]
    generalize Library.catalog = c
    rfl
  · rw [catalog_ofSettings, Option.getD_none]

theorem numberFree_viewTree : sampleProject.NumberFree viewTree ["View.ui.xml"] := by
  have hdiscreet : (["View.ui.xml"] : List Text).all fun file =>
      match sampleProject.template viewTree file with
      | .error _ => true
      | .ok template =>
        template.looksDiscreet sampleProject.catalog sampleProject.settings := by
    decide +kernel
  intro file hfile template htemplate
  have hlooks := List.all_eq_true.mp hdiscreet file hfile
  rw [htemplate] at hlooks
  exact Template.numberFree (.inr (Template.discreet_of_looksDiscreet hlooks))

/-- The programs of a project look as if they were written to files of their own: their suffix does
not end like that of templates, and each is written where no file is. No file holds the front of a
marker. -/
def LooksApart (p : Project) (t : FileTree) (files : List Text) : Prop :=
  Text.endsWith p.settings.outputSuffix p.settings.templateSuffix = false ∧
    (∀ file ∈ files, p.outputPlace file ∉ t.files.map (·.1)) ∧
    ∀ f ∈ t.files, Text.contains f.2 Marker.front = false

instance (p : Project) (t : FileTree) (files : List Text) : Decidable (p.LooksApart t files) :=
  inferInstanceAs (Decidable (_ ∧ _ ∧ _))

/-- The programs of a project look apart and are all written, but a check behind that fails; other
markers were made before it, if any. -/
def FailsCheck (p : Project) (t : FileTree) (used : Nat) : Prop :=
  ∃ files, p.templates t = .ok files ∧ p.LooksApart t files ∧
    (p.run .write t).failure = none ∧ (p.runAfter used .check (p.run .write t).tree).failure ≠ none

/-- A project whose programs get a suffix. -/
def suffixed (outputSuffix : Text) : Project :=
  { root := ".", settings := { Template.sampleSettings with outputSuffix },
    catalog := Template.sampleCatalog.loading
      { package := Library.resourcesPackage, name := "resources",
        types := [{ name := "ImageResource", kind := "interface" }] } }

/-- A template and a directory of its name, with a template that has no name. -/
def sharedTree : FileTree where
  files := [("a.ui.xml", Batch.referring.source), ("a/.ui.xml", Batch.referring.source)]

/-- A template with a label and an image, and a file with the image. -/
def imageTree : FileTree where
  files := [
    ("logo.ui.xml",
      "<ui:UiBinder xmlns:ui=\"urn:ui:uibind\" xmlns:g=\"urn:import:uibind.dev/ui\">" ++
        "<ui:image field=\"logo\"/><g:Label/></ui:UiBinder>"),
    ("logo.gif", ("GIF89a" : Text) ++ [1, 0, 1, 0, 0, 0, 0, 0x3B])]

end Project

end ViewBinder
