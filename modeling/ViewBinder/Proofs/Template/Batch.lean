-- Templates compiled together, whatever order their steps come in. Every number goes to one template,
-- and the numbers of a template increase. Beyond its numbers the others mean nothing to a template: its
-- outcome is what it gives alone when its markers are handed these numbers, and the descriptors it
-- finds are those it would work out itself. Markers that are read as text give the numbers away,
-- though.
import Mathlib.Data.Finset.Card
import Mathlib.Data.List.Range
import Mathlib.Logic.Relation
import ViewBinder.Batch
import ViewBinder.Proofs.Blind.Weave
import ViewBinder.Proofs.Markup.Preorder
import ViewBinder.Proofs.Numbering.Template
import ViewBinder.Proofs.Template.Phases
import ViewBinder.Proofs.Template.StyleReferences

namespace ViewBinder

/-! ## Numbers -/

/-- The numbers last for as many markers. -/
theorem Numbering.le {n : Nat} (ν : Numbering n) : n ≤ Marker.maxId + 1 := by
  have hle := Finset.card_le_card_of_injOn ν.supply (s := Finset.range n)
    (t := Finset.range (Marker.maxId + 1))
    (fun k hk => by
      simpa using Nat.lt_succ_of_le (ν.small k (Finset.mem_range.mp hk)))
    (fun k hk l hl => ν.injective k (Finset.mem_range.mp hk) l (Finset.mem_range.mp hl))
  rwa [Finset.card_range, Finset.card_range] at hle

/-- There are numbers for more markers. -/
theorem Numbering.exists_extension {m n : Nat} (ν : Numbering m) (hmn : m ≤ n)
    (hn : n ≤ Marker.maxId + 1) : ∃ ν' : Numbering n, ∀ k < m, ν'.supply k = ν.supply k := by
  induction n, hmn using Nat.le_induction with
  | base => exact ⟨ν, fun _ _ => rfl⟩
  | succ n hmn ih =>
    obtain ⟨ν', hsame⟩ := ih (Nat.le_of_succ_le hn)
    have hcard : ((Finset.range n).image ν'.supply).card <
        (Finset.range (Marker.maxId + 1)).card := by
      refine Nat.lt_of_le_of_lt Finset.card_image_le ?_
      rwa [Finset.card_range, Finset.card_range]
    obtain ⟨new, hsmall, hnew⟩ := Finset.exists_mem_notMem_of_card_lt_card hcard
    have hother : ∀ k < n, ν'.supply k ≠ new := fun k hk heq =>
      hnew (Finset.mem_image.mpr ⟨k, Finset.mem_range.mpr hk, heq⟩)
    refine ⟨⟨fun k => if k = n then new else ν'.supply k, fun k hk l hl heq => ?_, fun k hk => ?_⟩,
      fun k hk => ?_⟩
    · split at heq <;> split at heq
      · omega
      · exact absurd heq.symm (hother l (by omega))
      · exact absurd heq (hother k (by omega))
      · exact ν'.injective k (by omega) l (by omega) heq
    · split
      · exact Nat.le_of_lt_succ (Finset.mem_range.mp hsmall)
      · exact ν'.small k (by omega)
    · exact (if_neg (by omega)).trans (hsame k hk)

/-! ## One template -/

/-- Other numbers for markers that a template does not make are all the same to it, and so is another
place to read files from where the paths that its directives seek mean the same. What could not be
read may be there if `excuse`. -/
theorem Template.compileWith_elsewhere {excuse : Prop} {supply other : Nat → Nat} {c : Catalog}
    {settings : Settings} {t : Template} {files : Option FileSource}
    (hsought : ∀ d, Markup.Document.load t.source t.url = .ok d → ∀ path ∈ sought t.files d,
      Bundle.Agree excuse t.files files path)
    (h : ∀ k < (t.compileWith supply c settings).markers, other k = supply k) :
    compileWith other c settings { t with files } = t.compileWith supply c settings ∨
      excuse ∧ ∃ failure, (t.compileWith supply c settings).answer = .error failure := by
  unfold compileWith at h ⊢
  dsimp only
  split
  · exact .inl rfl
  · rename_i d hload
    rw [hload] at h
    dsimp only at h
    obtain ⟨_, hsource, hroot⟩ := answer_bind hload
    obtain ⟨_, -, hsame⟩ := answer_bind hroot
    cases hsame
    have horder := Markup.Document.inDocumentOrder_of_load hsource
    have hstart : ({ t with files } : Template).opened settings
        (({ t with files } : Template).start c settings other d) =
        Surrounded.surround ⟨other, files⟩ (t.opened settings (t.start c settings supply d)) := rfl
    have hnodup : (d.node 0).children.Nodup := (horder.sorted 0).imp Nat.ne_of_lt
    have hbelow : 0 ∉ (d.node 0).children := fun hmem => by
      have hcount := horder.listed 0 0
      rw [horder.root.2.2, if_neg nofun] at hcount
      exact List.count_eq_zero.mp hcount hmem
    have hdocument : (t.opened settings (t.start c settings supply d)).document = d := rfl
    have hfiles : (t.opened settings (t.start c settings supply d)).bundle.files = t.files := rfl
    have hsupply : (t.opened settings (t.start c settings supply d)).markers.supply = supply := rfl
    rw [runOn_opened] at h
    rw [runOn_opened, runOn_opened, hstart,
      show ({ t with files } : Template).finish settings = t.finish settings from rfl]
    generalize t.opened settings (t.start c settings supply d) = s
      at h hdocument hfiles hsupply ⊢
    have hgather : Work.FollowsAt excuse (gather 0) s ⟨other, files⟩ := by
      refine followsAt_gather (by rwa [hdocument]) (by rwa [hdocument]) ?_
      rw [hdocument, hfiles]
      exact hsought d hsource
    have hfollows : Work.FollowsAt excuse (do
        let f ← read 0
        t.finish settings f : Work Session Compiled) s ⟨other, files⟩ :=
      (followsAt_read hgather).bind fun f s' _ => .of_follows inferInstance excuse s' _
    -- what the work does beyond following its surroundings plays no part
    generalize (do
      let f ← read 0
      t.finish settings f : Work Session Compiled) = w at h hfollows ⊢
    have hagree : ∀ k, s.markers.size ≤ k → k < (w.runOn s).2.markers.size →
        other k = s.markers.supply k := by
      intro k _ hk
      rw [hsupply]
      exact h k hk
    rcases hfollows.follows hagree with hsame | hfails
    · left
      rw [hsame]
      rfl
    · exact .inr hfails

/-- Numbers for markers that a template does not make are all the same to it. -/
theorem Template.compileWith_agree {supply other : Nat → Nat} {c : Catalog} {settings : Settings}
    {t : Template}
    (h : ∀ k < (t.compileWith supply c settings).markers, other k = supply k) :
    t.compileWith other c settings = t.compileWith supply c settings :=
  (compileWith_elsewhere (fun _ _ path _ => Bundle.Agree.refl False t.files path) h).resolve_right
    fun hno => hno.1

/-- A template that makes no markers has one outcome. -/
theorem Template.compileWith_of_unmarked {c : Catalog} {settings : Settings} {t : Template}
    (h : (t.compile c settings).markers = 0) (supply : Nat → Nat) :
    compileWith supply c settings t = t.compile c settings := by
  refine compileWith_agree fun k hk => ?_
  rw [show (compileWith (· + 1) c settings t).markers = 0 from h] at hk
  cases hk

/-- A template that makes more than `n` markers does so whenever the first `n` are handed these
numbers. -/
theorem Template.lt_markers_of_agree {supply other : Nat → Nat} {c : Catalog} {settings : Settings}
    {t : Template} {n : Nat} (hagree : ∀ k < n, other k = supply k)
    (h : n < (t.compileWith supply c settings).markers) :
    n < (t.compileWith other c settings).markers := by
  by_contra hfew
  have hsame : t.compileWith supply c settings = t.compileWith other c settings :=
    compileWith_agree fun k hk => (hagree k (Nat.lt_of_lt_of_le hk (Nat.not_lt.mp hfew))).symm
  rw [hsame] at h
  exact hfew h

/-- What becomes of a discreet template is the same whatever numbers its markers have, if there are
enough of them. -/
theorem Template.Discreet.compileWith_numbered {c : Catalog} {settings : Settings} {t : Template}
    (h : t.Discreet c settings) {n : Nat} (ν : Numbering n)
    (hn : (t.compileWith ν.supply c settings).markers ≤ n) :
    (t.compileWith ν.supply c settings).text? = (t.compile c settings).text? ∧
      (t.compileWith ν.supply c settings).log = (t.compile c settings).log ∧
      (t.compileWith ν.supply c settings).markers = (t.compile c settings).markers := by
  have hle : max n (t.compile c settings).markers ≤ Marker.maxId + 1 := by
    have hsmall := h.small
    exact Nat.max_le.mpr ⟨ν.le, by omega⟩
  obtain ⟨μ, hμ⟩ := ν.exists_extension (Nat.le_max_left n _) hle
  have hsame : t.compileWith μ.supply c settings = t.compileWith ν.supply c settings :=
    compileWith_agree fun k hk => hμ k (Nat.lt_of_lt_of_le hk hn)
  rw [← hsame]
  exact h.compileWith (μ.restrict (Nat.le_max_right n _))

/-! ## Kept descriptors -/

/-- Whatever is kept belongs to a type that everybody sees, and is what would be worked out again. -/
def DescriptorCache.Sound (kept : DescriptorCache) (c : Catalog) : Prop :=
  ∀ entry ∈ kept.entries, ∃ t, c.shared.lookup entry.1 = some t ∧ entry.2 = c.describe t

theorem DescriptorCache.sound_empty (c : Catalog) : ({} : DescriptorCache).Sound c := nofun

variable {kept : DescriptorCache} {c : Catalog} {t : TypeId}

/-- What is found is what would be worked out, and what is kept then stays sound. -/
theorem DescriptorCache.Sound.get (h : kept.Sound c) (ht : c.shared.lookup (c.decl t).key = some t) :
    (kept.get c t).1 = c.describe t ∧ (kept.get c t).2.Sound c := by
  unfold DescriptorCache.get
  rcases hfound : kept.entries.lookup (c.key t) with _ | d
  · refine ⟨rfl, fun entry hentry => ?_⟩
    rcases List.mem_append.mp hentry with hold | hnew
    · exact h entry hold
    · rw [List.mem_singleton.mp hnew]
      exact ⟨t, ht, rfl⟩
  · refine ⟨?_, h⟩
    obtain ⟨t', ht', hd⟩ := h _ (Catalog.mem_of_lookup hfound)
    rw [show c.key (some t) = (c.decl t).key from rfl, ht] at ht'
    cases ht'
    exact hd

/-! ## Steps -/

namespace Batch

variable {b : Batch} {used : Nat} {kept : DescriptorCache} {s s' : State}

namespace Stage

@[simp] theorem ids_waiting : waiting.ids = [] := rfl

@[simp] theorem ids_running (ids : List Nat) : (running ids).ids = ids := rfl

@[simp] theorem ids_done (ids : List Nat) (o : Outcome) : (done ids o).ids = ids := rfl

@[simp] theorem isWaiting_waiting : waiting.isWaiting = true := rfl

@[simp] theorem isWaiting_running (ids : List Nat) : (running ids).isWaiting = false := rfl

@[simp] theorem isWaiting_done (ids : List Nat) (o : Outcome) :
    (done ids o).isWaiting = false := rfl

@[simp] theorem isRunning_waiting : waiting.isRunning = false := rfl

@[simp] theorem isRunning_running (ids : List Nat) : (running ids).isRunning = true := rfl

@[simp] theorem isRunning_done (ids : List Nat) (o : Outcome) :
    (done ids o).isRunning = false := rfl

end Stage

/-- A template was handed no more numbers than it makes markers, and as many when it is done. What it
gives follows from them. -/
def Accords (b : Batch) (t : Template) : Stage → Prop
  | .waiting => True
  | .running ids => ids.length ≤ (b.compiled ids t).markers
  | .done ids o => o = b.compiled ids t ∧ o.markers = ids.length

/-- What holds of a batch, whatever happened since `used` numbers were handed out. -/
structure Fair (b : Batch) (used : Nat) (s : State) : Prop where
  templates : s.units.map (·.1) = b.templates
  accords : ∀ u ∈ s.units, b.Accords u.1 u.2
  counts : used ≤ s.counter
  /-- Every number was handed to one template, once. -/
  handed : (s.units.flatMap (·.2.ids)).Perm (List.range' (used + 1) (s.counter - used))
  increasing : ∀ u ∈ s.units, u.2.ids.Pairwise (· < ·)
  limited : s.units.countP (·.2.isRunning) ≤ b.limit
  kept : s.kept.Sound b.catalog

theorem fair_opening (hkept : kept.Sound b.catalog) : b.Fair used (b.opening used kept) where
  templates := by
    unfold opening
    rw [List.map_map]
    exact List.map_id _
  accords u hu := by
    obtain ⟨t, -, rfl⟩ := List.mem_map.mp hu
    trivial
  counts := Nat.le_refl _
  handed := by
    show ((b.templates.map fun t => (t, Stage.waiting)).flatMap _).Perm
      (List.range' (used + 1) (used - used))
    rw [List.flatMap_map, Nat.sub_self]
    simp
  increasing u hu := by
    obtain ⟨t, -, rfl⟩ := List.mem_map.mp hu
    exact .nil
  limited := by
    show (b.templates.map fun t => (t, Stage.waiting)).countP _ ≤ _
    rw [List.countP_map]
    simp [Function.comp_def]
  kept := hkept

/-- The numbers of a template come from those that were handed out. -/
theorem Fair.le_counter (h : b.Fair used s) {u : Template × Stage} (hu : u ∈ s.units) {n : Nat}
    (hn : n ∈ u.2.ids) : used < n ∧ n ≤ s.counter := by
  have hmem := h.handed.mem_iff.mp (List.mem_flatMap.mpr ⟨u, hu, hn⟩)
  have hcounts := h.counts
  rw [List.mem_range'_1] at hmem
  omega

/-- One more number keeps to those before it. -/
theorem handing_append (ids more : List Nat) {k : Nat} (hk : k < ids.length) :
    handing (ids ++ more) k = handing ids k := by
  unfold handing
  rw [List.getD_eq_getElem?_getD, List.getElem?_append_left hk, List.getD_eq_getElem?_getD]

theorem Fair.step (h : b.Fair used s) (hstep : b.Step s s') : b.Fair used s' := by
  obtain ⟨htemplates, haccords, hcounts, hhanded, hincreasing, hlimited, hkept⟩ := id h
  cases hstep with
  | @start past future t hunits hpast hfree =>
    rw [hunits] at htemplates haccords hhanded hincreasing hfree
    refine ⟨by simpa using htemplates, ?_, hcounts, by simpa using hhanded, ?_, ?_, hkept⟩
    · simp only [List.forall_mem_append, List.forall_mem_cons] at haccords ⊢
      exact ⟨haccords.1, Nat.zero_le _, haccords.2.2⟩
    · simp only [List.forall_mem_append, List.forall_mem_cons] at hincreasing ⊢
      exact ⟨hincreasing.1, .nil, hincreasing.2.2⟩
    · simp only [List.countP_append, List.countP_cons, Stage.isRunning_waiting,
        Stage.isRunning_running, Bool.false_eq_true, if_false, if_true] at hfree ⊢
      omega
  | @number past future t ids hunits hasks =>
    have hbelow : ∀ n ∈ ids, n ≤ s.counter := fun n hn =>
      (h.le_counter (u := (t, .running ids)) (by simp [hunits]) hn).2
    rw [hunits] at htemplates haccords hhanded hincreasing hlimited
    refine ⟨by simpa using htemplates, ?_, Nat.le_succ_of_le hcounts, ?_, ?_, ?_, hkept⟩
    · simp only [List.forall_mem_append, List.forall_mem_cons] at haccords ⊢
      refine ⟨haccords.1, ?_, haccords.2.2⟩
      have hmore : ids.length < (b.compiled (ids ++ [s.counter + 1]) t).markers :=
        Template.lt_markers_of_agree (fun k hk => handing_append ids _ hk) hasks
      show (ids ++ [s.counter + 1]).length ≤ _
      rw [List.length_append]
      exact hmore
    · show ((past ++ _ :: future).flatMap _).Perm (List.range' (used + 1) (s.counter + 1 - used))
      rw [show s.counter + 1 - used = s.counter - used + 1 by omega, List.range'_1_concat,
        show used + 1 + (s.counter - used) = s.counter + 1 by omega]
      simp only [List.flatMap_append, List.flatMap_cons, Stage.ids_running] at hhanded ⊢
      -- the new number is moved behind the numbers of the templates that follow
      refine List.Perm.trans ?_ (hhanded.append_right [s.counter + 1])
      simp only [List.append_assoc]
      exact ((List.perm_append_comm).append_left ids).append_left _
    · simp only [List.forall_mem_append, List.forall_mem_cons] at hincreasing ⊢
      refine ⟨hincreasing.1, ?_, hincreasing.2.2⟩
      refine List.pairwise_append.mpr ⟨hincreasing.2.1, List.pairwise_singleton _ _, ?_⟩
      intro n hn m hm
      rw [List.mem_singleton.mp hm]
      exact Nat.lt_succ_of_le (hbelow n hn)
    · simpa [List.countP_cons] using hlimited
  | @describe past future t ids type hunits hshared =>
    exact ⟨htemplates, haccords, hcounts, hhanded, hincreasing, hlimited, (hkept.get hshared).2⟩
  | @finish past future t ids hunits hends =>
    rw [hunits] at htemplates haccords hhanded hincreasing hlimited
    refine ⟨by simpa using htemplates, ?_, hcounts, by simpa using hhanded, ?_, ?_, hkept⟩
    · simp only [List.forall_mem_append, List.forall_mem_cons] at haccords ⊢
      exact ⟨haccords.1, ⟨rfl, Nat.le_antisymm hends haccords.2.1⟩, haccords.2.2⟩
    · simp only [List.forall_mem_append, List.forall_mem_cons] at hincreasing ⊢
      exact hincreasing
    · simp only [List.countP_append, List.countP_cons, Stage.isRunning_running,
        Stage.isRunning_done, Bool.false_eq_true, if_false, if_true] at hlimited ⊢
      omega

/-- Step after step. -/
def Run (b : Batch) : State → State → Prop := Relation.ReflTransGen b.Step

theorem Run.refl (s : State) : b.Run s s := Relation.ReflTransGen.refl

theorem Run.single (h : b.Step s s') : b.Run s s' := Relation.ReflTransGen.single h

theorem Run.trans {s'' : State} (h : b.Run s s') (h' : b.Run s' s'') : b.Run s s'' :=
  Relation.ReflTransGen.trans h h'

theorem Run.fair (hkept : kept.Sound b.catalog) (h : b.Run (b.opening used kept) s) :
    b.Fair used s := by
  induction h with
  | refl => exact fair_opening hkept
  | tail _ hstep ih => exact ih.step hstep

/-- Until all templates are done, one of them can go on or the next one can be taken up. -/
theorem goes_on (hopen : ∃ u ∈ s.units, u.2.outcome? = none) :
    ∃ s', b.Step s s' ∧ s'.units ≠ s.units := by
  by_cases hrunning : ∃ u ∈ s.units, u.2.isRunning = true
  · obtain ⟨⟨t, stage⟩, hu, hstage⟩ := hrunning
    cases stage with
    | waiting => cases hstage
    | done _ _ => cases hstage
    | running ids =>
      obtain ⟨past, future, hunits⟩ := List.append_of_mem hu
      rcases Nat.lt_or_ge ids.length (b.compiled ids t).markers with hasks | hends
      · exact ⟨_, .number past hunits hasks, by simp [hunits]⟩
      · exact ⟨_, .finish past hunits hends, by simp [hunits]⟩
  · have hnone : ∀ u ∈ s.units, u.2.isRunning = false := fun u hu =>
      Bool.eq_false_iff.mpr fun htrue => hrunning ⟨u, hu, htrue⟩
    obtain ⟨u, hu, hopen⟩ := hopen
    have hwaiting : u.2.isWaiting = true := by
      have hu' := hnone u hu
      rcases u with ⟨t, _ | _ | _⟩
      · rfl
      · cases hu'
      · cases hopen
    obtain ⟨⟨t, stage⟩, hfound⟩ := Option.isSome_iff_exists.mp
      (List.find?_isSome (p := fun u => u.2.isWaiting).mpr ⟨u, hu, hwaiting⟩)
    obtain ⟨hstage, past, future, hunits, hpast⟩ := List.find?_eq_some_iff_append.mp hfound
    have hnext : stage = .waiting := by
      cases stage with
      | waiting => rfl
      | running _ => cases hstage
      | done _ _ => cases hstage
    subst hnext
    have hfree : s.units.countP (·.2.isRunning) < b.limit := by
      rw [List.countP_eq_zero.mpr fun u hu => Bool.eq_false_iff.mp (hnone u hu)]
      exact Nat.lt_of_lt_of_le Nat.one_pos (Nat.le_max_right _ _)
    exact ⟨_, .start past hunits (fun u hu => by simpa using hpast u hu) hfree, by simp [hunits]⟩

/-- A batch may end with these outcomes, one for each template, when `used` numbers were handed out
before and these descriptors were kept, and numbers up to `last` are handed out. -/
def Ends (b : Batch) (used last : Nat) (kept : DescriptorCache) (outcomes : List Outcome) : Prop :=
  ∃ s, b.Run (b.opening used kept) s ∧ s.counter ≤ last ∧
    s.units.map (·.2.outcome?) = outcomes.map some

variable {last : Nat} {outcomes : List Outcome}

theorem Ends.length_eq (hkept : kept.Sound b.catalog) (h : b.Ends used last kept outcomes) :
    outcomes.length = b.templates.length := by
  obtain ⟨s, hrun, -, hends⟩ := h
  have hlength := congrArg List.length hends
  rw [List.length_map, List.length_map] at hlength
  rw [← hlength, ← (hrun.fair hkept).templates, List.length_map]

/-- A template that is done gives what it gives alone with some numbers for its markers. -/
theorem Fair.numbered (h : b.Fair used s) (hsmall : s.counter ≤ Marker.maxId) {t : Template}
    {ids : List Nat} {o : Outcome} (hdone : (t, Stage.done ids o) ∈ s.units) :
    ∃ ν : Numbering o.markers, o = t.compileWith ν.supply b.catalog b.settings := by
  obtain ⟨ho, hmarkers⟩ : o = b.compiled ids t ∧ o.markers = ids.length := h.accords _ hdone
  have hhanded : ∀ k (hk : k < ids.length), handing ids k = ids[k] := fun k hk => by
    rw [handing, List.getD_eq_getElem?_getD, List.getElem?_eq_getElem hk, Option.getD_some]
  have hdistinct := (h.increasing _ hdone).nodup
  refine ⟨⟨handing ids, fun k hk l hl heq => ?_, fun k hk => ?_⟩, ho⟩
  · rw [hmarkers] at hk hl
    rw [hhanded k hk, hhanded l hl] at heq
    exact hdistinct.getElem_inj_iff.mp heq
  · rw [hmarkers] at hk
    rw [hhanded k hk]
    exact ((h.le_counter hdone (List.getElem_mem _)).2).trans hsmall

/-- Every template of a batch gives what it gives alone with some numbers for its markers. -/
theorem Ends.numbered (hkept : kept.Sound b.catalog) (hsmall : last ≤ Marker.maxId)
    (h : b.Ends used last kept outcomes) :
    List.Forall₂ (fun t o => ∃ ν : Numbering o.markers,
      o = t.compileWith ν.supply b.catalog b.settings) b.templates outcomes := by
  obtain ⟨s, hrun, hlast, hends⟩ := h
  have hfair := hrun.fair hkept
  have hunit : ∀ u ∈ s.units, ∀ o, u.2.outcome? = some o → ∃ ν : Numbering o.markers,
      o = u.1.compileWith ν.supply b.catalog b.settings := by
    rintro ⟨t, _ | _ | ⟨ids, o⟩⟩ hu o' ho'
    · cases ho'
    · cases ho'
    · cases ho'
      exact hfair.numbered (hlast.trans hsmall) hu
  rw [← hfair.templates]
  generalize s.units = units at hunit hends
  induction units generalizing outcomes with
  | nil =>
    rw [List.map_nil, eq_comm, List.map_eq_nil_iff] at hends
    exact hends ▸ .nil
  | cons u units ih =>
    rcases outcomes with _ | ⟨o, outcomes⟩
    · cases hends
    · rw [List.map_cons, List.map_cons, List.cons.injEq] at hends
      obtain ⟨hfirst, hrest⟩ := List.forall_mem_cons.mp hunit
      exact .cons (hfirst o hends.1) (ih hrest hends.2)

/-! ## Batches -/

/-- A template that declares another label and holds an interface. -/
def withLabel (interface : Text) : Template :=
  { source := "<ui:UiBinder xmlns:ui=\"urn:ui:uibind\" xmlns:g=\"urn:import:uibind.dev/ui\">" ++
      "<ui:with field=\"s\" type=\"uibind.dev/ui.Label\"/>" ++ interface ++ "</ui:UiBinder>",
    url := "View.ui.xml" }

/-- A label that shows the text of another one. -/
def referring : Template := withLabel "<g:Label text=\"\x7bs.text\x7d\"/>"

/-- Two templates that are taken up together. The first one is handed a number, and the other one,
which makes one marker, gets the number behind it and is done first. -/
theorem run_behind {t t' : Template} (htemplates : b.templates = [t, t']) (hlimit : 1 < b.limit)
    (hmarks : 0 < (b.compiled [] t).markers) (hmarks' : 0 < (b.compiled [] t').markers)
    (hends : (b.compiled [2] t').markers ≤ 1) :
    b.Run (b.opening 0 {})
      ⟨2, {}, [(t, .running [1]), (t', .done [2] (b.compiled [2] t'))]⟩ := by
  have hopening : b.opening 0 {} = ⟨0, {}, [(t, .waiting), (t', .waiting)]⟩ := by
    unfold opening
    rw [htemplates]
    rfl
  rw [hopening]
  have hfirst : b.Step ⟨0, {}, [(t, .waiting), (t', .waiting)]⟩
      ⟨0, {}, [(t, .running []), (t', .waiting)]⟩ :=
    .start [] rfl (List.forall_mem_nil _) (Nat.lt_of_succ_lt hlimit)
  have hsecond : b.Step ⟨0, {}, [(t, .running []), (t', .waiting)]⟩
      ⟨0, {}, [(t, .running []), (t', .running [])]⟩ :=
    .start [(t, .running [])] rfl (List.forall_mem_singleton.mpr rfl) hlimit
  have hunits : [(t, Stage.running []), (t', Stage.running [])] =
      [] ++ (t, .running []) :: [(t', .running [])] := rfl
  have hnumber : b.Step ⟨0, {}, [(t, .running []), (t', .running [])]⟩
      ⟨1, {}, [(t, .running [1]), (t', .running [])]⟩ :=
    Step.number (b := b) (s := ⟨0, {}, _⟩) [] hunits hmarks
  have hnumber' : b.Step ⟨1, {}, [(t, .running [1]), (t', .running [])]⟩
      ⟨2, {}, [(t, .running [1]), (t', .running [2])]⟩ :=
    Step.number (b := b) (s := ⟨1, {}, _⟩) [(t, .running [1])] rfl hmarks'
  have hfinish : b.Step ⟨2, {}, [(t, .running [1]), (t', .running [2])]⟩
      ⟨2, {}, [(t, .running [1]), (t', .done [2] (b.compiled [2] t'))]⟩ :=
    .finish [(t, .running [1])] rfl hends
  exact ((((Run.single hfirst).tail hsecond).tail hnumber).tail hnumber').tail hfinish

/-- Two workers with the label twice. -/
def twoLabels : Batch :=
  ⟨Template.sampleCatalog, Template.sampleSettings, 2, [referring, referring]⟩

/-- A label in markup, whose name is read when references in its attributes are markers. -/
def named : Template :=
  withLabel "<g:HTMLPanel><g:Label field=\"\x7bs.text\x7d\"/></g:HTMLPanel>"

/-- A panel whose text is a marker once the comment in it is dropped. -/
def forged : Template :=
  withLabel ("<g:FlowPanel><g:Label text=\"\x7bs.text\x7d\"/>" ++
    "<g:HTMLPanel>--to<!-- -->ken--1--end-token--</g:HTMLPanel></g:FlowPanel>")

end Batch

end ViewBinder
