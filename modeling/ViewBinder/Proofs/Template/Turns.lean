-- Batches whose templates are compiled one after the other. However many workers there are, the
-- templates may be compiled in one go each; and where there is one worker, they are compiled in their
-- order and in no other way.
import ViewBinder.Proofs.Template.Batch

namespace ViewBinder

namespace Template

variable (c : Catalog) (settings : Settings)

/-- How many numbers are handed out for templates that are compiled one after the other. -/
def numbersFrom (used : Nat) (ts : List Template) : Nat :=
  ((compileFrom c settings used ts).map (·.markers)).sum

theorem numbersFrom_cons (used : Nat) (t : Template) (ts : List Template) :
    numbersFrom c settings used (t :: ts) =
      (compileWith (· + used + 1) c settings t).markers +
        numbersFrom c settings (used + (compileWith (· + used + 1) c settings t).markers) ts := by
  unfold numbersFrom
  rw [compileFrom, List.map_cons, List.sum_cons]

/-- Templates behind others go on with the numbers behind theirs. -/
theorem compileFrom_append (used : Nat) (ts ts' : List Template) :
    compileFrom c settings used (ts ++ ts') = compileFrom c settings used ts ++
      compileFrom c settings (used + numbersFrom c settings used ts) ts' := by
  induction ts generalizing used with
  | nil => rfl
  | cons t ts ih =>
    rw [numbersFrom_cons, List.cons_append, compileFrom, compileFrom, ih, ← Nat.add_assoc]
    rfl

theorem numbersFrom_append (used : Nat) (ts ts' : List Template) :
    numbersFrom c settings used (ts ++ ts') = numbersFrom c settings used ts +
      numbersFrom c settings (used + numbersFrom c settings used ts) ts' := by
  unfold numbersFrom
  rw [compileFrom_append, List.map_append, List.sum_append]
  rfl

theorem length_compileFrom (used : Nat) (ts : List Template) :
    (compileFrom c settings used ts).length = ts.length := by
  induction ts generalizing used with
  | nil => rfl
  | cons t ts ih => exact congrArg (· + 1) (ih _)

end Template

namespace Batch

variable {b : Batch} {used : Nat} {kept : DescriptorCache} {s s' : State}

/-! ## Templates in one go -/

/-- Templates that all are at one stage. -/
def allAt (stage : Stage) (ts : List Template) : List (Template × Stage) := ts.map fun t => (t, stage)

theorem countP_allAt (p : Stage → Bool) (stage : Stage) (ts : List Template) :
    (allAt stage ts).countP (p ·.2) = if p stage then ts.length else 0 := by
  unfold allAt
  rw [List.countP_map]
  simp only [Function.comp_def]
  split <;> simp [*]

theorem forall_mem_allAt {P : Template × Stage → Prop} {stage : Stage} {ts : List Template}
    (h : ∀ {t}, P (t, stage)) : ∀ u ∈ allAt stage ts, P u :=
  List.forall_mem_map.mpr fun _ _ => h

/-- Numbers that are handed out one after the other. -/
theorem handing_range' {n k m : Nat} (hk : k < m) : handing (List.range' n m) k = n + k := by
  unfold handing
  rw [List.getD_eq_getElem?_getD, List.getElem?_range' hk, Nat.one_mul, Option.getD_some]

/-- A template that was handed numbers one after the other gives what it does when all numbers behind
those before are its own. -/
theorem compiled_range' {t : Template} {n m : Nat}
    (h : (b.compiled (List.range' (n + 1) m) t).markers ≤ m) :
    t.compileWith (· + n + 1) b.catalog b.settings = b.compiled (List.range' (n + 1) m) t := by
  refine Template.compileWith_agree fun k hk => ?_
  rw [handing_range' (Nat.lt_of_lt_of_le hk h)]
  omega

theorem lt_compiled_range' {t : Template} {n m : Nat} :
    m < (b.compiled (List.range' (n + 1) m) t).markers ↔
      m < (t.compileWith (· + n + 1) b.catalog b.settings).markers := by
  have hagree : ∀ k < m, handing (List.range' (n + 1) m) k = k + n + 1 := by
    intro k hk
    rw [handing_range' hk]
    omega
  exact ⟨Template.lt_markers_of_agree fun k hk => (hagree k hk).symm,
    Template.lt_markers_of_agree hagree⟩

/-- What is left to compile of a template that makes no markers before others do. -/
theorem run_unit {past future : List (Template × Stage)} {t : Template} {o : Outcome}
    (ho : t.compileWith (· + s.counter + 1) b.catalog b.settings = o)
    (hunits : s.units = past ++ (t, .running []) :: future) :
    b.Run s ⟨s.counter + o.markers, s.kept,
      past ++ (t, .done (List.range' (s.counter + 1) o.markers) o) :: future⟩ := by
  have hnumbers : ∀ m ≤ o.markers, b.Run s ⟨s.counter + m, s.kept,
      past ++ (t, .running (List.range' (s.counter + 1) m)) :: future⟩ := by
    intro m hm
    induction m with
    | zero =>
      obtain ⟨counter, kept, units⟩ := s
      cases hunits
      exact Run.refl _
    | succ m ih =>
      refine (ih (Nat.le_of_succ_le hm)).tail ?_
      have hasks := lt_compiled_range'.mpr (ho.symm ▸ hm)
      rw [List.range'_1_concat, Nat.add_right_comm]
      exact .number past rfl (by rwa [List.length_range'])
  have hends : (b.compiled (List.range' (s.counter + 1) o.markers) t).markers ≤ o.markers :=
    Nat.not_lt.mp fun hmore => Nat.lt_irrefl _ (ho ▸ lt_compiled_range'.mp hmore)
  have hcompiled : b.compiled (List.range' (s.counter + 1) o.markers) t = o :=
    (compiled_range' hends).symm.trans ho
  refine (hnumbers o.markers (Nat.le_refl _)).tail ?_
  have hfinish := Step.finish (b := b) (s := ⟨s.counter + o.markers, s.kept,
    past ++ (t, .running (List.range' (s.counter + 1) o.markers)) :: future⟩) past rfl
  rw [hcompiled, List.length_range'] at hfinish
  exact hfinish (Nat.le_refl _)

/-- The templates behind those that were taken up can be taken up as long as workers are free. -/
theorem run_starts (past : List (Template × Stage)) {future : List (Template × Stage)}
    {ts : List Template}
    (hunits : s.units = past ++ (allAt .waiting ts ++ future))
    (hpast : ∀ u ∈ past, u.2.isWaiting = false)
    (hfuture : future.countP (·.2.isRunning) = 0)
    (hfree : past.countP (·.2.isRunning) + ts.length ≤ b.limit) :
    b.Run s { s with units := past ++ (allAt (.running []) ts ++ future) } := by
  induction ts generalizing s past with
  | nil =>
    obtain ⟨counter, kept, units⟩ := s
    cases hunits
    exact Run.refl _
  | cons t ts ih =>
    change s.units = past ++ (t, .waiting) :: (allAt .waiting ts ++ future) at hunits
    rw [List.length_cons] at hfree
    have hcount : s.units.countP (·.2.isRunning) < b.limit := by
      rw [hunits, List.countP_append, List.countP_cons, List.countP_append, hfuture,
        countP_allAt Stage.isRunning]
      simp only [Stage.isRunning_waiting, Bool.false_eq_true, if_false]
      omega
    have hnext := ih (s := { s with units := past ++ (t, Stage.running []) ::
        (allAt .waiting ts ++ future) }) (past ++ [(t, .running [])]) (by simp)
      (List.forall_mem_append.mpr ⟨hpast, List.forall_mem_singleton.mpr rfl⟩) (by
        simp only [List.countP_append, List.countP_singleton, Stage.isRunning_running, if_true]
        omega)
    exact (Run.single (.start past hunits hpast hcount)).trans (by simpa [allAt] using hnext)

/-- The templates that were taken up can be compiled one after the other. -/
theorem run_running (past : List (Template × Stage)) {future : List (Template × Stage)}
    {ts : List Template}
    (hunits : s.units = past ++ (allAt (.running []) ts ++ future)) :
    ∃ done, b.Run s ⟨s.counter + Template.numbersFrom b.catalog b.settings s.counter ts, s.kept,
        past ++ (done ++ future)⟩ ∧
      done.map (·.2.outcome?) =
        (Template.compileFrom b.catalog b.settings s.counter ts).map some := by
  induction ts generalizing s past with
  | nil =>
    obtain ⟨counter, kept, units⟩ := s
    cases hunits
    exact ⟨[], Run.refl _, rfl⟩
  | cons t ts ih =>
    have hfirst := run_unit (b := b) (s := s) (t := t) rfl hunits
    rw [Template.numbersFrom_cons, Template.compileFrom, ← Nat.add_assoc]
    generalize t.compileWith (· + s.counter + 1) b.catalog b.settings = o at hfirst ⊢
    obtain ⟨done, hrest, hdone⟩ := ih (s := ⟨s.counter + o.markers, s.kept, _⟩)
      (past ++ [(t, .done (List.range' (s.counter + 1) o.markers) o)])
      (by rw [← List.append_cons])
    refine ⟨(t, .done (List.range' (s.counter + 1) o.markers) o) :: done, ?_, ?_⟩
    · rw [← List.append_cons] at hrest
      exact hfirst.trans hrest
    · rw [List.map_cons, List.map_cons, hdone]
      rfl

/-- The templates that were not taken up can be compiled one after the other while a worker is
free. -/
theorem run_waiting (past : List (Template × Stage)) {ts : List Template}
    (hunits : s.units = past ++ allAt .waiting ts)
    (hpast : ∀ u ∈ past, u.2.isWaiting = false)
    (hfree : past.countP (·.2.isRunning) < b.limit) :
    ∃ done, b.Run s ⟨s.counter + Template.numbersFrom b.catalog b.settings s.counter ts, s.kept,
        past ++ done⟩ ∧
      done.map (·.2.outcome?) =
        (Template.compileFrom b.catalog b.settings s.counter ts).map some := by
  induction ts generalizing s past with
  | nil =>
    obtain ⟨counter, kept, units⟩ := s
    cases hunits
    exact ⟨[], Run.refl _, rfl⟩
  | cons t ts ih =>
    have hstart : b.Run s { s with units := past ++ (allAt (.running []) [t] ++
        allAt .waiting ts) } :=
      run_starts past hunits hpast (by rw [countP_allAt Stage.isRunning]; rfl) hfree
    have hfirst := hstart.trans (run_unit (b := b) (t := t) rfl rfl)
    dsimp only at hfirst
    rw [Template.numbersFrom_cons, Template.compileFrom, ← Nat.add_assoc]
    generalize t.compileWith (· + s.counter + 1) b.catalog b.settings = o at hfirst ⊢
    obtain ⟨done, hrest, hdone⟩ := ih (s := ⟨s.counter + o.markers, s.kept, _⟩)
      (past ++ [(t, .done (List.range' (s.counter + 1) o.markers) o)])
      (by rw [← List.append_cons])
      (List.forall_mem_append.mpr ⟨hpast, List.forall_mem_singleton.mpr rfl⟩) (by
        simpa only [List.countP_append, List.countP_singleton, Stage.isRunning_done,
          Bool.false_eq_true, if_false, Nat.add_zero] using hfree)
    refine ⟨(t, .done (List.range' (s.counter + 1) o.markers) o) :: done, ?_, ?_⟩
    · rw [← List.append_cons] at hrest
      exact hfirst.trans hrest
    · rw [List.map_cons, List.map_cons, hdone]
      rfl

/-- What was taken up is put back in its order. -/
theorem putBack_append {α : Type} {xs ys : List α}
    (h : ys.length = min b.limit (xs.length + ys.length) - 1) :
    b.putBack (xs ++ ys) = ys ++ xs := by
  unfold putBack
  dsimp only
  rw [List.length_append, ← h, Nat.add_sub_cancel, List.drop_left, List.take_left]

theorem outcomes_eq (b : Batch) (used : Nat) {n : Nat}
    (hn : min b.limit b.templates.length - 1 = n) :
    b.outcomes used =
      Template.compileFrom b.catalog b.settings
        (used + Template.numbersFrom b.catalog b.settings used (b.templates.drop n))
        (b.templates.take n) ++
      Template.compileFrom b.catalog b.settings used (b.templates.drop n) := by
  unfold outcomes takenUp
  dsimp only
  rw [hn, Template.compileFrom_append]
  refine putBack_append ?_
  rw [Template.length_compileFrom, Template.length_compileFrom, List.length_take, List.length_drop]
  omega

/-- The templates may be compiled in one go each. -/
theorem ends_outcomes (b : Batch) (used : Nat) (kept : DescriptorCache) :
    b.Ends used
      (used + Template.numbersFrom b.catalog b.settings used (b.takenUp b.templates))
      kept (b.outcomes used) := by
  have hlimit : 0 < b.limit := Nat.lt_of_lt_of_le Nat.one_pos (Nat.le_max_right _ _)
  generalize hwaiting : min b.limit b.templates.length - 1 = n
  have hn : (b.templates.take n).length = n := by
    rw [List.length_take]
    omega
  have hopening : (b.opening used kept).units =
      [] ++ (allAt .waiting (b.templates.take n) ++ allAt .waiting (b.templates.drop n)) := by
    unfold allAt
    rw [List.nil_append, ← List.map_append, List.take_append_drop]
    rfl
  have hstarts : b.Run (b.opening used kept) ⟨used, kept,
      allAt (.running []) (b.templates.take n) ++ allAt .waiting (b.templates.drop n)⟩ :=
    run_starts [] hopening (List.forall_mem_nil _) (by rw [countP_allAt Stage.isRunning]; rfl) (by
      rw [hn, List.countP_nil]
      omega)
  obtain ⟨late, hlate, hlateDone⟩ := run_waiting (b := b) (s := ⟨used, kept,
      allAt (.running []) (b.templates.take n) ++ allAt .waiting (b.templates.drop n)⟩)
    (allAt (.running []) (b.templates.take n)) rfl (forall_mem_allAt rfl) (by
      rw [countP_allAt Stage.isRunning, Stage.isRunning_running, if_pos rfl, hn]
      omega)
  obtain ⟨early, hearly, hearlyDone⟩ := run_running (b := b)
    (s := ⟨used + Template.numbersFrom b.catalog b.settings used (b.templates.drop n), kept,
      allAt (.running []) (b.templates.take n) ++ late⟩) [] rfl
  dsimp only at hlateDone hearlyDone
  refine ⟨_, (hstarts.trans hlate).trans hearly, ?_, ?_⟩
  · unfold takenUp
    dsimp only
    rw [hwaiting, Template.numbersFrom_append, ← Nat.add_assoc]
  · rw [outcomes_eq b used hwaiting, List.nil_append, List.map_append, List.map_append, hearlyDone,
      hlateDone]

/-! ## One worker -/

/-- What comes before and behind an element that is nowhere else. -/
theorem split_eq {α : Type} {as bs cs ds : List α} {x y : α} (h : as ++ x :: bs = cs ++ y :: ds)
    (hx : x ∉ cs) (hy : y ∉ as ∨ x ∉ ds) : as = cs ∧ x = y ∧ bs = ds := by
  rcases List.append_eq_append_iff.mp h with ⟨_ | ⟨z, more⟩, hcs, hrest⟩ | ⟨_ | ⟨z, more⟩, has, hrest⟩
  · cases hrest
    exact ⟨(List.append_nil as).symm.trans hcs.symm, rfl, rfl⟩
  · cases hrest
    exact absurd (hcs ▸ List.mem_append_right as List.mem_cons_self) hx
  · cases hrest
    exact ⟨has.trans (List.append_nil cs), rfl, rfl⟩
  · cases hrest
    rcases hy with hy | hx
    · exact absurd (has ▸ List.mem_append_right cs List.mem_cons_self) hy
    · exact absurd (List.mem_append_right more List.mem_cons_self) hx

/-- One template after the other was compiled: `past` are done, and the first of the others may have
been handed some numbers. -/
structure InTurn (b : Batch) (used : Nat) (s : State) (past future : List Template)
    (done : List (Template × Stage)) : Prop where
  templates : past ++ future = b.templates
  outcomes : done.map (·.2.outcome?) =
    (Template.compileFrom b.catalog b.settings used past).map some
  rest : (s.units = done ++ allAt .waiting future ∧
      s.counter = used + Template.numbersFrom b.catalog b.settings used past) ∨
    ∃ t ts n, future = t :: ts ∧
      n ≤ (t.compileWith
        (· + (used + Template.numbersFrom b.catalog b.settings used past) + 1)
        b.catalog b.settings).markers ∧
      s.units = done ++ (t, .running (List.range'
        (used + Template.numbersFrom b.catalog b.settings used past + 1) n)) :: allAt .waiting ts ∧
      s.counter = used + Template.numbersFrom b.catalog b.settings used past + n

namespace InTurn

variable {past future : List Template} {done before behind : List (Template × Stage)}
  {t : Template}

theorem forall_done (h : b.InTurn used s past future done) : ∀ u ∈ done, ∃ ids o, u.2 = .done ids o := by
  intro u hu
  have hmem := List.mem_map_of_mem (f := fun u : Template × Stage => u.2.outcome?) hu
  rw [h.outcomes] at hmem
  obtain ⟨o, -, ho⟩ := List.mem_map.mp hmem
  rcases u with ⟨t, _ | _ | ⟨ids, o'⟩⟩
  · cases ho
  · cases ho
  · exact ⟨ids, o', rfl⟩

/-- What can be taken up is the first of the templates that are not done, and nothing is running. -/
theorem of_waiting (h : b.InTurn used s past future done)
    (hone : b.limit = 1 ∨ b.templates.length ≤ 1)
    (hunits : s.units = before ++ (t, .waiting) :: behind)
    (hbefore : ∀ u ∈ before, u.2.isWaiting = false)
    (hfree : s.units.countP (·.2.isRunning) < b.limit) :
    ∃ ts, future = t :: ts ∧ before = done ∧ behind = allAt .waiting ts ∧
      s.counter = used + Template.numbersFrom b.catalog b.settings used past := by
  have hnot : (t, Stage.waiting) ∉ done := fun hmem => by
    obtain ⟨_, _, hstage⟩ := h.forall_done _ hmem
    cases hstage
  have hmem : (t, Stage.waiting) ∈ s.units := hunits ▸ List.mem_append_right before List.mem_cons_self
  rcases h.rest with ⟨hall, hcounter⟩ | ⟨t', ts, n, rfl, -, hall, -⟩
  · rcases future with _ | ⟨t', ts⟩
    · rw [hall, show allAt .waiting [] = [] from rfl, List.append_nil] at hmem
      exact absurd hmem hnot
    · obtain ⟨rfl, hsame, rfl⟩ := split_eq (hunits.symm.trans hall) hnot
        (.inl fun hmem => absurd (hbefore _ hmem) nofun)
      cases hsame
      exact ⟨ts, rfl, rfl, rfl, hcounter⟩
  · rcases hone with hone | hfew
    · rw [hone, Nat.lt_one_iff, List.countP_eq_zero] at hfree
      exact absurd (Stage.isRunning_running _)
        (hfree _ (hall ▸ List.mem_append_right done List.mem_cons_self))
    · -- the one template there is runs, so none is waiting
      have hlength := congrArg List.length h.outcomes
      rw [List.length_map, List.length_map, Template.length_compileFrom] at hlength
      rw [← h.templates, List.length_append, List.length_cons] at hfew
      obtain rfl : done = [] := List.eq_nil_of_length_eq_zero (by omega)
      obtain rfl : ts = [] := List.eq_nil_of_length_eq_zero (by omega)
      rw [hall, List.nil_append] at hmem
      cases List.mem_singleton.mp hmem

/-- What is running is the first of the templates that are not done, and it was handed the numbers
behind those of the others. -/
theorem of_running {ids : List Nat} (h : b.InTurn used s past future done)
    (hunits : s.units = before ++ (t, .running ids) :: behind) :
    ∃ ts n, future = t :: ts ∧ before = done ∧ behind = allAt .waiting ts ∧
      ids = List.range' (used + Template.numbersFrom b.catalog b.settings used past + 1) n ∧
      n ≤ (t.compileWith
        (· + (used + Template.numbersFrom b.catalog b.settings used past) + 1)
        b.catalog b.settings).markers ∧
      s.counter = used + Template.numbersFrom b.catalog b.settings used past + n := by
  have hpast : (t, Stage.running ids) ∉ done := fun hmem => by
    obtain ⟨_, _, hstage⟩ := h.forall_done _ hmem
    cases hstage
  have hfuture : ∀ ts, (t, Stage.running ids) ∉ allAt .waiting ts := fun ts hmem =>
    absurd (forall_mem_allAt (P := (·.2.isRunning = false)) rfl _ hmem) nofun
  rcases h.rest with ⟨hall, -⟩ | ⟨t', ts, n, rfl, hn, hall, hcounter⟩
  · have hmem : (t, Stage.running ids) ∈ done ++ allAt .waiting future :=
      hall ▸ hunits ▸ List.mem_append_right before List.mem_cons_self
    exact absurd hmem fun hmem => (List.mem_append.mp hmem).elim hpast (hfuture future)
  · obtain ⟨rfl, hsame, rfl⟩ := split_eq (hunits.symm.trans hall) hpast (.inr (hfuture ts))
    cases hsame
    exact ⟨ts, n, rfl, rfl, rfl, rfl, hn, hcounter⟩

theorem step (hone : b.limit = 1 ∨ b.templates.length ≤ 1) (h : b.InTurn used s past future done)
    (hstep : b.Step s s') :
    ∃ past future done, b.InTurn used s' past future done := by
  cases hstep with
  | start before hunits hbefore hfree =>
    obtain ⟨ts, rfl, rfl, rfl, hcounter⟩ := h.of_waiting hone hunits hbefore hfree
    exact ⟨past, _, before, h.templates, h.outcomes,
      .inr ⟨_, ts, 0, rfl, Nat.zero_le _, rfl, hcounter⟩⟩
  | number before hunits hasks =>
    obtain ⟨ts, n, rfl, rfl, rfl, rfl, hn, hcounter⟩ := h.of_running hunits
    rw [List.length_range'] at hasks
    refine ⟨past, _, before, h.templates, h.outcomes,
      .inr ⟨_, ts, n + 1, rfl, lt_compiled_range'.mp hasks, ?_, ?_⟩⟩
    · dsimp only
      rw [hcounter, List.range'_1_concat, Nat.add_right_comm _ n 1]
    · dsimp only
      rw [hcounter, Nat.add_assoc]
  | describe _ _ => exact ⟨past, future, done, h.templates, h.outcomes, h.rest⟩
  | @finish before _ t _ hunits hends =>
    obtain ⟨ts, n, rfl, rfl, rfl, rfl, hn, hcounter⟩ := h.of_running hunits
    rw [List.length_range'] at hends
    have hcompiled := compiled_range' hends
    generalize List.range' _ n = ids at hcompiled hends ⊢
    refine ⟨past ++ [t], ts, before ++ [(t, .done ids (b.compiled ids t))], ?_, ?_, .inl ⟨?_, ?_⟩⟩
    · rw [← h.templates, List.append_assoc]
      rfl
    · rw [Template.compileFrom_append, List.map_append, List.map_append, h.outcomes, ← hcompiled]
      rfl
    · dsimp only
      rw [List.append_assoc]
      rfl
    · dsimp only
      rw [Template.numbersFrom_append, Template.numbersFrom_cons, hcounter, ← Nat.add_assoc,
        hcompiled]
      rw [hcompiled] at hn
      rw [Nat.le_antisymm hn hends]
      rfl

end InTurn

/-- One worker compiles the templates in their order, so the outcomes follow from the number it starts
with. Where there is one template, no more than one worker has something to do. -/
theorem Ends.eq_compileFrom {last : Nat} {outcomes : List Outcome}
    (hone : b.limit = 1 ∨ b.templates.length ≤ 1) (h : b.Ends used last kept outcomes) :
    outcomes = Template.compileFrom b.catalog b.settings used b.templates := by
  obtain ⟨s, hrun, -, hends⟩ := h
  have hturn : ∃ past future done, b.InTurn used s past future done := by
    clear hends
    induction hrun with
    | refl => exact ⟨[], b.templates, [], rfl, rfl, .inl ⟨rfl, rfl⟩⟩
    | tail _ hstep ih =>
      obtain ⟨past, future, done, hturn⟩ := ih
      exact hturn.step hone hstep
  obtain ⟨past, future, done, htemplates, houtcomes, hrest⟩ := hturn
  have hnone : ∀ u ∈ s.units, u.2.outcome? ≠ none := by
    intro u hu hnone
    have hmem := List.mem_map_of_mem (f := fun u : Template × Stage => u.2.outcome?) hu
    rw [hends, hnone] at hmem
    obtain ⟨_, -, hsome⟩ := List.mem_map.mp hmem
    cases hsome
  rcases hrest with ⟨hall, -⟩ | ⟨t, ts, n, -, -, hall, -⟩
  · rcases future with _ | ⟨t, ts⟩
    · rw [hall, show allAt .waiting [] = [] from rfl, List.append_nil, houtcomes] at hends
      rw [← htemplates, List.append_nil]
      exact (List.map_injective_iff.mpr (Option.some_injective _) hends).symm
    · exact absurd rfl (hnone (t, .waiting) (hall ▸ List.mem_append_right done List.mem_cons_self))
  · exact absurd rfl (hnone (t, .running _) (hall ▸ List.mem_append_right done List.mem_cons_self))

end Batch

end ViewBinder
