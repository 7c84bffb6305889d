-- What checks find. Settling the references of a draft goes through all of them whatever it meets:
-- each one that leads nowhere, or to something that does not fit, leaves one report, in the order
-- in which they were recorded, and nothing that is done for one of them changes what is found
-- about another.
import ViewBinder.Proofs.Draft.Settle
import ViewBinder.Proofs.Session.Marked

namespace ViewBinder

/-- A problem with the place it is reported at. -/
structure Finding where
  place : Option Location
  problem : Problem

/-- The diagnostic that a finding is reported by. -/
def Finding.diagnostic (f : Finding) : Diagnostic :=
  Diagnostic.make .error f.problem.kind f.place f.problem.message

namespace Log

/-- The findings were reported since, and nothing else. -/
def Adds (log log' : Log) (fs : List Finding) : Prop :=
  log'.entries = log.entries ++ fs.map Finding.diagnostic

theorem adds_nil (log : Log) : Adds log log [] := by simp [Adds]

theorem adds_problem (log : Log) (place : Option Location) (p : Problem) :
    Adds log (log.problem place p) [⟨place, p⟩] := rfl

theorem Adds.trans {log log' log'' : Log} {fs gs : List Finding} (h : Adds log log' fs)
    (h' : Adds log' log'' gs) : Adds log log'' (fs ++ gs) := by
  unfold Adds at h h' ⊢
  simp [h, h']

/-- The errors of the log are those from before, and the findings. -/
theorem Adds.errors {log log' : Log} {fs : List Finding} (h : Adds log log' fs) :
    log'.errors = log.errors ++ fs.map Finding.diagnostic := by
  have hlevel : ∀ d ∈ fs.map Finding.diagnostic, (d.level == .error) = true := by
    intro d hd
    obtain ⟨f, -, rfl⟩ := List.mem_map.mp hd
    rfl
  unfold Log.errors
  rw [h, List.filter_append, List.filter_eq_self.mpr hlevel]

theorem failure?_eq_none_iff {log : Log} : log.failure? = none ↔ log.errors = [] := by
  unfold failure?
  split <;> simp_all

theorem exists_failure {log log' : Log} {fs : List Finding} (h : Adds log log' fs) (hfs : fs ≠ []) :
    ∃ failure, log'.failure? = some failure := by
  rw [← Option.isSome_iff_exists, ← Option.ne_none_iff_isSome, Ne, failure?_eq_none_iff, h.errors]
  simp [hfs]

/-- The failure that errors amount to carries all of them. -/
theorem diagnostics_of_failure? {log : Log} {failure : Failure} (h : log.failure? = some failure) :
    failure.diagnostics = log.errors := by
  unfold failure? at h
  split at h
  · cases h
  · rename_i hone
    cases h
    exact hone.symm
  · cases h
    rfl

end Log

namespace Draft

/-! ## One reference -/

/-- The expression that a reference stands for. -/
def Resolves (d : Draft) (r : FieldReference) (expr : Text) : Prop :=
  ∃ id actual read, d.target r = .ok (id, actual, read) ∧ d.fit r actual read = .ok expr

/-- What is found about a reference: its path leads nowhere, or what it ends at does not fit. -/
def finding? (d : Draft) (r : FieldReference) : Option Finding :=
  match d.target r with
  | .error p => some ⟨d.document.location r.element, p⟩
  | .ok (_, actual, read) =>
    match d.fit r actual read with
    | .error p => some ⟨d.document.location r.element, p⟩
    | .ok _ => none

/-- Every type that the reference is compared with is there. -/
def Comparable (d : Draft) (r : FieldReference) : Prop :=
  ∀ id actual read, d.target r = .ok (id, actual, read) → d.isStuck r actual read = false

/-- The marker of the reference is one of the table. -/
def HasMarker (d : Draft) (r : FieldReference) : Prop :=
  ∃ n ∈ d.markers.entries.map (·.1), Marker.id? r.marker = some n

theorem Alike.finding? {d d' : Draft} (h : Alike d d') (r : FieldReference) :
    d'.finding? r = d.finding? r := by
  unfold Draft.finding?
  simp only [h.target, h.fit, h.document]

theorem Alike.comparable {d d' : Draft} (h : Alike d d') {r : FieldReference}
    (hr : d.Comparable r) : d'.Comparable r := by
  intro id actual read htarget
  have hstuck := hr id actual read (h.target r ▸ htarget)
  unfold isStuck at hstuck ⊢
  rwa [h.catalog]

theorem ids_redefine (m : Markers) (id : Nat) (meaning : Meaning) :
    (m.redefine id meaning).entries.map (·.1) = m.entries.map (·.1) := by
  unfold Markers.redefine
  rw [List.map_map]
  refine List.map_congr_left fun e _ => ?_
  simp only [Function.comp]
  split <;> rfl

/-- A marker of the table gets its meaning. -/
theorem runOn_resolve {d : Draft} {r : FieldReference} (h : d.HasMarker r) (value : Text) :
    ∃ m, (Markers.resolve r.marker value).runOn d.markers = (.ok (), m) ∧
      m.entries.map (·.1) = d.markers.entries.map (·.1) := by
  obtain ⟨n, hn, hid⟩ := h
  obtain ⟨entry, hfound⟩ : ∃ entry, d.markers.find? n = some entry := by
    obtain ⟨e, he, rfl⟩ := List.mem_map.mp hn
    rw [← Option.isSome_iff_exists, ← Option.ne_none_iff_isSome, Ne, Markers.find?,
      List.lookup_eq_none_iff]
    intro hnone
    simpa using hnone e he
  refine ⟨d.markers.redefine n (.known value), ?_, ids_redefine _ _ _⟩
  unfold Markers.resolve
  simp [hid, hfound]

/-- A reference is settled whatever is found about it, and what is found is reported. -/
theorem settleReference_run {d : Draft} {r : FieldReference} (hmarker : d.HasMarker r)
    (hcomparable : d.Comparable r) :
    ∃ d', (settleReference r).runOn d = (.ok (d.finding? r).isNone, d') ∧
      d.log.Adds d'.log (d.finding? r).toList ∧
      d'.markers.entries.map (·.1) = d.markers.entries.map (·.1) := by
  unfold settleReference
  rw [Work.runOn_bind, Work.runOn_get]
  dsimp only
  unfold finding?
  rcases htarget : d.target r with p | ⟨id, actual, read⟩
  · exact ⟨_, rfl, d.log.adds_problem _ p, rfl⟩
  · have hstuck := hcomparable id actual read htarget
    dsimp only
    rw [hstuck, Work.runOn_bind]
    rcases hfit : d.fit r actual read with p | expr
    · exact ⟨_, rfl, d.log.adds_problem _ p, rfl⟩
    · obtain ⟨m, hresolve, hids⟩ := runOn_resolve hmarker expr
      refine ⟨{ d with
        fields := d.fields.change id ({ · with used := true })
        markers := m }, ?_, d.log.adds_nil, hids⟩
      have hlift : (liftM (Markers.resolve r.marker expr) : Work Draft Unit).runOn
          { d with fields := d.fields.change id ({ · with used := true }) } =
            (.ok (), { d with
              fields := d.fields.change id ({ · with used := true })
              markers := m }) := by
        show (((Markers.resolve r.marker expr).runOn d.markers).1, { d with
          fields := d.fields.change id ({ · with used := true })
          markers := ((Markers.resolve r.marker expr).runOn d.markers).2 }) = _
        rw [hresolve]
      show ((do
        liftM (Markers.resolve r.marker expr)
        return true : Work Draft Bool).runOn _) = _
      rw [Work.runOn_bind, hlift]
      rfl

/-! ## All references -/

/-- What is found about the references of a draft. -/
def findings (d : Draft) : List Finding := d.fields.references.filterMap d.finding?

/-- One reference after the other is settled, and what is found about them is reported. -/
theorem mapM_settleReference_run {rs : List FieldReference} {d : Draft}
    (hmarker : ∀ r ∈ rs, d.HasMarker r) (hcomparable : ∀ r ∈ rs, d.Comparable r) :
    ∃ sound d', (rs.mapM settleReference).runOn d = (.ok sound, d') ∧
      d.log.Adds d'.log (rs.filterMap d.finding?) ∧
      d'.markers.entries.map (·.1) = d.markers.entries.map (·.1) ∧
      sound.all id = (rs.filterMap d.finding?).isEmpty := by
  induction rs generalizing d with
  | nil => exact ⟨[], d, by rw [List.mapM_nil]; rfl, d.log.adds_nil, rfl, rfl⟩
  | cons r rs ih =>
    obtain ⟨hr, hrs⟩ := List.forall_mem_cons.mp hmarker
    obtain ⟨hcomparable, hothers⟩ := List.forall_mem_cons.mp hcomparable
    obtain ⟨d₁, hfirst, hlog, hids⟩ := settleReference_run hr hcomparable
    have halike := (settleReference_ok hfirst).1.toAlike
    have hmarker₁ : ∀ r' ∈ rs, d₁.HasMarker r' := fun r' hr' => by
      unfold HasMarker
      rw [hids]
      exact hrs r' hr'
    obtain ⟨sound, d', hrest, hlog', hids', hall⟩ :=
      ih hmarker₁ fun r' hr' => halike.comparable (hothers r' hr')
    have hsame : rs.filterMap d₁.finding? = rs.filterMap d.finding? :=
      List.filterMap_congr fun r' _ => halike.finding? r'
    rw [hsame] at hlog' hall
    refine ⟨(d.finding? r).isNone :: sound, d', ?_, ?_, hids'.trans hids, ?_⟩
    · rw [List.mapM_cons, Work.runOn_bind, hfirst]
      dsimp only
      rw [Work.runOn_bind, hrest]
      rfl
    · have hboth := hlog.trans hlog'
      cases hfound : d.finding? r <;> simpa [hfound] using hboth
    · cases hfound : d.finding? r <;> simp [hfound, hall]

/-- References are settled to the last one, and then all that was found makes the work fail. -/
theorem settleReferences_run {d : Draft} (hmarker : ∀ r ∈ d.fields.references, d.HasMarker r)
    (hcomparable : ∀ r ∈ d.fields.references, d.Comparable r) :
    ∃ d', d.log.Adds d'.log d.findings ∧
      d'.markers.entries.map (·.1) = d.markers.entries.map (·.1) ∧
      (d.findings = [] → settleReferences.runOn d = (.ok (), d')) ∧
      (d.findings ≠ [] → ∃ failure, d'.log.failure? = some failure ∧
        settleReferences.runOn d = (.error failure, d')) := by
  obtain ⟨sound, d', hrun, hlog, hids, hall⟩ := mapM_settleReference_run hmarker hcomparable
  refine ⟨d', hlog, hids, fun hnone => ?_, fun hsome => ?_⟩
  · rw [show d.fields.references.filterMap d.finding? = [] from hnone] at hall
    unfold settleReferences
    rw [Work.runOn_bind, Work.runOn_get]
    dsimp only
    rw [Work.runOn_bind, hrun]
    simp [hall]
  · obtain ⟨failure, hfailure⟩ := Log.exists_failure hlog hsome
    refine ⟨failure, hfailure, ?_⟩
    have hbroken : sound.all id = false := by
      rw [hall]
      simpa [findings] using hsome
    unfold settleReferences
    rw [Work.runOn_bind, Work.runOn_get]
    dsimp only
    rw [Work.runOn_bind, hrun]
    simp [hbroken, hfailure]

end Draft

end ViewBinder
