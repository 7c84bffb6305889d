-- The checks that come when all fields are known. The owner's fields are compared with the template's,
-- its handlers with the events of fields, and references with what they end at. Each check goes on
-- after a problem, so what is found depends on the session they begin in and not on each other, and
-- a template fails with everything that was found, in the order of the checks.
import ViewBinder.Proofs.Draft.Findings
import ViewBinder.Proofs.Marker.Weave
import ViewBinder.Proofs.Template.Crash

namespace ViewBinder

open Markup (Document)
open Work (Safe)

namespace Session

/-! ## Reporting -/

/-- Findings were reported, and nothing that checks look at changed. -/
structure Reports (s s' : Session) (fs : List Finding) : Prop where
  document : s'.document = s.document
  catalog : s'.catalog = s.catalog
  marks : s.fields.Marks s'.fields
  references : s'.fields.references = s.fields.references
  markers : s'.markers = s.markers
  log : s.log.Adds s'.log fs

variable {s s' s'' : Session} {fs gs : List Finding}

theorem Reports.refl (s : Session) : s.Reports s [] where
  document := rfl
  catalog := rfl
  marks := FieldTable.Marks.refl _
  references := rfl
  markers := rfl
  log := s.log.adds_nil

theorem Reports.trans (h : s.Reports s' fs) (h' : s'.Reports s'' gs) :
    s.Reports s'' (fs ++ gs) where
  document := h'.document.trans h.document
  catalog := h'.catalog.trans h.catalog
  marks := h.marks.trans h'.marks
  references := h'.references.trans h.references
  markers := h'.markers.trans h.markers
  log := h.log.trans h'.log

theorem reports_problem (s : Session) (place : Option Location) (p : Problem) :
    s.Reports { s with log := s.log.problem place p } [⟨place, p⟩] :=
  { Reports.refl s with log := s.log.adds_problem place p }

/-- A field is marked as read, and something is added to the end of the program. -/
theorem reports_statement (s : Session) (id : FieldId) (imports : Imports) (trailing : List Text) :
    s.Reports { s with
      imports, trailing, fields := s.fields.change id ({ · with used := true }) } [] :=
  { Reports.refl s with marks := FieldTable.marks_change _ _ }

/-- Checks one after the other report what each of them finds. -/
theorem forM_reports {α : Type} {check : α → Work Session Unit} {found : α → List Finding}
    {xs : List α} {s : Session}
    (h : ∀ x ∈ xs, ∀ s' fs, s.Reports s' fs →
      ∃ s'', (check x).runOn s' = (.ok (), s'') ∧ s'.Reports s'' (found x)) :
    ∃ s', (xs.forM check).runOn s = (.ok (), s') ∧ s.Reports s' (xs.flatMap found) := by
  induction xs generalizing s with
  | nil => exact ⟨s, rfl, Reports.refl s⟩
  | cons x xs ih =>
    obtain ⟨s₁, hfirst, hreports₁⟩ := h x List.mem_cons_self s [] (Reports.refl s)
    obtain ⟨s', hrest, hreports⟩ := ih fun y hy s' fs hs' =>
      h y (List.mem_cons_of_mem _ hy) s' _ (hreports₁.trans hs')
    refine ⟨s', ?_, hreports₁.trans hreports⟩
    show (check x >>= fun _ => xs.forM check).runOn s = _
    rw [Work.runOn_bind, hfirst]
    exact hrest

end Session

namespace Binding

open Session

/-! ## What is found about an owner -/

/-- Where a field was declared; fields declared at the top count as declared by the interface. -/
def placeIn (s : Session) (ui : Nat) (id : FieldId) : Option Location :=
  s.document.location ((s.fields.field id).element.getD ui)

/-- What is found about a field of the owner: the template has none for it, or not one that fits. -/
def fieldFinding? (s : Session) (ui : Nat) (ownerName : Text) (u : UiField) : Option Finding :=
  match s.fields.find? u.name with
  | none => some ⟨s.document.location ui, .ownerFieldMissing u.name ownerName⟩
  | some id =>
    let type := (s.fields.field id).type
    if u.type.isSome && !s.catalog.isAssignable type u.type then
      some ⟨placeIn s ui id,
        .ownerFieldType u.name (s.catalog.key type) ownerName (s.catalog.key u.type)⟩
    else none

/-- The method by which a field is told who handles an event. -/
def eventMethod? (s : Session) (h : Handler) (id : FieldId) : Option Method :=
  s.catalog.method? (s.fields.field id).type ("Add" ++ h.event ++ "Handler")

/-- What is found about a field that a handler names: it is missing, or does not fire the event. -/
def eventFinding? (s : Session) (ui : Nat) (h : Handler) (name : Text) : Option Finding :=
  match s.fields.find? name with
  | none => some ⟨s.document.location ui, .handlerUnknownField h.method name⟩
  | some id =>
    match eventMethod? s h id with
    | some ⟨_, [_], _, _⟩ => none
    | _ => some ⟨placeIn s ui id,
        .noSuchEvent name (s.catalog.simpleName (s.fields.field id).type) h.event h.method⟩

/-- What is found about a handler itself: it names no method, or no field. -/
def handlerFinding? (s : Session) (ui : Nat) (owner : TypeId) (h : Handler) : Option Finding :=
  match s.catalog.method? owner h.method with
  | none => some ⟨s.document.location ui,
      .noHandlerMethod (s.catalog.simpleName owner) h.method h.event⟩
  | some _ =>
    if h.fields.isEmpty then
      some ⟨s.document.location ui, .handlerWithoutField h.method (s.catalog.simpleName owner)⟩
    else none

/-- What is found about a handler, or else about the fields that it names. -/
def handlerFindings (s : Session) (ui : Nat) (owner : TypeId) (h : Handler) : List Finding :=
  match handlerFinding? s ui owner h with
  | some f => [f]
  | none => h.fields.filterMap (eventFinding? s ui h)

/-- What is found about the owner: about its fields, then about its handlers. -/
def ownerFindings (s : Session) (ui : Nat) : List Finding :=
  match s.owner, s.ownerTraits with
  | some owner, some traits =>
    traits.uiFields.filterMap (fieldFinding? s ui (s.catalog.simpleName owner)) ++
      traits.handlers.flatMap (handlerFindings s ui owner)
  | _, _ => []

/-- The events that the handler is to be told of pass something whose type is known. -/
def EventsTyped (s : Session) (h : Handler) : Prop :=
  ∀ name ∈ h.fields, ∀ id m, s.fields.find? name = some id → eventMethod? s h id = some m → m.Typed

/-! ## Finding it -/

section Steady

variable {s s' : Session} {fs : List Finding} (h : s.Reports s' fs) (ui : Nat)
include h

theorem type_reports (id : FieldId) : (s'.fields.field id).type = (s.fields.field id).type :=
  h.marks.apply id (·.type) fun _ _ => rfl

theorem placeIn_reports (id : FieldId) : placeIn s' ui id = placeIn s ui id := by
  unfold placeIn
  rw [h.document, h.marks.apply id (·.element) fun _ _ => rfl]

theorem eventMethod?_reports (handler : Handler) (id : FieldId) :
    eventMethod? s' handler id = eventMethod? s handler id := by
  unfold eventMethod?
  rw [h.catalog, type_reports h]

/-- What is found does not depend on what was found before. -/
theorem fieldFinding?_reports (ownerName : Text) (u : UiField) :
    fieldFinding? s' ui ownerName u = fieldFinding? s ui ownerName u := by
  unfold fieldFinding?
  simp only [h.document, h.catalog, h.marks.find?, type_reports h, placeIn_reports h]

theorem eventFinding?_reports (handler : Handler) (name : Text) :
    eventFinding? s' ui handler name = eventFinding? s ui handler name := by
  unfold eventFinding?
  simp only [h.document, h.catalog, h.marks.find?, type_reports h, placeIn_reports h,
    eventMethod?_reports h]

theorem handlerFindings_reports (owner : TypeId) (handler : Handler) :
    handlerFindings s' ui owner handler = handlerFindings s ui owner handler := by
  unfold handlerFindings handlerFinding?
  simp only [h.document, h.catalog, funext (eventFinding?_reports h ui handler)]

theorem EventsTyped.reports {handler : Handler} (htyped : EventsTyped s handler) :
    EventsTyped s' handler := by
  intro name hname id m hfind hmethod
  rw [h.marks.find?] at hfind
  rw [eventMethod?_reports h] at hmethod
  exact htyped name hname id m hfind hmethod

end Steady

theorem bindField_run (s : Session) (ui : Nat) (ownerName : Text) (u : UiField) :
    ∃ s', (bindField ui ownerName u).runOn s = (.ok (), s') ∧
      s.Reports s' (fieldFinding? s ui ownerName u).toList := by
  unfold bindField
  rw [Work.runOn_bind, Work.runOn_get]
  dsimp only
  unfold fieldFinding?
  cases hfind : s.fields.find? u.name with
  | none => exact ⟨_, rfl, reports_problem s _ _⟩
  | some id =>
    dsimp only
    by_cases hfits : (u.type.isSome && !s.catalog.isAssignable (s.fields.field id).type u.type) = true
    · rw [if_pos hfits, if_pos hfits]
      exact ⟨_, rfl, reports_problem s _ _⟩
    · rw [if_neg hfits, if_neg hfits]
      by_cases hprovided : (!(s.fields.field id).provided) = true
      · rw [if_pos hprovided]
        exact ⟨_, rfl, reports_statement s id _ _⟩
      · rw [if_neg hprovided]
        exact ⟨_, rfl, Reports.refl s⟩

theorem bindHandlerTo_run {s : Session} {h : Handler} (htyped : EventsTyped s h) (ui : Nat)
    (method : Method) {name : Text} (hname : name ∈ h.fields) :
    ∃ s', (bindHandlerTo ui h method name).runOn s = (.ok (), s') ∧
      s.Reports s' (eventFinding? s ui h name).toList := by
  unfold bindHandlerTo
  rw [Work.runOn_bind, Work.runOn_get]
  dsimp only
  unfold eventFinding?
  cases hfind : s.fields.find? name with
  | none => exact ⟨_, rfl, reports_problem s _ _⟩
  | some id =>
    have hevent := htyped name hname id
    unfold eventMethod? at hevent ⊢
    dsimp only
    cases hmethod : s.catalog.method? (s.fields.field id).type ("Add" ++ h.event ++ "Handler") with
    | none => exact ⟨_, rfl, reports_problem s _ _⟩
    | some m =>
      have htypes := hevent m hfind hmethod
      obtain ⟨add, params, returns, declarer⟩ := m
      match params with
      | [] => exact ⟨_, rfl, reports_problem s _ _⟩
      | ⟨_, type⟩ :: _ :: _ => cases type <;> exact ⟨_, rfl, reports_problem s _ _⟩
      | [⟨_, some type⟩] => exact ⟨_, rfl, reports_statement s id _ _⟩
      | [⟨_, none⟩] =>
        have hnone := htypes _ (List.mem_singleton_self _)
        cases hnone

theorem bindHandler_run {s : Session} {h : Handler} (htyped : EventsTyped s h) (ui : Nat)
    (owner : TypeId) :
    ∃ s', (bindHandler ui owner h).runOn s = (.ok (), s') ∧
      s.Reports s' (handlerFindings s ui owner h) := by
  unfold bindHandler
  rw [Work.runOn_bind, Work.runOn_get]
  dsimp only
  unfold handlerFindings handlerFinding?
  cases hmethod : s.catalog.method? owner h.method with
  | none => exact ⟨_, rfl, reports_problem s _ _⟩
  | some method =>
    dsimp only
    by_cases hempty : h.fields.isEmpty = true
    · rw [if_pos hempty, if_pos hempty, List.isEmpty_iff.mp hempty]
      exact ⟨_, rfl, reports_problem s _ _⟩
    · rw [if_neg hempty, if_neg hempty]
      dsimp only
      rw [List.filterMap_eq_flatMap_toList]
      refine forM_reports fun name hname s' fs hs' => ?_
      have hrun := bindHandlerTo_run (htyped.reports hs') ui method hname
      rwa [eventFinding?_reports hs'] at hrun

/-- Binding the owner never stops, and reports what is found about the owner. -/
theorem bindOwner_run {s : Session} (ui : Nat)
    (htyped : ∀ traits ∈ s.ownerTraits, ∀ h ∈ traits.handlers, EventsTyped s h) :
    ∃ s', (bindOwner ui).runOn s = (.ok (), s') ∧ s.Reports s' (ownerFindings s ui) := by
  unfold bindOwner
  rw [Work.runOn_bind, Work.runOn_get]
  dsimp only
  unfold ownerFindings
  rcases howner : s.owner with _ | owner
  · exact ⟨s, rfl, Reports.refl s⟩
  rcases htraits : s.ownerTraits with _ | traits
  · exact ⟨s, rfl, Reports.refl s⟩
  have hfields : ∃ s', (traits.uiFields.forM (bindField ui (s.catalog.simpleName owner))).runOn s =
      (.ok (), s') ∧ s.Reports s'
        (traits.uiFields.filterMap (fieldFinding? s ui (s.catalog.simpleName owner))) := by
    rw [List.filterMap_eq_flatMap_toList]
    refine forM_reports fun u _ s' fs hs' => ?_
    have hrun := bindField_run s' ui (s.catalog.simpleName owner) u
    rwa [fieldFinding?_reports hs'] at hrun
  obtain ⟨s₁, hfields, hreports⟩ := hfields
  have hhandlers : ∃ s', (traits.handlers.forM (bindHandler ui owner)).runOn s₁ = (.ok (), s') ∧
      s₁.Reports s' (traits.handlers.flatMap (handlerFindings s ui owner)) := by
    refine forM_reports fun h hh s' fs hs' => ?_
    have hall := hreports.trans hs'
    have hrun := bindHandler_run ((htyped traits htraits h hh).reports hall) ui owner
    rwa [handlerFindings_reports hall] at hrun
  obtain ⟨s', hhandlers, hreports'⟩ := hhandlers
  refine ⟨s', ?_, hreports.trans hreports'⟩
  dsimp only
  rw [Work.runOn_bind, hfields]
  exact hhandlers

end Binding

/-! ## All checks -/

namespace Session

/-- What the checks of a session find: about the owner, then about references. -/
def findings (s : Session) (ui : Nat) : List Finding :=
  Binding.ownerFindings s ui ++ s.toDraft.findings

/-- Every type that the checks compare is known. -/
structure Checkable (s : Session) : Prop where
  events : ∀ traits ∈ s.ownerTraits, ∀ h ∈ traits.handlers, Binding.EventsTyped s h
  references : ∀ r ∈ s.fields.references, s.toDraft.Comparable r

variable {s s' : Session} {fs : List Finding}

theorem Reports.alike (h : s.Reports s' fs) : Draft.Alike s.toDraft s'.toDraft where
  document := h.document
  catalog := h.catalog
  size := h.marks.size
  name := h.marks.name
  type id := h.marks.apply id (·.type) fun _ _ => rfl
  initializer id := h.marks.apply id (·.initializer) fun _ _ => rfl
  statements id := h.marks.apply id (·.statements) fun _ _ => rfl
  references := h.references

/-- The markers of references are markers of the table. -/
theorem exists_entry (hsound : s.Sound) {r : FieldReference} (hr : r ∈ s.fields.references) :
    ∃ n ∈ s.markers.entries.map (·.1), r.marker = Marker.text n := by
  have hmem := hsound.marked.references.subset (List.mem_map_of_mem hr)
  obtain ⟨e, he, hmarker⟩ := List.mem_map.mp hmem
  exact ⟨e.1, List.mem_map_of_mem he, hmarker.symm⟩

theorem hasMarker (hsound : s.Sound) (hsmall : s.markers.Small) {r : FieldReference}
    (hr : r ∈ s.fields.references) : s.toDraft.HasMarker r := by
  obtain ⟨n, hn, hmarker⟩ := exists_entry hsound hr
  obtain ⟨e, he, rfl⟩ := List.mem_map.mp hn
  exact ⟨e.1, hn, hmarker ▸ Marker.id?_text_of_le (hsmall e he)⟩

end Session

namespace Template

open Session

/-- The checks that come when all fields are known. -/
def check (ui : Nat) : Work Session Unit := do
  Binding.bindOwner ui
  Draft.settleReferences
  failIfReported

theorem read_eq (root : Nat) : read root = (do
    let (ui, f) ← walk root
    check ui
    return f) := by
  unfold read check
  simp only [gather_eq, bind_assoc, pure_bind]

theorem runOn_compileDocument (t : Template) (settings : Settings) (s : Session) :
    (t.compileDocument settings).runOn s = (do
      let (ui, f) ← walk 0
      check ui
      t.finish settings f : Work Session Compiled).runOn (t.opened settings s) := by
  rw [runOn_opened, read_eq]
  simp only [bind_assoc, pure_bind]

theorem failIfReported_run (s : Session) :
    failIfReported.runOn s = match s.log.failure? with
      | some failure => (.error failure, s)
      | none => (.ok (), s) := by
  unfold failIfReported
  rw [Work.runOn_bind, Work.runOn_get]
  dsimp only
  cases s.log.failure? <;> rfl

variable {s : Session}

/-- The reference resolves to an expression, and its marker stands for that. -/
def Settled (s s' : Session) (r : FieldReference) : Prop :=
  ∃ expr, s.toDraft.Resolves r expr ∧ s'.markers.StandsFor r.marker expr

/-- A reference that was resolved is settled: its marker means the expression, and no other. -/
theorem settled_of_resolved {s' : Session} {r : FieldReference} {n : Nat} {id : FieldId}
    {read expr : Text} (halike : Draft.Alike s.toDraft s'.toDraft) (hfixed : s'.markers.Fixed)
    (hsmall : s'.markers.Small) (hmarker : r.marker = Marker.text n)
    (h : Draft.Resolved s'.toDraft r n id read expr) : Settled s s' r := by
  obtain ⟨actual, htarget, hfit⟩ := h.target
  obtain ⟨entry, hfind, hknown⟩ := h.meaning
  refine ⟨expr, ⟨id, actual, read, halike.target r ▸ htarget, halike.fit r actual read ▸ hfit⟩, ?_⟩
  rw [hmarker]
  exact Markers.standsFor_of_expands hfixed hsmall (Markers.expands_meaning hfind hknown)

/-- Once the references are settled, each stands for the expression that it leads to. -/
theorem settled_of_passed {s₁ : Session} {fs : List Finding} {d : Draft}
    (hreports : s.Reports s₁ fs) (hsound : s.Sound) (hsmall : s.markers.Small)
    (hids : d.markers.entries.map (·.1) = s₁.markers.entries.map (·.1))
    (hpassed : Draft.settleReferences.runOn s₁.toDraft = (.ok (), d)) :
    ∀ r ∈ s.fields.references, Settled s { s₁ with toDraft := d } r := by
  intro r hr
  have hapart : Draft.Apart s₁.fields.references := by
    rw [hreports.references]
    exact hsound.marked.apart hsound.supply
  have hfixed : s₁.markers.Fixed := by
    rw [hreports.markers]
    exact hsound.marked.fixed
  have hsmall' : d.markers.Small := by
    intro e he
    have hmem : e.1 ∈ d.markers.entries.map (·.1) := List.mem_map_of_mem he
    rw [hids, hreports.markers] at hmem
    obtain ⟨e', he', hsame⟩ := List.mem_map.mp hmem
    exact hsame ▸ hsmall e' he'
  obtain ⟨hsettles, -, hresolved⟩ := Draft.settleReferences_ok hapart hpassed
  obtain ⟨n, id, read, expr, hresolved⟩ := hresolved r (hreports.references ▸ hr)
  obtain ⟨k, -, hmarker⟩ := exists_entry hsound hr
  have hnumber : n = k := Marker.id?_text (hmarker ▸ hresolved.marker)
  exact settled_of_resolved (hreports.alike.trans hsettles.toAlike) (hsettles.fixed hfixed)
    hsmall' (hnumber ▸ hmarker) hresolved

/-- The checks of a session report all that they find, and fail exactly if they find something. -/
theorem check_run (hsound : s.Sound) (hsmall : s.markers.Small) (hcheckable : s.Checkable)
    (hclean : s.log.hasErrors = false) (ui : Nat) :
    ∃ s', s'.log.errors = (s.findings ui).map Finding.diagnostic ∧
      (s.findings ui = [] → (check ui).runOn s = (.ok (), s') ∧
        ∀ r ∈ s.fields.references, Settled s s' r) ∧
      (s.findings ui ≠ [] → ∃ failure, s'.log.failure? = some failure ∧
        (check ui).runOn s = (.error failure, s')) := by
  obtain ⟨s₁, hbind, hreports⟩ := Binding.bindOwner_run ui hcheckable.events
  have halike := hreports.alike
  have hmarker : ∀ r ∈ s₁.fields.references, s₁.toDraft.HasMarker r := by
    intro r hr
    unfold Draft.HasMarker
    rw [hreports.markers]
    exact hasMarker hsound hsmall (hreports.references ▸ hr)
  have hcomparable : ∀ r ∈ s₁.fields.references, s₁.toDraft.Comparable r := by
    intro r hr
    exact halike.comparable (hcheckable.references r (hreports.references ▸ hr))
  obtain ⟨d, hlog, hids, hpass, hfail⟩ := Draft.settleReferences_run hmarker hcomparable
  have hfindings : s₁.toDraft.findings = s.toDraft.findings := by
    unfold Draft.findings
    rw [hreports.references]
    exact List.filterMap_congr fun r _ => halike.finding? r
  rw [hfindings] at hlog hpass hfail
  have hadds : s.log.Adds d.log (s.findings ui) := hreports.log.trans hlog
  have herrors : d.log.errors = (s.findings ui).map Finding.diagnostic := by
    have hbefore : s.log.errors = [] := by simpa [Log.hasErrors] using hclean
    rw [hadds.errors, hbefore, List.nil_append]
  have hrun : (check ui).runOn s = (do
      liftM Draft.settleReferences
      failIfReported : Work Session Unit).runOn s₁ := by
    unfold check
    rw [Work.runOn_bind, hbind]
  refine ⟨{ s₁ with toDraft := d }, herrors, fun hnone => ?_, fun hsome => ?_⟩
  · have hpassed := hpass (List.append_eq_nil_iff.mp hnone).2
    have hsilent : d.log.failure? = none := by
      rw [Log.failure?_eq_none_iff, herrors, hnone, List.map_nil]
    refine ⟨?_, fun r hr => ?_⟩
    · rw [hrun, Work.runOn_bind, runOn_lift, hpassed]
      dsimp only
      rw [failIfReported_run, hsilent]
    · exact settled_of_passed hreports hsound hsmall hids hpassed r hr
  · by_cases hrefs : s.toDraft.findings = []
    · obtain ⟨failure, hfailure⟩ := Log.exists_failure hadds hsome
      refine ⟨failure, hfailure, ?_⟩
      rw [hrun, Work.runOn_bind, runOn_lift, hpass hrefs]
      dsimp only
      rw [failIfReported_run, hfailure]
    · obtain ⟨failure, hfailure, hfailed⟩ := hfail hrefs
      refine ⟨failure, hfailure, ?_⟩
      rw [hrun, Work.runOn_bind, runOn_lift, hfailed]

/-! ## The whole template -/

/-- The walk over a template ends without error in a session, with the element of its interface and
the field of that. -/
def Walks (t : Template) (c : Catalog) (settings : Settings) (supply : Nat → Nat) (ui : Nat)
    (f : FieldId) (s : Session) : Prop :=
  ∃ d, Document.load t.source t.url = .ok d ∧ checkRoot d = .ok () ∧
    (walk 0).runOn (t.opened settings (t.start c settings supply d)) = (.ok (ui, f), s)

variable {t : Template} {c : Catalog} {settings : Settings} {supply : Nat → Nat} {ui : Nat}
  {f : FieldId}

theorem Walks.compileWith (h : t.Walks c settings supply ui f s) :
    (t.compileWith supply c settings).answer =
      ((do
        check ui
        t.finish settings f : Work Session Compiled).runOn s).1 := by
  obtain ⟨d, hload, hroot, hwalk⟩ := h
  have hready : (do
      let d ← Document.load t.source t.url
      checkRoot d
      return d : Except Failure Document) = .ok d := by
    rw [hload]
    show (checkRoot d >>= fun _ => Except.ok d) = _
    rw [hroot]
    rfl
  unfold Template.compileWith
  rw [hready]
  dsimp only
  rw [runOn_compileDocument, Work.runOn_bind, hwalk]

theorem Walks.sound (hsupply : Function.Injective supply) (h : t.Walks c settings supply ui f s) :
    s.Sound := by
  obtain ⟨d, -, -, hwalk⟩ := h
  obtain ⟨-, built, hrun, -, rfl⟩ := walk_ok hwalk
  have hopened := (opens_opened t settings _).reaches.sound (sound_start t c settings hsupply d)
  exact (hrun.reaches.trans (reaches_change .use)).sound hopened

/-- Where the manifests leave no type open, the checks need none that is missing. -/
theorem Walks.checkable (hc : c.Ready) (h : t.Walks c settings supply ui f s) : s.Checkable := by
  obtain ⟨d, hload, -, hwalk⟩ := h
  have hordered := (Document.fresh_of_load hload).ordered
  have hsafe : Safe (Guarded d c) HasBareTree (walk 0) := inferInstance
  have hguarded := hsafe.keeps (guarded_opened hc hordered t settings supply) hwalk
  refine ⟨fun traits _ h _ name _ id m _ hmethod => hguarded.draft.catalog.method? hmethod,
    fun r hr id actual read htarget => ?_⟩
  have hfields := hguarded.draft.fields
  exact Draft.isStuck_eq_false (hfields.references r hr) (Draft.target_given hfields htarget) read

/-- After a walk without error, a template fails with everything that the checks find and with nothing
else: about the fields of the owner, about its handlers one by one, and about the references in
the order they were recorded. If nothing is found the checks pass, and the marker of every
reference stands for the expression of the reference. -/
theorem checks_report_all_they_find (hsupply : Function.Injective supply)
    (hwalk : t.Walks c settings supply ui f s) (hsmall : s.markers.Small)
    (hcheckable : s.Checkable) :
    (s.findings ui ≠ [] → ∃ failure, (t.compileWith supply c settings).answer = .error failure ∧
      failure.diagnostics = (s.findings ui).map Finding.diagnostic) ∧
    (s.findings ui = [] → ∃ s', (check ui).runOn s = (.ok (), s') ∧
      (t.compileWith supply c settings).answer = ((t.finish settings f).runOn s').1 ∧
      ∀ r ∈ s.fields.references, Settled s s' r) := by
  have hclean : s.log.hasErrors = false := by
    obtain ⟨d, -, -, hwalk⟩ := hwalk
    exact (walk_ok hwalk).1
  obtain ⟨s', herrors, hpass, hfail⟩ :=
    check_run (hwalk.sound hsupply) hsmall hcheckable hclean ui
  rw [hwalk.compileWith, Work.runOn_bind]
  constructor
  · intro hsome
    obtain ⟨failure, hfailure, hrun⟩ := hfail hsome
    refine ⟨failure, by rw [hrun], ?_⟩
    rw [Log.diagnostics_of_failure? hfailure, herrors]
  · intro hnone
    obtain ⟨hrun, hsettled⟩ := hpass hnone
    exact ⟨s', hrun, by rw [hrun], hsettled⟩

/-! ## Findings of every kind -/

/-- A view with a field that its template lacks, a handler of an event that labels do not fire, and
a handler that names no method. -/
def brokenManifests : List Manifest :=
  sampleManifests ++
    [{ package := "example.com/app",
       types :=
         [{ name := "View", kind := "class", methods := [{ name := "OnKey" }],
            traits :=
              { uiFields := [{ name := "title", type := Library.ui "Label" }],
                handlers := [⟨"OnKey", "Nothing", ["label"]⟩, ⟨"OnClick", "Click", ["label"]⟩] } }] }]

/-- The catalog of that library. -/
def brokenCatalog : Catalog := brokenManifests.foldl Catalog.loading Catalog.bare

/-- A label that refers to something it does not have. -/
def brokenView : Template :=
  { source := "<ui:UiBinder xmlns:ui=\"urn:ui:uibind\" xmlns:g=\"urn:import:uibind.dev/ui\">" ++
      "<g:Label ui:field=\"label\" text=\"\x7blabel.Size\x7d\"/></ui:UiBinder>",
    url := "View.ui.xml", owner := brokenCatalog.find? "example.com/app" "View" }

/-- No event that a handler is to be told of is looked up with success, and no reference leads
anywhere. -/
def comparesNothing (s : Session) : Bool :=
  (s.ownerTraits.all fun traits => traits.handlers.all fun h => h.fields.all fun name =>
    (s.fields.find? name).all fun id => (Binding.eventMethod? s h id).isNone) &&
  s.fields.references.all fun r => !(s.toDraft.target r).isOk

theorem checkable_of_comparesNothing (h : comparesNothing s = true) : s.Checkable := by
  unfold comparesNothing at h
  rw [Bool.and_eq_true] at h
  obtain ⟨hevents, hreferences⟩ := h
  constructor
  · intro traits htraits handler hhandler name hname id m hfind hmethod
    rw [htraits, Option.all_some] at hevents
    have hnone := List.all_eq_true.mp (List.all_eq_true.mp hevents handler hhandler) name hname
    rw [hfind, Option.all_some, hmethod] at hnone
    cases hnone
  · intro r hr id actual read htarget
    have hastray := List.all_eq_true.mp hreferences r hr
    rw [htarget] at hastray
    cases hastray

/-- The findings with those about handlers before those about all the fields that handlers name. -/
def findingsByKind (s : Session) (ui : Nat) : List Finding :=
  match s.owner, s.ownerTraits with
  | some owner, some traits =>
    traits.uiFields.filterMap (Binding.fieldFinding? s ui (s.catalog.simpleName owner)) ++
      traits.handlers.filterMap (Binding.handlerFinding? s ui owner) ++
      (traits.handlers.flatMap fun h => h.fields.filterMap (Binding.eventFinding? s ui h)) ++
      s.toDraft.findings
  | _, _ => s.toDraft.findings

/-- The diagnostics that a template fails with. -/
def reported (outcome : Outcome) : List Diagnostic :=
  match outcome.answer with
  | .error failure => failure.diagnostics
  | .ok _ => []

theorem brokenView_walks : ∃ ui f s,
    brokenView.Walks brokenCatalog sampleSettings (· + 1) ui f s ∧ s.markers.Small ∧ s.Checkable ∧
      (s.findings ui).length = 4 ∧
      ¬ List.Sublist (reported (brokenView.compileWith (· + 1) brokenCatalog sampleSettings))
        ((findingsByKind s ui).map Finding.diagnostic) ∧
      ¬ (findingsByKind s ui).map Finding.diagnostic ⊆
        reported (brokenView.compileWith (· + 1) brokenCatalog sampleSettings) := by
  have h : brokenView.succeeds (fun document =>
      (walk 0).runOn (brokenView.opened sampleSettings
        (brokenView.start brokenCatalog sampleSettings (· + 1) document)))
      (fun document found s =>
        let all := (findingsByKind s found.1).map Finding.diagnostic
        let failed := reported (brokenView.compileWith (· + 1) brokenCatalog sampleSettings)
        (checkRoot document).isOk && s.markers.entries.all (·.1 ≤ Marker.maxId) &&
          comparesNothing s && (s.findings found.1).length == 4 &&
          !failed.isSublist all && !all.all failed.contains) = true := by
    decide +kernel
  obtain ⟨document, ⟨ui, f⟩, s, hload, hrun, htest⟩ := exists_of_succeeds h
  simp only [Bool.and_eq_true, Bool.not_eq_true', beq_iff_eq] at htest
  obtain ⟨⟨⟨⟨⟨hroot, hsmall⟩, hcheckable⟩, hfour⟩, horder⟩, hall⟩ := htest
  have hroot : checkRoot document = .ok () := by
    cases hchecked : checkRoot document with
    | ok => rfl
    | error failure =>
      rw [hchecked] at hroot
      cases hroot
  refine ⟨ui, f, s, ⟨document, hload, hroot, hrun⟩, ?_, checkable_of_comparesNothing hcheckable,
    hfour, ?_, ?_⟩
  · intro e he
    simpa using List.all_eq_true.mp hsmall e he
  · intro hsub
    rw [List.isSublist_iff_sublist.mpr hsub] at horder
    cases horder
  · intro hsub
    have hcontained : ((findingsByKind s ui).map Finding.diagnostic).all
        (reported (brokenView.compileWith (· + 1) brokenCatalog sampleSettings)).contains = true :=
      List.all_eq_true.mpr fun d hd => List.contains_iff_mem.mpr (hsub hd)
    rw [hcontained] at hall
    cases hall

/-- That view fails with what the checks find: a field, two handlers and a reference. -/
theorem checks_of_brokenView : ∃ ui f s,
    Function.Injective (· + 1 : Nat → Nat) ∧
      brokenView.Walks brokenCatalog sampleSettings (· + 1) ui f s ∧ s.markers.Small ∧ s.Checkable ∧
      (s.findings ui).length = 4 ∧
      ∃ failure, (brokenView.compileWith (· + 1) brokenCatalog sampleSettings).answer =
          .error failure ∧
        failure.diagnostics = (s.findings ui).map Finding.diagnostic := by
  obtain ⟨ui, f, s, hwalk, hsmall, hcheckable, hfour, -⟩ := brokenView_walks
  have hsupply : Function.Injective (· + 1 : Nat → Nat) := fun _ _ h => Nat.succ.inj h
  have hsome : s.findings ui ≠ [] := List.ne_nil_of_length_eq_add_one hfour
  exact ⟨ui, f, s, hsupply, hwalk, hsmall, hcheckable, hfour,
    (checks_report_all_they_find hsupply hwalk hsmall hcheckable).1 hsome⟩

/-- What that view fails with does not tell of handlers before it tells of the fields they name, and
it tells nothing of the fields that a handler without method names. -/
theorem brokenView_is_checked_handler_by_handler : ∃ ui f s,
    brokenView.Walks brokenCatalog sampleSettings (· + 1) ui f s ∧
      ¬ List.Sublist (reported (brokenView.compileWith (· + 1) brokenCatalog sampleSettings))
        ((findingsByKind s ui).map Finding.diagnostic) ∧
      ¬ (findingsByKind s ui).map Finding.diagnostic ⊆
        reported (brokenView.compileWith (· + 1) brokenCatalog sampleSettings) := by
  obtain ⟨ui, f, s, hwalk, -, -, -, horder, hall⟩ := brokenView_walks
  exact ⟨ui, f, s, hwalk, horder, hall⟩

end Template

end ViewBinder
