-- Assembling and weaving a program changes nothing it is made of: fields, sections and the meanings
-- of markers stay as they were when the template had been read.
import ViewBinder.Compile
import ViewBinder.Proofs.Draft.Settle
import ViewBinder.Proofs.Field.Order
import ViewBinder.Proofs.Program.Imports
import ViewBinder.Proofs.Program.Lines
import ViewBinder.Proofs.Session.Attaining

namespace ViewBinder

open Work (Keeps Leads)

/-! ## Quiet work -/

/-- Nothing but imports and the log has changed, and no import was lost. -/
def Draft.Quiet (d d' : Draft) : Prop :=
  ∃ imports log, d.imports.names <+: imports.names ∧ d' = { d with imports, log }

instance : Std.Refl Draft.Quiet := ⟨fun d => ⟨d.imports, d.log, List.prefix_refl _, rfl⟩⟩

instance : IsTrans Draft Draft.Quiet where
  trans _ _ _ h h' := by
    obtain ⟨_, _, hnames, rfl⟩ := h
    obtain ⟨imports, log, hnames', rfl⟩ := h'
    exact ⟨imports, log, hnames.trans hnames', rfl⟩

/-- Nothing but imports and the log has changed, and no import was lost. -/
def Session.Quiet (s s' : Session) : Prop :=
  ∃ imports log, s.imports.names <+: imports.names ∧ s' = { s with imports, log }

instance : Std.Refl Session.Quiet := ⟨fun s => ⟨s.imports, s.log, List.prefix_refl _, rfl⟩⟩

instance : IsTrans Session Session.Quiet where
  trans _ _ _ h h' := by
    obtain ⟨_, _, hnames, rfl⟩ := h
    obtain ⟨imports, log, hnames', rfl⟩ := h'
    exact ⟨imports, log, hnames.trans hnames', rfl⟩

instance {w : Work Draft α} [h : Leads Draft.Quiet w] :
    Leads Session.Quiet (liftM w : Work Session α) where
  leads s := by
    obtain ⟨imports, log, hnames, heq⟩ := h.leads s.toDraft
    exact ⟨imports, log, hnames, congrArg (fun d => { s with toDraft := d }) heq⟩

namespace Draft

instance (path preferred : Text) : Leads Quiet (importPackage path preferred) :=
  ⟨fun d => ⟨(d.imports.add path preferred).2, d.log, d.imports.prefix_add path preferred, rfl⟩⟩

instance (t : TypeId) (name : Text) : Leads Quiet (qualify t name) :=
  ⟨fun d => ⟨(d.imports.qualify (d.catalog.decl t) name).2, d.log, d.imports.prefix_add _ _, rfl⟩⟩

instance (t : TypeId) : Leads Quiet (typeRef t) :=
  ⟨fun d => ⟨(d.imports.typeRef (d.catalog.decl t)).2, d.log, d.imports.prefix_typeRef _, rfl⟩⟩

instance (place : Option Location) (p : Problem) : Leads Quiet (report place p) :=
  ⟨fun d => ⟨d.imports, d.log.problem place p, List.prefix_refl _, rfl⟩⟩

instance : Leads Quiet bundleDeclarations := by
  unfold bundleDeclarations
  refine Leads.bind' inferInstance fun d => ?_
  dsimp only
  split
  · infer_instance
  · refine Leads.bind' (Leads.mapM (h := fun s => ?_)) fun _ => inferInstance
    refine Leads.bind' inferInstance fun generated => ?_
    split <;> infer_instance

end Draft

instance : Session.Importing Session.Quiet :=
  ⟨fun _ _ => inferInstance, fun _ _ => inferInstance⟩

/-! ## The program of a session -/

/-- The names of the locals of a program. -/
def Program.locals (p : Program) : List Text := p.declarations.map (·.name)

namespace Assembly

open Session (Quiet)

instance (f : Field) : Leads Quiet (fieldType f) := by
  unfold fieldType
  repeat' (first | infer_instance | split)

instance (fields : List Field) : Leads Quiet (checkNames fields) := by
  unfold checkNames
  refine Leads.bind' inferInstance fun s => ?_
  refine Leads.bind' (Leads.forIn (h := fun f _ => ?_)) fun _ => ?_
  · split <;> infer_instance
  · refine Leads.bind' inferInstance fun s => ?_
    split <;> infer_instance

theorem mem_list {im : Imports} {entry : Text × Text} : entry ∈ im.list ↔ entry ∈ im.names :=
  (sortBy_perm _ _).mem_iff

/-- A name without a problem is that of no import, no record and not of the owner. -/
theorem nameProblem?_eq_none {im : Imports} {name : Text} (h : nameProblem? im name = none) :
    (∀ entry ∈ im.names, entry.2 ≠ name) ∧ name ≠ "owner" ∧ isRecordName name = false := by
  unfold nameProblem? at h
  split at h
  · cases h
  · rename_i himport
    split at h
    · cases h
    · rename_i hreserved
      simp only [Bool.or_eq_true, beq_iff_eq, not_or, Bool.not_eq_true] at hreserved
      refine ⟨fun entry hentry hname => ?_, hreserved⟩
      unfold importedAs? at himport
      rw [Option.map_eq_none_iff, List.find?_eq_none] at himport
      exact himport entry (List.mem_reverse.mpr (mem_list.mpr hentry)) (beq_iff_eq.mpr hname)

/-- Names that are checked one after the other are all free, or one of them is reported. -/
theorem checkEach_ok (im : Imports) {fields : List Field} {s s' : Session} {a : PUnit}
    (h : (forIn fields PUnit.unit fun f _ => do
        match nameProblem? im f.name with
        | some p =>
          let place := f.element.bind (← Session.getDocument).location
          Draft.report place p
          pure (ForInStep.yield PUnit.unit)
        | none => pure (ForInStep.yield PUnit.unit) : Work Session PUnit).runOn s = (.ok a, s')) :
    (s.log.hasErrors = true → s'.log.hasErrors = true) ∧
      (s'.log.hasErrors = true ∨ s' = s ∧ ∀ f ∈ fields, nameProblem? im f.name = none) := by
  induction fields generalizing s with
  | nil =>
    cases h
    exact ⟨fun h => h, Or.inr ⟨rfl, List.forall_mem_nil _⟩⟩
  | cons f fields ih =>
    rw [List.forIn_cons] at h
    obtain ⟨step, s₁, hbody, hrest⟩ := Work.bind_ok h
    split at hbody
    · obtain ⟨_, _, hget, hbody⟩ := Work.bind_ok hbody
      cases hget
      obtain ⟨_, _, hreport, hbody⟩ := Work.bind_ok hbody
      cases hreport
      cases hbody
      obtain ⟨hkept, -⟩ := ih hrest
      have hreported := hkept (Draft.hasErrors_problem _ _ _)
      exact ⟨fun _ => hreported, Or.inl hreported⟩
    · rename_i hnone
      cases hbody
      obtain ⟨hkept, hfree⟩ := ih hrest
      refine ⟨hkept, hfree.imp_right (And.imp_right fun hfree => ?_)⟩
      exact List.forall_mem_cons.mpr ⟨hnone, hfree⟩

/-- No name was a problem, or the work would have failed. -/
theorem checkNames_ok {fields : List Field} {s s' : Session} {a : Unit}
    (h : (checkNames fields).runOn s = (.ok a, s')) :
    s' = s ∧ ∀ f ∈ fields, nameProblem? s.imports f.name = none := by
  unfold checkNames at h
  obtain ⟨_, _, hget, h⟩ := Work.bind_ok h
  cases hget
  obtain ⟨_, s₁, hfields, h⟩ := Work.bind_ok h
  obtain ⟨_, _, hget, h⟩ := Work.bind_ok h
  cases hget
  rcases (checkEach_ok _ hfields).2 with hreported | ⟨hsame, hfree⟩
  · obtain ⟨failure, hfailure⟩ := Draft.failure?_isSome hreported
    simp only [hfailure] at h
    cases h
  · split at h
    · cases h
    · cases h
      exact ⟨hsame, hfree⟩

/-- What a program is made of: the fields of its session in the order of their construction, the
sections and what was added at the end. Names were checked before the bundle was declared. -/
structure Assembled (binderName : Text) (root : FieldId) (s : Session) (p : Program) : Prop where
  order : ∃ order, s.fields.constructionOrder = .ok order ∧
    p.construct = (order.map s.fields.field).flatMap constructLines ∧
    p.trailing = (order.map s.fields.field).flatMap lateLines ++ s.trailing
  attach : ∃ function, p.attach = s.sections.render function
  binderName : p.binderName = binderName
  rootExpr : p.rootExpr = (s.fields.field root).name
  locals : p.locals = s.fields.declarationOrder.map fun id => (s.fields.field id).name
  unused : p.unused = (s.fields.declarationOrder.filter fun id =>
    id != root && !(s.fields.field id).used).map fun id => (s.fields.field id).name
  imports : p.imports = s.imports
  bundle : ∃ d d' bundle, d.catalog = s.catalog ∧ d.bundle = s.bundle ∧
    (∀ id < s.fields.fields.size, nameProblem? d.imports (s.fields.field id).name = none) ∧
    Draft.bundleDeclarations.runOn d = (.ok bundle, d') ∧ d'.imports = s.imports ∧
    p.extra = bundle ++ s.messages.declarations

theorem declarations_ok {fields : List Field} {s s' : Session} {declarations : List Declaration}
    (h : (fields.mapM fun f => do return (⟨f.name, ← fieldType f⟩ : Declaration) :
      Work Session (List Declaration)).runOn s = (.ok declarations, s')) :
    declarations.map (·.name) = fields.map (·.name) := by
  induction fields generalizing s declarations with
  | nil =>
    rw [List.mapM_nil] at h
    cases h
    rfl
  | cons f fields ih =>
    rw [List.mapM_cons] at h
    obtain ⟨first, s₁, hfirst, h⟩ := Work.bind_ok h
    obtain ⟨others, s₂, hothers, h⟩ := Work.bind_ok h
    cases h
    obtain ⟨type, _, -, hfirst⟩ := Work.bind_ok hfirst
    cases hfirst
    rw [List.map_cons, List.map_cons, ih hothers]

theorem assemble_ok {settings : Settings} {url binderName : Text} {root : FieldId}
    {s s' : Session} {p : Program}
    (h : (assemble settings url binderName root).runOn s = (.ok p, s')) :
    Quiet s s' ∧ Assembled binderName root s' p := by
  unfold assemble at h
  obtain ⟨_, _, hget, h⟩ := Work.bind_ok h
  cases hget
  obtain ⟨order, s₁, horder, h⟩ := Work.bind_ok h
  obtain ⟨rootType, s₂, hroot, h⟩ := Work.bind_ok h
  obtain ⟨_, _, hget, h⟩ := Work.bind_ok h
  cases hget
  extract_lets rest at h
  obtain ⟨ownerType, s₃, hquiet₃, h⟩ : ∃ ownerType s₃, Quiet s₂ s₃ ∧
      (rest ownerType).runOn s₃ = (.ok p, s') := by
    split at h
    · obtain ⟨ownerType, s₃, howner, h⟩ := Work.bind_ok h
      exact ⟨ownerType, s₃, Keeps.keeps howner, h⟩
    · obtain ⟨ownerType, s₃, howner, h⟩ := Work.bind_ok h
      exact ⟨ownerType, s₃, Keeps.keeps howner, h⟩
  obtain ⟨declarations, s₄, hdeclarations, h⟩ := Work.bind_ok h
  obtain ⟨_, _, hget, h⟩ := Work.bind_ok h
  cases hget
  extract_lets sections last at h
  obtain ⟨attach, s₅, hquiet₅, hattach, h⟩ : ∃ attach s₅, Quiet s₄ s₅ ∧
      (∃ function, attach = sections.render function) ∧ (last attach).runOn s₅ = (.ok p, s') := by
    split at h
    · rename_i hempty
      obtain ⟨attach, s₅, hattach, h⟩ := Work.bind_ok h
      refine ⟨attach, s₅, Keeps.keeps hattach, ⟨[], ?_⟩, h⟩
      cases hattach
      unfold Sections.render
      rw [List.isEmpty_iff.mp hempty]
      rfl
    · obtain ⟨function, s₅, hfunction, h⟩ := Work.bind_ok h
      obtain ⟨attach, _, hattach, h⟩ := Work.bind_ok h
      cases hattach
      exact ⟨_, s₅, Keeps.keeps hfunction, ⟨function, rfl⟩, h⟩
  obtain ⟨_, s₆, hnames, h⟩ := Work.bind_ok h
  obtain ⟨bundle, s₇, hbundle, h⟩ := Work.bind_ok h
  obtain ⟨_, _, hget, h⟩ := Work.bind_ok h
  cases hget
  cases h
  have hquiet₁ : Quiet s s₁ := Keeps.keeps horder
  have hquiet₂ : Quiet s₁ s₂ := Keeps.keeps hroot
  have hquiet₄ : Quiet s₃ s₄ := Keeps.keeps hdeclarations
  have hquiet₆ : Quiet s₅ s₆ := Keeps.keeps hnames
  have hquiet₇ : Quiet s₆ s' := Keeps.keeps hbundle
  have hdeclared : Quiet s s₄ :=
    IsTrans.trans _ _ _ (IsTrans.trans _ _ _ hquiet₁ hquiet₂) (IsTrans.trans _ _ _ hquiet₃ hquiet₄)
  have hchecked : Quiet s s₆ :=
    IsTrans.trans _ _ _ hdeclared (IsTrans.trans _ _ _ hquiet₅ hquiet₆)
  refine ⟨IsTrans.trans _ _ _ hchecked hquiet₇, ?_⟩
  obtain ⟨hsame, hfree⟩ := checkNames_ok hnames
  obtain ⟨d, hdeclared₇, rfl⟩ := Session.lift_ok hbundle
  have horder' : s.fields.constructionOrder = .ok order := by
    unfold Draft.orFailAt at horder
    split at horder
    · rename_i hok
      cases horder
      exact hok
    · cases horder
  have hchecked₆ : ∀ id < s₄.fields.fields.size,
      nameProblem? s₆.imports (s.fields.field id).name = none := by
    intro id hid
    obtain ⟨_, _, -, rfl⟩ := hdeclared
    rw [hsame]
    refine hfree _ (List.mem_map_of_mem ?_)
    exact (FieldTable.declarationOrder_perm _).mem_iff.mpr (List.mem_range.mpr hid)
  have hdeclares : ∃ d₁ d₂ declarations, d₁.catalog = s₆.catalog ∧ d₁.bundle = s₆.bundle ∧
      (∀ id < s₄.fields.fields.size,
        nameProblem? d₁.imports (s.fields.field id).name = none) ∧
      Draft.bundleDeclarations.runOn d₁ = (.ok declarations, d₂) ∧ d₂.imports = d.imports ∧
      bundle ++ d.messages.declarations = declarations ++ d.messages.declarations :=
    ⟨s₆.toDraft, d, bundle, rfl, rfl, hchecked₆, hdeclared₇, rfl, rfl⟩
  have hquiet : Draft.Quiet s₆.toDraft d := Keeps.keeps hdeclared₇
  obtain ⟨_, _, -, rfl⟩ := hquiet
  obtain ⟨_, _, -, rfl⟩ := hdeclared
  obtain ⟨_, _, -, rfl⟩ := hchecked
  refine ⟨⟨order, horder', rfl, rfl⟩, hattach, rfl, rfl, ?_, rfl, rfl, hdeclares⟩
  exact (declarations_ok hdeclarations).trans (List.map_map ..)

/-- Replacing markers changes nothing that a program is made of. -/
theorem Assembled.woven {binderName : Text} {root : FieldId} {s : Session} {p : Program}
    (h : Assembled binderName root s p) (markers : Markers) :
    Assembled binderName root { s with markers } p :=
  ⟨h.order, h.attach, h.binderName, h.rootExpr, h.locals, h.unused, h.imports, h.bundle⟩

end Assembly

end ViewBinder
