-- The stages of compiling a template. Its session opens the bundle and the messages, builds fields and
-- sections in one run, binds the owner, settles the references and is made into a program; from
-- the end of the run on, nothing happens to fields but that they are marked as read. Whatever becomes
-- of it, every section that is entered on the way is left again.
import ViewBinder.Proofs.Element.Confined
import ViewBinder.Proofs.Marker.Weave
import ViewBinder.Proofs.Template.Assembly
import ViewBinder.Proofs.Template.Binding
import ViewBinder.Proofs.Template.Guarded

namespace ViewBinder

open Markup (Document)
open Session (Binds Reaches Run)
open Work (Keeps Leads)

namespace Template

/-! ## Reading -/

theorem failIfReported_ok {s s' : Session} {a : Unit}
    (h : failIfReported.runOn s = (.ok a, s')) : s' = s ∧ s.log.hasErrors = false := by
  unfold failIfReported at h
  obtain ⟨_, _, hget, h⟩ := Work.bind_ok h
  cases hget
  split at h
  · cases h
  · rename_i hnone
    cases h
    refine ⟨rfl, Bool.eq_false_iff.mpr fun hreported => ?_⟩
    obtain ⟨failure, hfailure⟩ := Draft.failure?_isSome hreported
    rw [hnone] at hfailure
    cases hfailure

/-- What a template declares is built in one run, after which no error is reported. -/
theorem walk_ok {root ui : Nat} {s s' : Session} {f : FieldId}
    (h : (walk root).runOn s = (.ok (ui, f), s')) :
    s'.log.hasErrors = false ∧ ∃ built, Run s built ∧ f < built.fields.fields.size ∧
      s' = { built with fields := built.fields.change f ({ · with used := true }) } := by
  unfold walk at h
  obtain ⟨_, s₁, hattributes, h⟩ := Work.bind_ok h
  obtain ⟨_, s₂, hunattributed, h⟩ := Work.bind_ok h
  obtain ⟨_, s₃, htextless, h⟩ := Work.bind_ok h
  obtain ⟨_, _, hget, h⟩ := Work.bind_ok h
  cases hget
  obtain ⟨ui, s₄, hui, h⟩ := Work.bind_ok h
  obtain ⟨directives, s₅, htake, h⟩ := Work.bind_ok h
  obtain ⟨_, s₆, hfollow, h⟩ := Work.bind_ok h
  obtain ⟨_, s₇, hrest, h⟩ := Work.bind_ok h
  obtain ⟨f', built, hbuild, h⟩ := Work.bind_ok h
  obtain ⟨_, s₈, huse, h⟩ := Work.bind_ok h
  obtain ⟨_, s₉, hfail, h⟩ := Work.bind_ok h
  cases h
  obtain ⟨hsame, hclean⟩ := failIfReported_ok hfail
  cases hsame
  cases huse
  have hrun₄ : Run s s₄ := ((((Session.run_ok hattributes).trans (Session.run_ok hunattributed)).trans
    (Session.run_ok htextless)).trans (Session.run_ok hui))
  have hrun₇ : Run s₄ s₇ := ((Session.run_ok htake).trans (Session.run_ok hfollow)).trans
    (Session.run_ok hrest)
  have hsettled := Element.build_ok hbuild
  exact ⟨hclean, built, (hrun₄.trans hrun₇).trans (Session.run_ok hbuild), hsettled.1, rfl⟩

/-- Then the owner is bound. -/
theorem gather_ok {root : Nat} {s s' : Session} {f : FieldId}
    (h : (gather root).runOn s = (.ok f, s')) :
    ∃ built ui, Run s built ∧ f < built.fields.fields.size ∧ (Binding.bindOwner ui).runOn
      { built with fields := built.fields.change f ({ · with used := true }) } = (.ok (), s') := by
  rw [gather_eq] at h
  obtain ⟨⟨ui, f'⟩, walked, hwalk, h⟩ := Work.bind_ok h
  obtain ⟨_, _, hbind, h⟩ := Work.bind_ok h
  cases h
  obtain ⟨-, built, hrun, hlt, rfl⟩ := walk_ok hwalk
  exact ⟨built, ui, hrun, hlt, hbind⟩

/-! ## From the last field to the program -/

/-- What was written for the owner of a session, all of whose fields have one that fits: statements
that fill them, and calls. -/
def Fills (s : Session) : Prop :=
  ∀ traits, s.owner.isSome = true → s.ownerTraits = some traits →
    (∀ u ∈ traits.uiFields, Binding.Fits s.catalog s.fields u) ∧
      ∃ calls, s.trailing = traits.uiFields.filterMap (Binding.filling? s.fields) ++ calls ∧
        ∀ line ∈ calls, ∃ id, (s.fields.field id).Calls line

/-- What happens when all fields are known, `root` being the one of the interface: fields are marked
as read where a reference starts from them or a statement at the end shows them, and nothing
else becomes of fields, sections and resources. -/
structure Finishes (root : FieldId) (built s : Session) : Prop where
  known : root < built.fields.fields.size
  marks : built.fields.Marks s.fields
  sections : s.sections = built.sections
  bundle : s.bundle = built.bundle
  messages : s.messages = built.messages
  catalog : built.catalog.Extends s.catalog
  imports : built.imports.names <+: s.imports.names
  owner : s.owner = built.owner ∧ s.ownerTraits = built.ownerTraits
  read : ∀ id, (s.fields.field id).used = true → (built.fields.field id).used = true ∨ id = root ∨
    (∃ line ∈ s.trailing, Text.Shows (s.fields.field id).name line) ∨
      ∃ r ∈ s.fields.references, ∃ type expr, s.toDraft.target r = .ok (id, type, expr)
  resolved : ∀ r ∈ s.fields.references, ∃ n id expr adapted,
    Draft.Resolved s.toDraft r n id expr adapted
  fills : built.trailing = [] → Fills s

/-- A template that can be read was built in one run, and its fields are then finished. -/
theorem read_ok {root : Nat} {s s' : Session} {f : FieldId} (hsound : s.Sound)
    (h : (read root).runOn s = (.ok f, s')) :
    ∃ built, Run s built ∧ Finishes f built s' ∧ s'.markers.Fixed := by
  unfold read at h
  obtain ⟨f', bound, hgather, h⟩ := Work.bind_ok h
  obtain ⟨_, s₁, hsettle, h⟩ := Work.bind_ok h
  obtain ⟨_, s₂, hfail, h⟩ := Work.bind_ok h
  cases h
  obtain ⟨built, ui, hrun, hroot, hbind⟩ := gather_ok hgather
  obtain ⟨hbinds, hfills⟩ := Binding.bindOwner_ok hbind
  obtain ⟨d, hd, rfl⟩ := Session.lift_ok hsettle
  obtain ⟨rfl, hclean⟩ := failIfReported_ok hfail
  have hmark : Reaches built
      { built with fields := built.fields.change f ({ · with used := true }) } :=
    Session.reaches_change .use
  have hreaches := hmark.trans hbinds.reaches
  have hbound := (hrun.reaches.trans hreaches).sound hsound
  obtain ⟨hsettles, -, hresolved⟩ :=
    Draft.settleReferences_ok (hbound.marked.apart hbound.supply) hd
  have hmarks := ((FieldTable.marks_change built.fields f).trans hbinds.marks).trans hsettles.marks
  have hnames : built.imports.names <+: bound.imports.names :=
    hreaches.prefix
  have hread : ∀ id, (d.fields.field id).used = true → (built.fields.field id).used = true ∨ id = f ∨
      (∃ line ∈ bound.trailing, Text.Shows (d.fields.field id).name line) ∨
        ∃ r ∈ d.fields.references, ∃ type expr, d.target r = .ok (id, type, expr) := by
    intro id hused
    rcases Draft.settleReferences_reads hd hused with hused | ⟨r, hr, type, expr, htarget⟩
    · rcases hbinds.shown id hused with hused | ⟨line, hline, hshows⟩
      · exact (FieldTable.used_mark hused).imp_right Or.inl
      · have hname := (hbinds.marks.trans hsettles.marks).name id
        exact Or.inr (Or.inr (Or.inl ⟨line, hline, hname ▸ hshows⟩))
    · refine Or.inr (Or.inr (Or.inr ⟨r, ?_, type, expr, ?_⟩))
      · rw [hsettles.references]
        exact hr
      · rw [hsettles.toAlike.target]
        exact htarget
  have hfilled : built.trailing = [] → Fills { bound with toDraft := d } := by
    intro hempty traits howner htraits
    have hkept := hreaches.owner
    rcases hfills with hreported | hfills
    · have hreports := hsettles.reports hreported
      rw [hclean] at hreports
      cases hreports
    · obtain ⟨hfound, calls, hlines, hcalls⟩ :=
        hfills traits (hkept.1 ▸ howner) (hkept.2 ▸ htraits)
      have hmarked := hbinds.marks.trans hsettles.marks
      refine ⟨fun u hu => ?_, calls, ?_, fun line hline => ?_⟩
      · have hcatalog : d.catalog = built.catalog := hsettles.catalog.trans hbinds.catalog
        exact hcatalog ▸ (Binding.fits_marks hmarked u).mpr (hfound u hu)
      · rw [hlines, hempty, List.nil_append]
        simp only [Binding.filling?_marks hmarked]
      · obtain ⟨id, rest, hrest⟩ := hcalls line hline
        exact ⟨id, rest, by rw [hrest, hmarked.name]⟩
  refine ⟨built, hrun, ?_, hsettles.fixed hbound.marked.fixed⟩
  exact {
    known := hroot
    marks := hmarks
    sections := hbinds.sections
    bundle := hsettles.bundle.trans hbinds.bundle
    messages := hsettles.messages.trans hbinds.messages
    catalog := hsettles.catalog ▸ hreaches.catalog
    imports := hsettles.imports ▸ hnames
    owner := hreaches.owner
    read := hread
    resolved := fun r hr => hresolved r (hsettles.references ▸ hr)
    fills := hfilled }

/-! ## From the program to its text -/

/-- A program is written if its text can be woven and no marker is left in it. -/
theorem weave_ok_iff {p : Program} {s s' : Session} {text : Text} :
    (weave p).runOn s = (.ok text, s') ↔ Marker.occursIn text = false ∧
      ∃ m, (Markers.weave p.render).runOn s.markers = (.ok text, m) ∧
        s' = { s with markers := m } := by
  rcases hrun : (Markers.weave p.render).runOn s.markers with ⟨answer, m⟩
  have hattempt : (liftM (Markers.weave p.render).attempt :
      Work Session (Except Failure Text)).runOn s = (.ok answer, { s with markers := m }) := by
    show (Except.ok ((Markers.weave p.render).runOn s.markers).1,
      ({ s with markers := ((Markers.weave p.render).runOn s.markers).2 } : Session)) = _
    rw [hrun]
  unfold weave
  rw [Work.runOn_bind, hattempt]
  constructor
  · intro h
    cases answer with
    | error failure => cases h
    | ok woven =>
      dsimp only at h
      split at h
      · obtain ⟨_, _, hget, h⟩ := Work.bind_ok h
        cases hget
        cases h
      · rename_i hplain
        cases h
        exact ⟨Bool.eq_false_iff.mpr hplain, m, rfl, rfl⟩
  · rintro ⟨hplain, m', hwoven, rfl⟩
    cases hwoven
    simp [hplain]

theorem weave_ok {p : Program} {s s' : Session} {text : Text} (hfixed : s.markers.Fixed)
    (h : (weave p).runOn s = (.ok text, s')) :
    s.markers.Expands p.render text ∧
      ∃ m : Markers, m.entries = s.markers.entries ∧ s' = { s with markers := m } := by
  obtain ⟨-, m, hrun, rfl⟩ := weave_ok_iff.mp h
  obtain ⟨hentries, hexpands⟩ := Markers.weave_expands hfixed hrun
  exact ⟨hexpands, m, hentries, rfl⟩

/-- Imports and reports may be added, and markers be counted, when all fields are finished. -/
theorem Finishes.later {root : FieldId} {built s : Session} (h : Finishes root built s)
    {imports : Imports} {log : Log} {markers : Markers}
    (hnames : s.imports.names <+: imports.names) (hentries : markers.entries = s.markers.entries) :
    Finishes root built { s with imports, log, markers } := by
  have halike : Draft.Alike s.toDraft { s.toDraft with imports, log, markers } :=
    ⟨rfl, rfl, rfl, fun _ => rfl, fun _ => rfl, fun _ => rfl, fun _ => rfl, rfl⟩
  refine ⟨h.known, h.marks, h.sections, h.bundle, h.messages, h.catalog, h.imports.trans hnames,
    h.owner, fun id hused => ?_, fun r hr => ?_, h.fills⟩
  · refine (h.read id hused).imp_right (Or.imp_right (Or.imp_right ?_))
    rintro ⟨r, hr, type, expr, htarget⟩
    exact ⟨r, hr, type, expr, (halike.target r).trans htarget⟩
  · obtain ⟨n, id, expr, adapted, hresolved⟩ := h.resolved r hr
    refine ⟨n, id, expr, adapted, hresolved.alike halike ?_⟩
    unfold Markers.find?
    rw [hentries]

/-! ## The whole template -/

/-- The bundle of a template before it holds anything. -/
def emptyBundle (t : Template) (settings : Settings) : Bundle :=
  { package := settings.packagePath, packageName := settings.package, lead := t.name settings,
    files := t.files }

/-- The bundle and the messages of a template are open, and empty. -/
structure Opens (t : Template) (settings : Settings) (s opened : Session) : Prop where
  reaches : Reaches s opened
  fields : opened.fields = s.fields
  sections : opened.sections = s.sections
  trailing : opened.trailing = s.trailing
  bundle : ∃ type, opened.bundle = { t.emptyBundle settings with type := some type }
  messages : ∃ type,
    opened.messages = { name := t.name settings ++ "Messages", type := some type }

theorem opens_ok {t : Template} {settings : Settings} {s s₁ s₂ : Session}
    (hbundle : (liftM (Draft.openBundle (t.emptyBundle settings)) : Work Session Unit).runOn s =
      (.ok (), s₁))
    (hmessages : (liftM (Draft.openMessages settings.packagePath settings.package
      (t.name settings ++ "Messages")) : Work Session Unit).runOn s₁ = (.ok (), s₂)) :
    Opens t settings s s₂ := by
  obtain ⟨d₁, hd₁, rfl⟩ := Session.lift_ok hbundle
  obtain ⟨d₂, hd₂, rfl⟩ := Session.lift_ok hmessages
  have hrun₁ : Draft.Run _ d₁ := Keeps.keeps hd₁
  have hrun₂ : Draft.Run _ d₂ := Keeps.keeps hd₂
  refine ⟨(Session.reaches_draft hrun₁).trans (Session.reaches_draft hrun₂), ?_, rfl, rfl, ?_, ?_⟩
  · cases hd₁
    cases hd₂
    rfl
  · cases hd₁
    cases hd₂
    exact ⟨_, rfl⟩
  · cases hd₁
    cases hd₂
    exact ⟨_, rfl⟩

/-- The stages of a template that compiles, up to the session `s` at the end. -/
structure Stages (t : Template) (settings : Settings) (start built s : Session) (root : FieldId)
    (compiled : Compiled) : Prop where
  run : ∃ opened, Opens t settings start opened ∧ Run opened built
  sound : built.Sound
  finishes : Finishes root built s
  assembled : Assembly.Assembled (t.name settings) root s compiled.program
  fixed : s.markers.Fixed
  woven : ∃ text, s.markers.Expands compiled.program.render text

theorem compileDocument_stages {t : Template} {c : Catalog} {settings : Settings}
    {supply : Nat → Nat} (hsupply : Function.Injective supply) {document : Document}
    {compiled : Compiled} {s : Session}
    (h : (t.compileDocument settings).runOn (t.start c settings supply document) =
      (.ok compiled, s)) :
    ∃ built root, Stages t settings (t.start c settings supply document) built s root compiled := by
  unfold compileDocument at h
  obtain ⟨_, s₁, hbundle, h⟩ := Work.bind_ok h
  obtain ⟨_, s₂, hmessages, h⟩ := Work.bind_ok h
  obtain ⟨root, s₃, hread, h⟩ := Work.bind_ok h
  obtain ⟨program, s₄, hassemble, h⟩ := Work.bind_ok h
  obtain ⟨text, s₅, hweave, h⟩ := Work.bind_ok h
  obtain ⟨_, _, hget, h⟩ := Work.bind_ok h
  cases hget
  cases h
  have hopens : Opens t settings (t.start c settings supply document) s₂ :=
    opens_ok hbundle hmessages
  have hsound := hopens.reaches.sound (sound_start t c settings hsupply document)
  obtain ⟨built, hrun, hfinishes, hfixed⟩ := read_ok hsound hread
  obtain ⟨⟨imports, log, hnames, rfl⟩, hassembled⟩ := Assembly.assemble_ok hassemble
  have hfixed' : ({ s₃ with imports, log } : Session).markers.Fixed := hfixed
  obtain ⟨hexpands, m, hentries, rfl⟩ := weave_ok hfixed' hweave
  exact ⟨built, root, ⟨s₂, hopens, hrun⟩, hrun.reaches.sound hsound,
    hfinishes.later hnames hentries, hassembled.woven m, fun e he => hfixed e (hentries ▸ he),
    text, hexpands.congr hentries⟩

namespace Stages

variable {t : Template} {settings : Settings} {c : Catalog} {supply : Nat → Nat}
  {document : Document} {built s : Session} {root : FieldId} {compiled : Compiled}

theorem wellFormed
    (h : Stages t settings (t.start c settings supply document) built s root compiled) :
    s.fields.WellFormed := by
  obtain ⟨opened, hopens, hrun⟩ := h.run
  have hempty : opened.fields.WellFormed := hopens.fields ▸ FieldTable.wellFormed_empty
  exact (hrun.fields.wellFormed hempty).marks h.finishes.marks

/-- No section is left open. -/
theorem closed
    (h : Stages t settings (t.start c settings supply document) built s root compiled) :
    s.sections.unfinished = [] := by
  obtain ⟨opened, hopens, hrun⟩ := h.run
  have hdepth := hrun.depth
  rw [hopens.sections, ← h.finishes.sections] at hdepth
  exact List.length_eq_zero_iff.mp hdepth

/-- Every field is made, or a statement of a section assigns to it. -/
theorem settled
    (h : Stages t settings (t.start c settings supply document) built s root compiled)
    {id : FieldId} (hid : id < s.fields.fields.size) :
    (s.fields.field id).initializer.isSome ∨ ∃ part ∈ s.sections.finished, ∃ expr,
      (s.fields.field id).name ++ " = " ++ expr ∈ part.statements := by
  obtain ⟨opened, hopens, hrun⟩ := h.run
  have hnew : opened.fields.fields.size ≤ id := by
    rw [hopens.fields]
    exact Nat.zero_le _
  have hmade : (s.fields.field id).initializer = (built.fields.field id).initializer :=
    h.finishes.marks.apply id (·.initializer) fun _ _ => rfl
  rw [hmade, h.finishes.marks.name]
  refine (hrun.declared_settled hnew (h.finishes.marks.size ▸ hid)).imp_right fun hassigns => ?_
  unfold Sections.Assigns at hassigns
  rw [← h.finishes.sections, h.closed] at hassigns
  exact hassigns

end Stages

end Template

/-! ## Sections of a template -/

section Sections

open Session

variable {splicing attaching : Bool}

namespace Directive

instance (e : Nat) (precedence : Precedence) (type : TypeId) (name : Text) :
    Leads (Confined splicing attaching) (declareField e precedence type name) := by
  unfold declareField
  repeat' (first | infer_instance | split | refine Leads.bind' inferInstance fun _ => ?_)

instance (e : Nat) (name : Text) (problem : Text → Text → Problem) :
    Leads (Confined splicing attaching) (resolveType e name problem) := by
  unfold resolveType
  refine Leads.bind' inferInstance fun c => ?_
  split <;> infer_instance

instance (e : Nat) (found : Option Nat) (children : List Nat) :
    Leads (Confined splicing attaching) (attributesElement e found children) := by
  induction children generalizing found with
  | nil =>
    unfold attributesElement
    infer_instance
  | cons child rest ih =>
    unfold attributesElement
    infer_instance

instance (e : Nat) : Leads (Confined splicing attaching) (withValue e) := by
  unfold withValue
  infer_instance

instance (e : Nat) : Leads (Confined splicing attaching) (importConstants e) := by
  unfold importConstants
  repeat' (first | infer_instance | split | refine Leads.bind' inferInstance fun _ => ?_ |
    dsimp only)

instance (e : Nat) : Leads (Confined splicing attaching) (style e) := by
  unfold style
  repeat' (first | infer_instance | split | refine Leads.bind' inferInstance fun _ => ?_)

instance (e : Nat) (name typeName : Text) (declare : Work Draft Text) :
    Leads (Confined splicing attaching) (resource e name typeName declare) := by
  unfold resource
  repeat' (first | infer_instance | split | refine Leads.bind' inferInstance fun _ => ?_)

instance (e : Nat) : Leads (Confined splicing attaching) (image e) := by
  unfold image
  infer_instance

instance (e : Nat) : Leads (Confined splicing attaching) (data e) := by
  unfold data
  infer_instance

instance (e : Nat) : Leads (Confined splicing attaching) (follow e) := by
  unfold follow
  infer_instance

instance (directives : List Nat) :
    Leads (Confined splicing attaching) (followAll directives) := by
  unfold followAll
  infer_instance

end Directive

namespace Binding

instance (statement : Text) : Leads (Confined splicing attaching) (addTrailing statement) :=
  leads_modify (fun _ => rfl) fun _ => rfl

instance (f : FieldId) (ui : Nat) : Leads (Confined splicing attaching) (placeOf f ui) := by
  unfold placeOf
  infer_instance

instance (ui : Nat) (ownerName : Text) (u : UiField) :
    Leads (Confined splicing attaching) (bindField ui ownerName u) := by
  unfold bindField
  repeat' (first | infer_instance | split | refine Leads.bind' inferInstance fun _ => ?_)

instance (ui : Nat) (h : Handler) (method : Method) (name : Text) :
    Leads (Confined splicing attaching) (bindHandlerTo ui h method name) := by
  unfold bindHandlerTo
  repeat' (first | infer_instance | split | refine Leads.bind' inferInstance fun _ => ?_ |
    dsimp only)

instance (ui : Nat) (owner : TypeId) (h : Handler) :
    Leads (Confined splicing attaching) (bindHandler ui owner h) := by
  unfold bindHandler
  repeat' (first | infer_instance | split | refine Leads.bind' inferInstance fun _ => ?_)

instance (ui : Nat) : Leads (Confined splicing attaching) (bindOwner ui) := by
  unfold bindOwner
  refine Leads.bind' inferInstance fun s => ?_
  split <;> infer_instance

end Binding

namespace Template

instance (root : Nat) (children : List Nat) (ui : Option Nat) :
    Leads (Confined splicing attaching) (interface root children ui) := by
  induction children generalizing ui with
  | nil => cases ui <;> (unfold interface; infer_instance)
  | cons child rest ih =>
    unfold interface
    repeat' (first | infer_instance | split)

instance : Leads (Confined splicing attaching) failIfReported := by
  unfold failIfReported
  refine Leads.bind' inferInstance fun s => ?_
  split <;> infer_instance

instance (root : Nat) : Leads (Confined splicing attaching) (gather root) := by
  unfold gather
  repeat' (first | infer_instance | refine Leads.bind' inferInstance fun _ => ?_)

instance (root : Nat) : Leads (Confined splicing attaching) (read root) := by
  unfold read
  infer_instance

instance (f : Field) : Leads (Confined splicing attaching) (Assembly.fieldType f) := by
  unfold Assembly.fieldType
  repeat' (first | infer_instance | split)

instance (fields : List Field) : Leads (Confined splicing attaching) (Assembly.checkNames fields) := by
  unfold Assembly.checkNames
  repeat' (first | infer_instance | split | refine Leads.bind' inferInstance fun _ => ?_ |
    refine Leads.bind' (Leads.forIn' fun _ _ => ?_) fun _ => ?_)

instance (settings : Settings) (url binderName : Text) (root : FieldId) :
    Leads (Confined splicing attaching) (Assembly.assemble settings url binderName root) := by
  unfold Assembly.assemble
  repeat' (first | infer_instance | split | refine Leads.bind' inferInstance fun _ => ?_)

instance (p : Program) : Leads (Confined splicing attaching) (weave p) := by
  unfold weave
  repeat' (first | infer_instance | split | refine Leads.bind' inferInstance fun _ => ?_)

instance (t : Template) (settings : Settings) :
    Leads (Confined splicing attaching) (t.compileDocument settings) := by
  unfold compileDocument
  infer_instance

end Template

end Sections

end ViewBinder
