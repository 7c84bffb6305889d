-- Work in sessions. Work that keeps the runs of its session needs some things beforehand: an open
-- section to write to, or fields to add statements to. Some work also has to reach something by
-- its end: it settles a field that was declared for it, or places a name that was read in a line.
import ViewBinder.Proofs.Session.Run

namespace ViewBinder.Session

open Markup (Document)
open Work (Keeps Leads)

/-! ## Work that looks at a session -/

/-- A way in which imports relate sessions: packages that are imported and names that are qualified
lead along it. -/
class Importing (R : Session → Session → Prop) : Prop extends Std.Refl R, IsTrans Session R where
  importPackage : ∀ path preferred,
    Leads R (liftM (Draft.importPackage path preferred) : Work Session Text)
  qualify : ∀ t name, Leads R (liftM (Draft.qualify t name) : Work Session Text)

attribute [instance] Importing.importPackage Importing.qualify

section Looking

variable {R : Session → Session → Prop} [Std.Refl R]

instance (e : Nat) (p : Document → Problem) : Leads R (failOn e p : Work Session α) :=
  ⟨fun _ => Std.Refl.refl _⟩

instance : Leads R getDocument := ⟨fun _ => Std.Refl.refl _⟩

instance : Leads R getCatalog := ⟨fun _ => Std.Refl.refl _⟩

instance (name : Text) : Leads R (primitive name) := ⟨fun _ => Std.Refl.refl _⟩

instance (name : Text) : Leads R (uiType name) := ⟨fun _ => Std.Refl.refl _⟩

instance (name : Text) : Leads R (resourceType? name) := ⟨fun _ => Std.Refl.refl _⟩

instance : Leads R safeHtmlType := ⟨fun _ => Std.Refl.refl _⟩

instance (f : FieldId) : Leads R (nameOf f) := ⟨fun _ => Std.Refl.refl _⟩

instance (f : FieldId) : Leads R (isMade f) := ⟨fun _ => Std.Refl.refl _⟩

instance (content : Text) : Leads R (spliced content) := ⟨fun _ => Std.Refl.refl _⟩

end Looking

section Importing

variable {R : Session → Session → Prop} [Importing R]

instance (name : Text) : Leads R (uiFunction name) := by
  unfold uiFunction
  infer_instance

instance (name : Text) : Leads R (safeHtmlFunction name) := by
  unfold safeHtmlFunction
  infer_instance

instance (e : Nat) (type : TypeId) (params : List (Option TypeId)) :
    Leads R (Session.constructor e type params) := by
  unfold Session.constructor
  refine Leads.bind' inferInstance fun c => ?_
  split <;> infer_instance

instance (type : Option TypeId) (holder : Text) : Leads R (elementById type holder) := by
  unfold elementById
  refine Leads.bind' inferInstance fun function => ?_
  split <;> infer_instance

end Importing

/-! ## Work that is a run -/

/-- What work may rely on: an open section if it writes to one, and fields it adds statements to. -/
structure Ready (inSection : Bool) (hosts : List FieldId) (s : Session) : Prop where
  isOpen : inSection = true → s.sections.unfinished ≠ []
  hosted : ∀ f ∈ hosts, f < s.fields.fields.size

theorem ready_any (s : Session) : s.Ready false [] := ⟨nofun, nofun⟩

variable {inSection : Bool} {hosts : List FieldId}

theorem Run.ready {s s' : Session} (h : Run s s') (hs : s.Ready inSection hosts) :
    s'.Ready inSection hosts := by
  refine ⟨fun hsection hnil => ?_, fun f hf => ?_⟩
  · have hdepth := h.depth
    rw [hnil] at hdepth
    exact hs.isOpen hsection (List.length_eq_zero_iff.mp hdepth.symm)
  · exact Nat.lt_of_lt_of_le (hs.hosted f hf) h.fields.extends.size

theorem Ready.host {s : Session} {f : FieldId} (hs : s.Ready inSection hosts)
    (hf : f < s.fields.fields.size) : s.Ready inSection (f :: hosts) :=
  ⟨hs.isOpen, List.forall_mem_cons.mpr ⟨hf, hs.hosted⟩⟩

/-- A run, provided that the session is ready for it. -/
def Runs (inSection : Bool) (hosts : List FieldId) (s s' : Session) : Prop :=
  s.Ready inSection hosts → Run s s'

instance : Std.Refl (Runs inSection hosts) := ⟨fun s _ => Run.refl s⟩

instance : IsTrans Session (Runs inSection hosts) where
  trans _ _ _ h h' hready := (h hready).trans (h' ((h hready).ready hready))

theorem Run.runs {s s' : Session} (h : Run s s') : Runs inSection hosts s s' := fun _ => h

/-- A run that needs nothing beforehand can be had anywhere. -/
theorem keeps_inside {w : Work Session α} (h : Keeps (Runs false []) w) :
    Keeps (Runs inSection hosts) w :=
  ⟨fun hok => (h.keeps hok (ready_any _)).runs⟩

/-- Work that succeeds is a run. -/
theorem run_ok {w : Work Session α} [h : Keeps (Runs false []) w] {s s' : Session} {a : α}
    (hok : w.runOn s = (.ok a, s')) : Run s s' := h.keeps hok (ready_any s)

theorem run_draft {s : Session} {d : Draft} (h : Draft.CalmRun s.toDraft d) :
    Run s { s with toDraft := d } := by
  induction h with
  | refl => exact Run.refl s
  | tail _ hstep ih => exact ih.trans (Run.draft hstep)

theorem runOn_lift (w : Work Draft α) (s : Session) :
    (liftM w : Work Session α).runOn s =
      ((w.runOn s.toDraft).1, { s with toDraft := (w.runOn s.toDraft).2 }) := rfl

/-- Work on the draft that succeeds in a session succeeds on the draft. -/
theorem lift_ok {w : Work Draft α} {s s' : Session} {a : α}
    (h : (liftM w : Work Session α).runOn s = (.ok a, s')) :
    ∃ d, w.runOn s.toDraft = (.ok a, d) ∧ s' = { s with toDraft := d } := by
  rw [runOn_lift] at h
  rcases hrun : w.runOn s.toDraft with ⟨answer, d⟩
  rw [hrun] at h
  cases h
  exact ⟨d, rfl, rfl⟩

instance {w : Work Draft α} [h : Leads Draft.CalmRun w] :
    Leads (Runs inSection hosts) (liftM w : Work Session α) :=
  ⟨fun s => (run_draft (h.leads s.toDraft)).runs⟩

instance {w : Work Draft α} [h : Keeps Draft.Declares w] :
    Keeps (Runs inSection hosts) (liftM w : Work Session α) where
  keeps hok := by
    obtain ⟨d, hd, rfl⟩ := lift_ok hok
    exact (Run.resource (h.keeps hd)).runs

instance (w : Work Document α) : Leads (Runs inSection hosts) (liftM w : Work Session α) :=
  ⟨fun _ => (Run.draft (Draft.Calm.document _)).runs⟩

instance (f : Session → Document) :
    Leads (Runs inSection hosts)
      (modify fun s => { s with document := f s } : Work Session Unit) :=
  ⟨fun _ => (Run.draft (Draft.Calm.document _)).runs⟩

instance (f : Session → Nat) :
    Leads (Runs inSection hosts) (modify fun s => { s with ids := f s } : Work Session Unit) :=
  ⟨fun _ => (Run.aside _ _).runs⟩

instance : Importing (Runs inSection hosts) :=
  ⟨fun _ _ => inferInstance, fun _ _ => inferInstance⟩

/-! ## Fields -/

theorem keeps_statement {f : FieldId} {statement : Text → Text}
    (h : ∀ name, ∃ rest, statement name = name ++ "." ++ rest)
    {k : Text → Unit → Work Session α} (hk : ∀ name a, Keeps (Runs inSection hosts) (k name a)) :
    Keeps (Runs inSection hosts)
      (nameOf f >>= fun name => liftM (Draft.addStatement f (statement name)) >>= k name) where
  keeps {s a s'} hok := by
    obtain ⟨name, s1, hname, hok⟩ := Work.bind_ok hok
    cases hname
    obtain ⟨_, s2, hadd, hrest⟩ := Work.bind_ok hok
    cases hadd
    obtain ⟨rest, hstatement⟩ := h (s.fields.field f).name
    rw [hstatement] at hrest
    exact IsTrans.trans _ _ _ (Run.call f rest).runs ((hk _ _).keeps hrest)

theorem runOn_call (f : FieldId) (method : Text) (args : List Text) (s : Session) :
    (call f method args).runOn s = (.ok (), { s with
      fields := s.fields.change f (·.withStatement ((s.fields.field f).name ++ "." ++
        (method ++ "(" ++ Text.join ", " args ++ ")"))) }) := by
  have hsplit : ∀ name : Text, name ++ "." ++ (method ++ "(" ++ Text.join ", " args ++ ")") =
      name ++ "." ++ method ++ "(" ++ Text.join ", " args ++ ")" := by
    intro name
    simp only [List.append_assoc]
  rw [hsplit]
  rfl

instance (f : FieldId) (method : Text) (args : List Text) :
    Leads (Runs inSection hosts) (call f method args) := by
  refine ⟨fun s => ?_⟩
  rw [runOn_call]
  exact (Run.call f _).runs

/-! ## Sections, splices and attributes -/

instance (statement : Text) : Leads (Runs inSection hosts) (addAttached statement) :=
  ⟨fun _ => (Run.addAttached statement).runs⟩

instance (statement : Text) : Leads (Runs inSection hosts) (addDetached statement) :=
  ⟨fun _ => (Run.addDetached statement).runs⟩

instance (e : Nat) (expr : Text) : Leads (Runs inSection hosts) (splice e expr) :=
  ⟨fun _ => ((Run.draft (Draft.Calm.mark _ _ _)).trans (Run.aside _ _)).runs⟩

/-- Work in a section needs no section around it. -/
instance (expr : Text) (w : Work Session α) [h : Keeps (Runs true hosts) w] :
    Keeps (Runs inSection hosts) (attached expr w) where
  keeps {s a s'} hok := by
    have hopen : (s.sections.enter expr).unfinished ≠ [] := by simp [Sections.enter]
    intro hready
    unfold attached at hok
    rw [Work.runOn_bind, Work.runOn_modify] at hok
    simp only [Work.runOn_andThenAlways] at hok
    rcases hrun : w.runOn { s with sections := s.sections.enter expr } with ⟨answer, s''⟩
    rw [hrun] at hok
    cases hok
    exact Run.attached expr (h.keeps hrun ⟨fun _ => hopen, hready.hosted⟩)

instance (w : Work Session α) [h : Keeps (Runs inSection hosts) w] :
    Keeps (Runs inSection hosts) (withSplices w) where
  keeps {s a s'} hok := by
    unfold withSplices at hok
    rw [Work.runOn_bind, Work.runOn_get] at hok
    simp only [Work.runOn_bind, Work.runOn_modify, Work.runOn_andThenAlways] at hok
    rcases hrun : w.runOn { s with splices := [] } with ⟨answer, s''⟩
    rw [hrun] at hok
    cases hok
    have hfirst : Runs inSection hosts s { s with splices := [] } := (Run.aside _ _).runs
    have hlast : Runs inSection hosts s'' { s'' with splices := s.splices } :=
      (Run.aside _ _).runs
    exact IsTrans.trans _ _ _ (IsTrans.trans _ _ _ hfirst (h.keeps hrun)) hlast

instance (e : Nat) (name : Text) (types : List (Option TypeId)) :
    Leads (Runs inSection hosts) (take? e name types) := by
  unfold take?
  infer_instance

instance (e : Nat) (name otherwise : Text) (types : List (Option TypeId)) :
    Leads (Runs inSection hosts) (takeDefault e name otherwise types) := by
  unfold takeDefault
  infer_instance

instance (e : Nat) (name : Text) (types : List (Option TypeId)) :
    Leads (Runs inSection hosts) (takeRequired e name types) := by
  unfold takeRequired
  infer_instance

instance (e : Nat) (value : Text) (types : List (Option TypeId)) :
    Leads (Runs inSection hosts) (readValue e value types) := by
  unfold readValue
  infer_instance

/-! ## Work that reaches something -/

/-- Where the work succeeds, it is a run, and something holds when it is over. -/
structure Attains (inSection : Bool) (hosts : List FieldId) (Q : Session → Prop)
    (w : Work Session α) : Prop where
  attains : ∀ {s a s'}, s.Ready inSection hosts → w.runOn s = (.ok a, s') → Run s s' ∧ Q s'

/-- What holds at some time of a run holds from then on. -/
class Persisting (Q : Session → Prop) : Prop where
  lasts : ∀ {s s'}, Run s s' → Q s → Q s'

variable {Q : Session → Prop}

theorem Attains.keeps {w : Work Session α} (h : Attains inSection hosts Q w) :
    Keeps (Runs inSection hosts) w :=
  ⟨fun hok hready => (h.attains hready hok).1⟩

theorem attains_nothing {w : Work Session α} (h : Keeps (Runs inSection hosts) w) :
    Attains inSection hosts (fun _ => True) w :=
  ⟨fun hready hok => ⟨h.keeps hok hready, trivial⟩⟩

/-- Where the work succeeds, it gives an answer like this. -/
def Gives (P : α → Prop) (w : Work Session α) : Prop :=
  ∀ {s a s'}, w.runOn s = (.ok a, s') → P a

theorem Attains.given {P : α → Prop} {w : Work Session α} {k : α → Work Session β}
    (hw : Keeps (Runs inSection hosts) w) (hgives : Gives P w)
    (hk : ∀ a, P a → Attains inSection hosts Q (k a)) : Attains inSection hosts Q (w >>= k) := by
  refine ⟨fun {s b s''} hready h => ?_⟩
  obtain ⟨a, s', hfirst, hrest⟩ := Work.bind_ok h
  have hrun := hw.keeps hfirst hready
  obtain ⟨hlater, hQ⟩ := (hk a (hgives hfirst)).attains (hrun.ready hready) hrest
  exact ⟨hrun.trans hlater, hQ⟩

theorem Attains.after {w : Work Session α} {k : α → Work Session β}
    (hw : Keeps (Runs inSection hosts) w) (hk : ∀ a, Attains inSection hosts Q (k a)) :
    Attains inSection hosts Q (w >>= k) :=
  Attains.given (P := fun _ => True) hw (fun _ => trivial) fun a _ => hk a

theorem Attains.before [hlasting : Persisting Q] {w : Work Session α} {k : α → Work Session β}
    (hw : Attains inSection hosts Q w) (hk : ∀ a, Keeps (Runs inSection hosts) (k a)) :
    Attains inSection hosts Q (w >>= k) := by
  refine ⟨fun {s b s''} hready h => ?_⟩
  obtain ⟨a, s', hfirst, hrest⟩ := Work.bind_ok h
  obtain ⟨hrun, hQ⟩ := hw.attains hready hfirst
  have hlater := (hk a).keeps hrest (hrun.ready hready)
  exact ⟨hrun.trans hlater, hlasting.lasts hlater hQ⟩

theorem Attains.imp {Q' : Session → Prop} {w : Work Session α} (h : Attains inSection hosts Q w)
    (hQ : ∀ s, Q s → Q' s) : Attains inSection hosts Q' w :=
  ⟨fun hready hok => (h.attains hready hok).imp_right (hQ _)⟩

/-- Work that fails promises anything. -/
theorem attains_failOn (e : Nat) (p : Document → Problem) :
    Attains inSection hosts Q (failOn e p : Work Session α) :=
  ⟨fun _ h => by cases h⟩

/-! ## Settling fields -/

/-- The field is there, and settled. -/
def IsSettled (id : FieldId) (s : Session) : Prop := id < s.fields.fields.size ∧ s.Settled id

instance (id : FieldId) : Persisting (IsSettled id) where
  lasts h hs := ⟨Nat.lt_of_lt_of_le hs.1 h.fields.extends.size, h.settled hs.1 hs.2⟩

/-- The field is there, and the owner is not asked for it. -/
def IsUnasked (id : FieldId) (s : Session) : Prop := id < s.fields.fields.size ∧ s.Unasked id

instance (id : FieldId) : Persisting (IsUnasked id) where
  lasts h hs := ⟨Nat.lt_of_lt_of_le hs.1 h.fields.extends.size, h.unasked hs.1 hs.2⟩

/-- Fields of these classes are never asked of the owner. -/
def ownClasses : List Precedence := [.stamper, .domId, .style, .bundle]

/-- The work settles a field of the table. -/
abbrev Settles (inSection : Bool) (hosts : List FieldId) (id : FieldId) (w : Work Session α) :
    Prop := Attains inSection (id :: hosts) (IsSettled id) w

theorem setInitializer_ok {id : FieldId} {expr : Text} {s s' : Session} {a : Unit}
    (h : (liftM (Draft.setInitializer id expr) : Work Session Unit).runOn s = (.ok a, s')) :
    (s.fields.field id).initializer = none ∧
      s' = { s with fields := s.fields.change id ({ · with initializer := some expr }) } := by
  obtain ⟨d, hd, rfl⟩ := lift_ok h
  obtain ⟨hnone, rfl⟩ := Draft.setInitializer_ok hd
  exact ⟨hnone, rfl⟩

theorem keeps_make {expr : Text} (h : expr.IsClosed) (id : FieldId) :
    Keeps (Runs inSection hosts)
      (liftM (Draft.setInitializer id expr) : Work Session Unit) where
  keeps hok := by
    obtain ⟨hnone, rfl⟩ := setInitializer_ok hok
    exact (Run.make hnone (Or.inl h)).runs

theorem isSettled_make {id : FieldId} {s : Session} (hid : id < s.fields.fields.size)
    (expr : Text) : IsSettled id
      { s with fields := s.fields.change id ({ · with initializer := some expr }) } := by
  refine ⟨by simpa using hid, Or.inl ?_⟩
  rw [FieldTable.field_change_self hid]
  rfl

theorem settles_make {expr : Text} (h : expr.IsClosed) (id : FieldId) :
    Settles inSection hosts id (liftM (Draft.setInitializer id expr) : Work Session Unit) := by
  refine ⟨fun {s a s'} hready hok => ⟨(keeps_make h id).keeps hok hready, ?_⟩⟩
  obtain ⟨-, rfl⟩ := setInitializer_ok hok
  exact isSettled_make (hready.hosted id List.mem_cons_self) expr

/-- A field is made unless that was done before. -/
theorem settles_unlessMade {id : FieldId} {w v : Work Session α}
    (hw : Settles inSection hosts id w) (hv : Keeps (Runs inSection (id :: hosts)) v) :
    Settles inSection hosts id (do if !(← isMade id) then w else v) := by
  refine ⟨fun {s a s'} hready hok => ?_⟩
  obtain ⟨made, s'', hmade, hrest⟩ := Work.bind_ok hok
  cases hmade
  simp only at hrest
  split at hrest
  · exact hw.attains hready hrest
  · rename_i hold
    have hrun := hv.keeps hrest hready
    have hid := hready.hosted id List.mem_cons_self
    refine ⟨hrun, Persisting.lasts hrun ⟨hid, Or.inl ?_⟩⟩
    simpa [Option.isSome_iff_ne_none] using hold

/-! ## Declarations -/

theorem ready_registered {precedence : Precedence} {type : Option TypeId} {name : Text}
    {id : FieldId} {fields : FieldTable} {s : Session} (hready : s.Ready inSection hosts)
    (h : s.fields.register s.catalog precedence type name = .ok (id, fields)) :
    ({ s with fields } : Session).Ready inSection (id :: hosts) := by
  obtain ⟨hid, hsize⟩ := FieldTable.size_register h
  refine ⟨hready.isOpen, List.forall_mem_cons.mpr ⟨?_, fun f hf => ?_⟩⟩
  · exact hid ▸ hsize ▸ Nat.lt_succ_self _
  · exact hsize ▸ Nat.lt_succ_of_lt (hready.hosted f hf)

/-- A field of that class is not asked of the owner, or comes to be one that is not. -/
def SparesOwner (inSection : Bool) (hosts : List FieldId) (precedence : Precedence) (id : FieldId)
    (w : Work Session α) : Prop :=
  precedence ∈ ownClasses ∨ Attains inSection (id :: hosts) (IsUnasked id) w

/-- A field that is settled once it was declared. -/
theorem attains_registered {precedence : Precedence} {type : Option TypeId} {name : Text}
    {id : FieldId} {fields : FieldTable} {w : Work Session α} {s s' : Session} {a : α}
    (h : Settles inSection hosts id w) (hspares : SparesOwner inSection hosts precedence id w)
    (hQ : Attains inSection (id :: hosts) Q w) (hready : s.Ready inSection hosts)
    (hregister : s.fields.register s.catalog precedence type name = .ok (id, fields))
    (hok : w.runOn { s with fields } = (.ok a, s')) : Run s s' ∧ Q s' := by
  have hready' := ready_registered hready hregister
  obtain ⟨hrun, hsettled⟩ := h.attains hready' hok
  have hunasked : s'.Unasked id := by
    rcases hspares with hown | hspares
    · obtain ⟨-, needs, hfield⟩ := FieldTable.field_register hregister
      have hclass : (fields.field id).precedence = precedence := congrArg Field.precedence hfield
      have hkept := hrun.fields.extends.field id (hready'.hosted id List.mem_cons_self)
      exact Or.inl (by rw [hkept.precedence, hclass]; exact hown)
    · exact (hspares.attains hready' hok).2.2
  exact ⟨Run.declare hregister hrun hsettled.2 (Or.inr hunasked), (hQ.attains hready' hok).2⟩

theorem register_ok {precedence : Precedence} {type : Option TypeId} {name : Text} {id : FieldId}
    {s s' : Session}
    (h : (liftM (Draft.register precedence type name) : Work Session FieldId).runOn s =
      (.ok id, s')) :
    ∃ fields, s.fields.register s.catalog precedence type name = .ok (id, fields) ∧
      s' = { s with fields } := by
  obtain ⟨d, hd, rfl⟩ := lift_ok h
  unfold Draft.register at hd
  rw [Draft.runOn_changeFields] at hd
  split at hd
  · rename_i id' fields hregister
    cases hd
    exact ⟨fields, hregister, rfl⟩
  · cases hd

theorem declare_ok {precedence : Precedence} {type : Option TypeId} {name : Text} {id : FieldId}
    {w : Work Session α} {s s' s'' : Session} {a : α} (h : Settles inSection hosts id w)
    (hspares : SparesOwner inSection hosts precedence id w)
    (hQ : Attains inSection (id :: hosts) Q w) (hready : s.Ready inSection hosts)
    (hdeclare : (liftM (Draft.register precedence type name) : Work Session FieldId).runOn s =
      (.ok id, s'))
    (hok : w.runOn s' = (.ok a, s'')) : Run s s'' ∧ Q s'' := by
  obtain ⟨fields, hregister, rfl⟩ := register_ok hdeclare
  exact attains_registered h hspares hQ hready hregister hok

/-- A field that is settled by what follows its declaration. -/
theorem attains_declare {precedence : Precedence} {type : Option TypeId} {name : Text}
    {k : FieldId → Work Session α} (h : ∀ id, Settles inSection hosts id (k id))
    (hspares : ∀ id, SparesOwner inSection hosts precedence id (k id))
    (hQ : ∀ id, Attains inSection (id :: hosts) Q (k id)) :
    Attains inSection hosts Q (liftM (Draft.register precedence type name) >>= k) where
  attains {s a s''} hready hok := by
    obtain ⟨id, s', hfirst, hrest⟩ := Work.bind_ok hok
    exact declare_ok (h id) (hspares id) (hQ id) hready hfirst hrest

theorem keeps_declare {precedence : Precedence} {type : Option TypeId} {name : Text}
    {k : FieldId → Work Session α} (h : ∀ id, Settles inSection hosts id (k id))
    (hspares : ∀ id, SparesOwner inSection hosts precedence id (k id)) :
    Keeps (Runs inSection hosts) (liftM (Draft.register precedence type name) >>= k) :=
  (attains_declare h hspares fun id => attains_nothing (h id).keeps).keeps

/-! ## Names that are read -/

/-- A line shows the name. The local of the messages counts as read whatever becomes of it. -/
def IsPlaced (name : Text) (s : Session) : Prop := s.Shown name ∨ name = messagesName

instance (name : Text) : Persisting (IsPlaced name) where
  lasts h hs := hs.imp_left h.shown

/-- The work places the name in a line. -/
abbrev Places (inSection : Bool) (hosts : List FieldId) (name : Text) (w : Work Session α) :
    Prop := Attains inSection hosts (IsPlaced name) w

theorem places_messages {w : Work Session α} (h : Keeps (Runs inSection hosts) w) :
    Places inSection hosts messagesName w :=
  ⟨fun hready hok => ⟨h.keeps hok hready, Or.inr rfl⟩⟩

/-- Where the work succeeds, it is a run after which a field is marked as read, and it gives the
name of the field. -/
structure Reads (inSection : Bool) (hosts : List FieldId) (P : Text → Prop)
    (w : Work Session Text) : Prop where
  reads : ∀ {s name s'}, s.Ready inSection hosts → w.runOn s = (.ok name, s') →
    ∃ s₁ f, Run s s₁ ∧ P name ∧ name = (s₁.fields.field f).name ∧
      s' = { s₁ with fields := s₁.fields.change f ({ · with used := true }) }

variable {P : Text → Prop}

/-- A name that is read is placed by what follows. -/
theorem attains_read {w : Work Session Text} {k : Text → Work Session α}
    (hw : Reads inSection hosts P w) (hk : ∀ name, P name → Attains inSection hosts Q (k name))
    (hplaces : ∀ name, P name → Places inSection hosts name (k name)) :
    Attains inSection hosts Q (w >>= k) where
  attains {s a s''} hready hok := by
    obtain ⟨name, s', hfirst, hrest⟩ := Work.bind_ok hok
    obtain ⟨s₁, f, hrun, hP, rfl, rfl⟩ := hw.reads hready hfirst
    have hready₁ := hrun.ready hready
    have hready' : ({ s₁ with fields := s₁.fields.change f ({ · with used := true }) } :
        Session).Ready inSection hosts := by
      refine ⟨hready₁.isOpen, fun g hg => ?_⟩
      rw [FieldTable.size_change]
      exact hready₁.hosted g hg
    obtain ⟨hlater, hplaced⟩ := (hplaces _ hP).attains hready' hrest
    exact ⟨hrun.trans (Run.use hlater hplaced), ((hk _ hP).attains hready' hrest).2⟩

theorem keeps_read {w : Work Session Text} {k : Text → Work Session α}
    (hw : Reads inSection hosts P w)
    (hplaces : ∀ name, P name → Places inSection hosts name (k name)) :
    Keeps (Runs inSection hosts) (w >>= k) :=
  (attains_read hw (fun name hP => attains_nothing (hplaces name hP).keeps) hplaces).keeps

theorem use_ok {f : FieldId} {name : Text} {s s' : Session}
    (h : (liftM (Draft.use f) : Work Session Text).runOn s = (.ok name, s')) :
    name = (s.fields.field f).name ∧
      s' = { s with fields := s.fields.change f ({ · with used := true }) } := by
  cases h
  exact ⟨s.fields.field_change_apply f f ({ · with used := true }) (·.name) fun _ => rfl, rfl⟩

theorem reads_use (f : FieldId) :
    Reads inSection hosts (fun _ => True) (liftM (Draft.use f)) where
  reads {s name s'} _ hok := by
    obtain ⟨rfl, rfl⟩ := use_ok hok
    exact ⟨s, f, Run.refl s, trivial, rfl, rfl⟩

theorem attains_use {f : FieldId} {k : Text → Work Session α}
    (hk : ∀ name, Attains inSection hosts Q (k name))
    (hplaces : ∀ name, Places inSection hosts name (k name)) :
    Attains inSection hosts Q (liftM (Draft.use f) >>= k) :=
  attains_read (reads_use f) (fun name _ => hk name) fun name _ => hplaces name

theorem keeps_use {f : FieldId} {k : Text → Work Session α}
    (h : ∀ name, Places inSection hosts name (k name)) :
    Keeps (Runs inSection hosts) (liftM (Draft.use f) >>= k) :=
  keeps_read (reads_use f) fun name _ => h name

theorem Reads.after {w : Work Session α} {k : α → Work Session Text}
    (hw : Keeps (Runs inSection hosts) w) (hk : ∀ a, Reads inSection hosts P (k a)) :
    Reads inSection hosts P (w >>= k) where
  reads {s name s''} hready hok := by
    obtain ⟨a, s', hfirst, hrest⟩ := Work.bind_ok hok
    have hrun := hw.keeps hfirst hready
    obtain ⟨s₁, f, hlater, hread⟩ := (hk a).reads (hrun.ready hready) hrest
    exact ⟨s₁, f, hrun.trans hlater, hread⟩

/-- A field that is declared, settled and read. -/
theorem reads_declare {precedence : Precedence} {type : Option TypeId} {name : Text}
    {w : FieldId → Work Session Unit} (h : ∀ id, Settles inSection hosts id (w id))
    (hown : precedence ∈ ownClasses) :
    Reads inSection hosts (fun _ => True) (do
      let f ← Draft.register precedence type name
      w f
      Draft.use f) where
  reads {s _ s''} hready hok := by
    obtain ⟨id, s', hfirst, hrest⟩ := Work.bind_ok hok
    obtain ⟨_, s₁, hsettle, huse⟩ := Work.bind_ok hrest
    obtain ⟨rfl, rfl⟩ := use_ok huse
    have hrun := declare_ok (h id) (Or.inl hown) (attains_nothing (h id).keeps) hready hfirst
      hsettle
    exact ⟨s₁, id, hrun.1, trivial, rfl, rfl⟩

/-- A call shows its arguments. -/
theorem places_call {f : FieldId} {method name : Text} {args : List Text} (hf : f ∈ hosts)
    (hname : name ∈ args) : Places inSection hosts name (call f method args) where
  attains {s a s'} hready hok := by
    rw [runOn_call] at hok
    cases hok
    have hid := hready.hosted f hf
    refine ⟨Run.call f _, Or.inl ⟨(s.fields.field f).name ++ "." ++
      (method ++ "(" ++ Text.join ", " args ++ ")"), Or.inl ⟨f, ?_, Or.inr ?_⟩, ?_⟩⟩
    · simpa using hid
    · rw [FieldTable.field_change_self hid]
      exact List.mem_append_right _ List.mem_cons_self
    · have hshows := Text.shows_call ((s.fields.field f).name ++ "." ++ method) hname
      simpa only [List.append_assoc] using hshows

/-- A statement that begins with the name of its field and shows another name. -/
theorem places_statement {f : FieldId} {name : Text} {statement : Text → Text} (hf : f ∈ hosts)
    (h : ∀ host, ∃ rest, statement host = host ++ "." ++ rest)
    (hshows : ∀ host, Text.Shows name (statement host)) {k : Text → Unit → Work Session α}
    (hk : ∀ host a, Keeps (Runs inSection hosts) (k host a)) :
    Places inSection hosts name (nameOf f >>= fun host =>
      liftM (Draft.addStatement f (statement host)) >>= k host) where
  attains {s a s'} hready hok := by
    refine ⟨(keeps_statement h hk).keeps hok hready, ?_⟩
    obtain ⟨host, s₁, hname, hok⟩ := Work.bind_ok hok
    cases hname
    obtain ⟨_, s₂, hadd, hrest⟩ := Work.bind_ok hok
    cases hadd
    have hid := hready.hosted f hf
    obtain ⟨rest, hstatement⟩ := h (s.fields.field f).name
    have hcall := Run.call f rest (s := s)
    rw [← hstatement] at hcall
    refine Persisting.lasts ((hk _ _).keeps hrest (hcall.ready hready)) (Or.inl ?_)
    refine ⟨statement (s.fields.field f).name, Or.inl ⟨f, by simpa using hid, Or.inr ?_⟩,
      hshows _⟩
    rw [FieldTable.field_change_self hid]
    exact List.mem_append_right _ List.mem_cons_self

theorem places_attached {name statement : Text} (h : Text.Shows name statement) :
    Places true hosts name (addAttached statement) where
  attains {s a s'} hready hok := by
    cases hok
    refine ⟨Run.addAttached statement, Or.inl ⟨statement, Or.inr ?_, h⟩⟩
    exact Sections.holds_add (hready.isOpen rfl) statement

theorem places_make {f : FieldId} {name expr : Text} (hf : f ∈ hosts) (hexpr : expr.IsClosed)
    (h : Text.Shows name expr) :
    Places inSection hosts name (liftM (Draft.setInitializer f expr) : Work Session Unit) where
  attains {s a s'} hready hok := by
    refine ⟨(keeps_make hexpr f).keeps hok hready, Or.inl ?_⟩
    obtain ⟨-, rfl⟩ := setInitializer_ok hok
    have hid := hready.hosted f hf
    refine ⟨(s.fields.field f).name ++ " = " ++ expr, Or.inl ⟨f, by simpa using hid, Or.inl ?_⟩,
      h.assigned _⟩
    rw [FieldTable.field_change_self hid]
    exact ⟨expr, rfl, rfl⟩

/-- The field that is read is an argument of a call. -/
theorem keeps_useCall {g f : FieldId} {method : Text} {args : Text → List Text}
    (h : ∀ name, name ∈ args name) {k : Text → Unit → Work Session α}
    (hk : ∀ name a, Keeps (Runs inSection (f :: hosts)) (k name a)) :
    Keeps (Runs inSection (f :: hosts))
      (liftM (Draft.use g) >>= fun name => call f method (args name) >>= k name) :=
  keeps_use fun name => (places_call List.mem_cons_self (h name)).before fun a => hk name a

/-- Two fields are read by one call. -/
theorem keeps_useBoth {g g' f : FieldId} {method : Text} {args : Text → Text → List Text}
    (h : ∀ name name', name ∈ args name name') (h' : ∀ name name', name' ∈ args name name')
    {k : Text → Text → Unit → Work Session α}
    (hk : ∀ name name' a, Keeps (Runs inSection (f :: hosts)) (k name name' a)) :
    Keeps (Runs inSection (f :: hosts)) (liftM (Draft.use g) >>= fun name =>
      liftM (Draft.use g') >>= fun name' => call f method (args name name') >>= k name name') := by
  refine keeps_use fun name => attains_use (fun name' => ?_) fun name' => ?_
  · exact (places_call List.mem_cons_self (h name name')).before fun a => hk name name' a
  · exact (places_call List.mem_cons_self (h' name name')).before fun a => hk name name' a

instance {g f : FieldId} {method : Text} {rest : Text → List Text} :
    Keeps (Runs inSection (f :: hosts))
      (liftM (Draft.use g) >>= fun name => call f method (name :: rest name)) :=
  keeps_use fun _ => places_call List.mem_cons_self List.mem_cons_self

instance {g f : FieldId} {method : Text} {rest : Text → List Text}
    {k : Text → Unit → Work Session α}
    [hk : ∀ name a, Keeps (Runs inSection (f :: hosts)) (k name a)] :
    Keeps (Runs inSection (f :: hosts))
      (liftM (Draft.use g) >>= fun name => call f method (name :: rest name) >>= k name) :=
  keeps_useCall (fun _ => List.mem_cons_self) hk

/-! ## Locals made when they are first asked for -/

theorem run_depend (s : Session) (name : Text) :
    Run s { s with fields := s.fields.depend name } := by
  unfold FieldTable.depend
  split
  · exact Run.draft (Draft.Calm.need _ name)
  · exact Run.refl s

/-- A field that may be there already: it has the name that was asked for. -/
theorem require_ok {precedence : Precedence} {type : Option TypeId} {name : Text}
    {w : FieldId → Work Session α} {id : FieldId} {s s' s'' : Session} {a : α}
    (h : ∀ id, Settles inSection hosts id (w id)) (hown : precedence ∈ ownClasses)
    (hready : s.Ready inSection hosts)
    (hrequire : (liftM (Draft.require precedence type name) : Work Session FieldId).runOn s =
      (.ok id, s'))
    (hok : (w id).runOn s' = (.ok a, s'')) :
    Run s s'' ∧ (s''.fields.field id).name = Text.sanitize name := by
  obtain ⟨d, hd, rfl⟩ := lift_ok hrequire
  unfold Draft.require at hd
  rw [Draft.runOn_changeFields] at hd
  split at hd
  · rename_i id' fields hfound
    cases hd
    unfold FieldTable.require at hfound
    split at hfound
    · rename_i old hold
      simp only at hfound
      split at hfound
      · cases hfound
      · cases hfound
        obtain ⟨hid, hname⟩ := FieldTable.byName?_eq_some hold
        have hneed := run_depend s (s.fields.field id).name
        obtain ⟨hrun, -⟩ := (h id).attains (hneed.ready (hready.host hid)) hok
        have hwhole := hneed.trans hrun
        exact ⟨hwhole, (hwhole.fields.extends.field id hid).name.trans hname⟩
    · have hrun := attains_registered (h id) (Or.inl hown) (attains_nothing (h id).keeps) hready
        hfound hok
      obtain ⟨-, needs, hfield⟩ := FieldTable.field_register hfound
      obtain ⟨rfl, hsize⟩ := FieldTable.size_register hfound
      have hlater := ((h _).attains (ready_registered hready hfound) hok).1
      refine ⟨hrun.1, (hlater.fields.extends.field _ ?_).name.trans ?_⟩
      · exact hsize ▸ Nat.lt_succ_self _
      · exact congrArg Field.name hfield
  · cases hd

theorem isClosed_call (function args : Text) : Text.IsClosed (function ++ "(" ++ args ++ ")") :=
  ⟨function ++ "(" ++ args, Or.inl rfl⟩

theorem isClosed_noArguments (function : Text) : Text.IsClosed (function ++ "()") := by
  have h := isClosed_call function []
  rwa [List.append_nil, List.append_assoc] at h

theorem isClosed_object (name : Text) : Text.IsClosed ("&" ++ name ++ "\x7b\x7d") := by
  have hsplit : Text.ofString "\x7b\x7d" = Text.ofString "\x7b" ++ Text.ofString "\x7d" := rfl
  refine ⟨"&" ++ name ++ "\x7b", Or.inr ?_⟩
  rw [hsplit, ← List.append_assoc]

/-- The field of a bundle is made when it is first asked for, and read. -/
theorem reads_bundleField {type : Option TypeId} {name initializer : Text}
    (hclosed : initializer.IsClosed) :
    Reads inSection hosts (· = Text.sanitize name) (bundleField type name initializer) where
  reads {s n s''} hready hok := by
    have hmake : ∀ f, Settles inSection hosts f
        (do if !(← isMade f) then Draft.setInitializer f initializer else pure ()) := fun f =>
      settles_unlessMade (settles_make hclosed f) inferInstance
    unfold bundleField at hok
    obtain ⟨id, s', hrequire, hrest⟩ := Work.bind_ok hok
    obtain ⟨made, s₁, hmade, hrest⟩ := Work.bind_ok hrest
    -- the field is made or was made before; in either case it is read after that
    have hsteps : ∃ s₂, (if !made then Draft.setInitializer id initializer else pure () :
        Work Session Unit).runOn s₁ = (.ok (), s₂) ∧
        (liftM (Draft.use id) : Work Session Text).runOn s₂ = (.ok n, s'') := by
      dsimp only at hrest
      split at hrest
      · rename_i hnone
        obtain ⟨_, s₂, hset, huse⟩ := Work.bind_ok hrest
        exact ⟨s₂, by rw [if_pos hnone]; exact hset, huse⟩
      · rename_i hold
        exact ⟨s₁, by rw [if_neg hold]; rfl, hrest⟩
    obtain ⟨s₂, hset, huse⟩ := hsteps
    have hsettle : (do if !(← isMade id) then Draft.setInitializer id initializer else pure () :
        Work Session Unit).runOn s' = (.ok (), s₂) := by
      rw [Work.runOn_bind, hmade]
      exact hset
    obtain ⟨hrun, hname⟩ := require_ok hmake (by decide) hready hrequire hsettle
    obtain ⟨rfl, rfl⟩ := use_ok huse
    exact ⟨s₂, id, hrun, hname, rfl, rfl⟩

/-- The resource bundle is read by what follows. -/
theorem reads_resourceBundle : Reads inSection hosts (· = bundleName) resourceBundle where
  reads hready hok := by
    obtain ⟨b, _, hget, hrest⟩ := Work.bind_ok hok
    cases hget
    have hname : Text.sanitize "uibindBundle" = bundleName := by decide
    exact hname ▸ (reads_bundleField (isClosed_object _)).reads hready hrest

/-- Nothing is asked of the local of the messages but that it is there. -/
instance (place : Option Location) (m : Message) :
    Keeps (Runs inSection hosts) (declareMessage place m) := by
  unfold declareMessage
  refine Keeps.bind' inferInstance fun method => Keeps.bind' inferInstance fun s => ?_
  refine keeps_read (reads_bundleField (isClosed_object _)) ?_
  rintro name rfl
  have hname : Text.sanitize "uibindMessages" = messagesName := by decide
  rw [hname]
  exact places_messages inferInstance

/-- The field that holds an element id is read by what follows. -/
theorem reads_declareId : Reads inSection hosts (fun _ => True) declareId := by
  unfold declareId
  refine Reads.after inferInstance fun _ => Reads.after inferInstance fun type => ?_
  refine Reads.after inferInstance fun s => ?_
  have hmake : ∀ id, Settles inSection hosts id (do
      let function ← uiFunction "CreateUniqueID"
      Draft.setInitializer id (function ++ "()")) := fun id =>
    Attains.after inferInstance fun function => settles_make (isClosed_noArguments function) id
  have hread : Reads inSection hosts (fun _ => True) (do
      let f ← Draft.register .domId type ("domId" ++ Text.ofNat s.ids)
      Draft.setInitializer f ((← uiFunction "CreateUniqueID") ++ "()")
      Draft.use f) := by
    simpa only [bind_assoc] using reads_declare hmake (by decide)
  exact hread

end ViewBinder.Session
