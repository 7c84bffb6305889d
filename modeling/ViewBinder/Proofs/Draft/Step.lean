-- What can happen to a draft. Each step changes one part of it. Most work on a draft is calm: however
-- it ends, no field was declared, made, called or marked, and no resource was declared.
import ViewBinder.Attribute.Parser
import ViewBinder.Field.Reference
import ViewBinder.Message.Declare
import ViewBinder.Proofs.Catalog.Lookup
import ViewBinder.Proofs.Field.Step
import ViewBinder.Proofs.Work
import ViewBinder.Resource.Declare

namespace ViewBinder.Draft

open Markup (Document)
open Work (Leads)

/-- What can happen to a draft, but for the declaration of fields. -/
inductive Step (d : Draft) : Draft → Prop
  | document (document : Document) : Step d { d with document }
  | log (log : Log) : Step d { d with log }
  | bundle (bundle : Bundle) : Step d { d with bundle }
  | messages (messages : Messages) : Step d { d with messages }
  | import (path preferred : Text) :
      Step d { d with imports := (d.imports.add path preferred).2 }
  | addType (t : TypeDecl) : Step d { d with catalog := (d.catalog.push t).2 }
  | setMethods (t : TypeId) (f : List Method → List Method) :
      Step d { d with catalog :=
        d.catalog.change t fun decl => { decl with methods := f decl.methods } }
  | adopt (t : TypeId) (catalog : Catalog) :
      d.catalog.adopt t = .ok catalog → Step d { d with catalog }
  | mark (source : Text) (place : Option Location) (value : Text) :
      Step d { d with markers := (d.markers.add source place (.known value)).2 }
  | refer (e : Nat) (path : Text) (types : List (Option TypeId)) :
      Step d ((Draft.refer e path types).runOn d).2
  | change (id : FieldId) (g : Field → Field) :
      Field.Change (d.fields.field id) (g (d.fields.field id)) →
      Step d { d with fields := d.fields.change id g }
  | stack (frames : List Frame) : Step d { d with fields := { d.fields with stack := frames } }
  | counter (n : Nat) : Step d { d with fields := { d.fields with counter := n } }

/-- Any number of steps. -/
def Run : Draft → Draft → Prop := Relation.ReflTransGen Step

theorem Step.run {d d' : Draft} (h : Step d d') : Run d d' := Relation.ReflTransGen.single h

instance : Std.Refl Run := ⟨fun _ => Relation.ReflTransGen.refl⟩

instance : IsTrans Draft Run := ⟨fun _ _ _ => Relation.ReflTransGen.trans⟩

theorem Step.fields {d d' : Draft} (h : Step d d') :
    FieldTable.Run d.fields d'.fields := by
  cases h with
  | refer e path types => exact FieldTable.run_addReference _ _
  | change id g hg => exact (FieldTable.Step.change id g hg).run
  | stack frames => exact (FieldTable.Step.stack frames).run
  | counter n => exact (FieldTable.Step.counter n).run
  | _ => exact FieldTable.Run.refl _

theorem Step.size {d d' : Draft} (h : Step d d') :
    d'.fields.fields.size = d.fields.fields.size := by
  cases h with
  | refer e path types => exact FieldTable.size_depend _ _
  | change id g _ => exact FieldTable.size_change _ _ _
  | _ => rfl

theorem Step.catalog {d d' : Draft} (h : Step d d') : d.catalog.Extends d'.catalog := by
  cases h with
  | addType t => exact Catalog.extends_push _ _
  | setMethods t f => exact Catalog.extends_changeMethods _ t f
  | adopt t catalog h => exact Catalog.extends_adopt h
  | _ => exact Std.Refl.refl _

theorem Step.imports {d d' : Draft} (h : Step d d') :
    d'.imports = d.imports ∨ ∃ path preferred, d'.imports = (d.imports.add path preferred).2 := by
  cases h with
  | «import» path preferred => exact Or.inr ⟨path, preferred, rfl⟩
  | _ => exact Or.inl rfl

theorem Run.catalog {d d' : Draft} (h : Run d d') : d.catalog.Extends d'.catalog := by
  induction h with
  | refl => exact Std.Refl.refl _
  | tail _ hstep ih => exact IsTrans.trans _ _ _ ih hstep.catalog

/-! ## Calm work -/

/-- A step that declares and makes no field, says nothing of its use, and declares no resource. -/
inductive Calm (d : Draft) : Draft → Prop
  | document (document : Document) : Calm d { d with document }
  | log (log : Log) : Calm d { d with log }
  | messages (declared : List Message) :
      Calm d { d with messages := { d.messages with declared } }
  | import (path preferred : Text) :
      Calm d { d with imports := (d.imports.add path preferred).2 }
  | addType (t : TypeDecl) : Calm d { d with catalog := (d.catalog.push t).2 }
  | setMethods (t : TypeId) (f : List Method → List Method) :
      d.bundle.type = some t ∨ d.messages.type = some t →
      Calm d { d with catalog :=
        d.catalog.change t fun decl => { decl with methods := f decl.methods } }
  | adopt (t : TypeId) (catalog : Catalog) :
      d.catalog.adopt t = .ok catalog → Calm d { d with catalog }
  | mark (source : Text) (place : Option Location) (value : Text) :
      Calm d { d with markers := (d.markers.add source place (.known value)).2 }
  | refer (e : Nat) (path : Text) (types : List (Option TypeId)) :
      Calm d ((Draft.refer e path types).runOn d).2
  | need (id : FieldId) (other : Text) :
      Calm d { d with fields := d.fields.change id (·.withNeed other) }
  | stack (frames : List Frame) : Calm d { d with fields := { d.fields with stack := frames } }
  | counter (n : Nat) : Calm d { d with fields := { d.fields with counter := n } }

theorem Calm.step {d d' : Draft} (h : Calm d d') : Step d d' := by
  cases h with
  | document document => exact .document document
  | log log => exact .log log
  | messages declared => exact .messages _
  | «import» path preferred => exact .import path preferred
  | addType t => exact .addType t
  | setMethods t f _ => exact .setMethods t f
  | adopt t catalog h => exact .adopt t catalog h
  | mark source place value => exact .mark source place value
  | refer e path types => exact .refer e path types
  | need id other => exact .change id _ (.need other)
  | stack frames => exact .stack frames
  | counter n => exact .counter n

/-- A calm step changes nothing about a field but what it needs. -/
theorem Calm.idle {d d' : Draft} (h : Calm d d') (id : FieldId) :
    ∃ needs, d'.fields.field id = { d.fields.field id with needs } := by
  have hneed : ∀ other name, ∃ needs,
      (d.fields.change other (·.withNeed name)).field id = { d.fields.field id with needs } := by
    intro other name
    rw [FieldTable.field_change]
    split
    · unfold Field.withNeed
      split
      · exact ⟨_, rfl⟩
      · exact ⟨_, rfl⟩
    · exact ⟨_, rfl⟩
  cases h with
  | need other name => exact hneed other name
  | refer e path types =>
    show ∃ needs, (d.fields.addReference _).field id = { d.fields.field id with needs }
    unfold FieldTable.addReference FieldTable.depend
    split
    · exact hneed _ _
    · exact ⟨_, rfl⟩
  | _ => exact ⟨_, rfl⟩

theorem Calm.bundle {d d' : Draft} (h : Calm d d') : d'.bundle = d.bundle := by
  cases h <;> rfl

/-- Types stay as they are, but for those of the bundle and of the messages. -/
structure TypesStay (d d' : Draft) : Prop where
  size : d.catalog.types.size ≤ d'.catalog.types.size
  bundle : d'.bundle.type = d.bundle.type
  messages : d'.messages.type = d.messages.type
  decl : ∀ t < d.catalog.types.size, d.bundle.type ≠ some t → d.messages.type ≠ some t →
    d'.catalog.decl t = d.catalog.decl t

instance : Std.Refl TypesStay := ⟨fun _ => ⟨Nat.le_refl _, rfl, rfl, fun _ _ _ _ => rfl⟩⟩

instance : IsTrans Draft TypesStay where
  trans d d' d'' h h' := by
    refine ⟨Nat.le_trans h.size h'.size, h'.bundle.trans h.bundle, h'.messages.trans h.messages, ?_⟩
    intro t ht hbundle hmessages
    rw [h'.decl t (Nat.lt_of_lt_of_le ht h.size) (h.bundle ▸ hbundle) (h.messages ▸ hmessages)]
    exact h.decl t ht hbundle hmessages

theorem typesStay_push (d : Draft) (decl : TypeDecl) :
    TypesStay d { d with catalog := (d.catalog.push decl).2 } where
  size := Nat.le_trans (Nat.le_succ _) (Nat.le_of_eq (Catalog.size_push _ _).symm)
  bundle := rfl
  messages := rfl
  decl _ ht _ _ := Catalog.decl_push ht decl

theorem Calm.typesStay {d d' : Draft} (h : Calm d d') : TypesStay d d' := by
  cases h with
  | addType decl => exact typesStay_push d decl
  | setMethods t f htype =>
    refine ⟨Nat.le_of_eq (Catalog.size_change _ _ _).symm, rfl, rfl, fun other _ hbundle hmessages => ?_⟩
    have hne : t ≠ other := by
      rintro rfl
      rcases htype with hsame | hsame
      · exact hbundle hsame
      · exact hmessages hsame
    simp only [Catalog.decl, Catalog.change, Array.getElem?_modify, if_neg hne]
  | adopt t catalog hadopt =>
    unfold Catalog.adopt at hadopt
    dsimp only at hadopt
    split at hadopt
    · cases hadopt
    · split at hadopt
      · cases hadopt
      · cases hadopt
        exact ⟨Nat.le_refl _, rfl, rfl, fun _ _ _ _ => rfl⟩
  | _ => exact ⟨Nat.le_refl _, rfl, rfl, fun _ _ _ _ => rfl⟩

/-- Any number of calm steps. -/
def CalmRun : Draft → Draft → Prop := Relation.ReflTransGen Calm

theorem Calm.run {d d' : Draft} (h : Calm d d') : CalmRun d d' := Relation.ReflTransGen.single h

instance : Std.Refl CalmRun := ⟨fun _ => Relation.ReflTransGen.refl⟩

instance : IsTrans Draft CalmRun := ⟨fun _ _ _ => Relation.ReflTransGen.trans⟩

theorem CalmRun.run {d d' : Draft} (h : CalmRun d d') : Run d d' := by
  induction h with
  | refl => exact Std.Refl.refl _
  | tail _ hstep ih => exact IsTrans.trans _ _ _ ih hstep.step.run

instance (priority := low) {w : Work Draft α} [h : Leads CalmRun w] : Leads Run w :=
  ⟨fun d => (h.leads d).run⟩

theorem CalmRun.typesStay {d d' : Draft} (h : CalmRun d d') : TypesStay d d' := by
  induction h with
  | refl => exact Std.Refl.refl _
  | tail _ hstep ih => exact IsTrans.trans _ _ _ ih hstep.typesStay

instance (priority := low) {w : Work Draft α} [h : Leads CalmRun w] : Leads TypesStay w :=
  ⟨fun d => (h.leads d).typesStay⟩

/-! ## Parts of a draft -/

section Looking

variable {R : Draft → Draft → Prop} [Std.Refl R]

instance (e : Nat) : Leads R (tag e) := ⟨fun _ => Std.Refl.refl _⟩

instance (id : FieldId) : Leads R (field id) := ⟨fun _ => Std.Refl.refl _⟩

instance (e : Nat) (p : Document → Problem) : Leads R (failOn e p : Work Draft α) :=
  ⟨fun _ => Std.Refl.refl _⟩

instance (place : Option Location) (x : Except Problem α) : Leads R (orFailAt place x) := by
  unfold orFailAt
  split <;> infer_instance

end Looking

instance (w : Work Document α) : Leads CalmRun (liftM w : Work Draft α) :=
  ⟨fun _ => (Calm.document _).run⟩

instance (e : Nat) (message : Document → Text) : Leads CalmRun (warn e message) :=
  ⟨fun _ => (Calm.log _).run⟩

instance (place : Option Location) (p : Problem) : Leads CalmRun (report place p) :=
  ⟨fun _ => (Calm.log _).run⟩

instance (path preferred : Text) : Leads CalmRun (importPackage path preferred) :=
  ⟨fun _ => (Calm.import path preferred).run⟩

instance (t : TypeId) (name : Text) : Leads CalmRun (qualify t name) :=
  ⟨fun _ => (Calm.import _ _).run⟩

instance (t : TypeId) : Leads CalmRun (typeRef t) := by
  refine ⟨fun d => ?_⟩
  show CalmRun d { d with imports := (d.imports.typeRef (d.catalog.decl t)).2 }
  unfold Imports.typeRef
  split
  · exact Std.Refl.refl _
  · exact Std.Refl.refl _
  · exact (Calm.import _ _).run
  · exact (Calm.import _ _).run

/-! ## Fields -/

theorem runOn_changeFields {α : Type} (step : Draft → Except Problem (α × FieldTable))
    (d : Draft) :
    (changeFields step).runOn d = match step d with
      | .ok (a, fields) => (.ok a, { d with fields })
      | .error p => (.error (p.failure d.currentPlace), d) := by
  unfold changeFields
  rw [Work.runOn_bind, Work.runOn_get]
  dsimp only
  rcases step d with p | ⟨a, fields⟩
  · rfl
  · rfl

theorem setInitializer_ok {d d' : Draft} {id : FieldId} {expr : Text} {a : Unit}
    (h : (setInitializer id expr).runOn d = (.ok a, d')) :
    (d.fields.field id).initializer = none ∧
      d' = { d with fields := d.fields.change id ({ · with initializer := some expr }) } := by
  unfold setInitializer at h
  rw [Work.runOn_bind, Work.runOn_get] at h
  simp only at h
  split at h
  · cases h
  · rename_i hnone
    cases h
    exact ⟨hnone, rfl⟩

instance (id : FieldId) (other : Text) : Leads CalmRun (addNeed id other) :=
  ⟨fun _ => (Calm.need id other).run⟩

instance (e : Nat) (path : Text) (types : List (Option TypeId)) :
    Leads CalmRun (refer e path types) :=
  ⟨fun _ => (Calm.refer e path types).run⟩

/-! ## Attributes

Reading a value does nothing to a draft but refer to the paths of the value and qualify names. -/

/-- A way in which reading relates drafts: references and names that are qualified lead along it. -/
class Reading (R : Draft → Draft → Prop) : Prop extends Std.Refl R, IsTrans Draft R where
  refer : ∀ e path types, Leads R (refer e path types)
  qualify : ∀ t name, Leads R (qualify t name)

attribute [instance] Reading.refer Reading.qualify

instance : Reading CalmRun := ⟨fun _ _ _ => inferInstance, fun _ _ => inferInstance⟩

section Reading

variable {R : Draft → Draft → Prop}

instance [Std.Refl R] (e : Nat) (value : Text) (types : List (Option TypeId)) :
    Leads R (Attribute.failParse e value types : Work Draft α) := ⟨fun _ => Std.Refl.refl _⟩

instance [Std.Refl R] (e : Nat) (type : Option TypeId) :
    Leads R (Attribute.failEmpty e type : Work Draft α) := ⟨fun _ => Std.Refl.refl _⟩

variable [Reading R]

instance (e : Nat) (value : Text) (types : List (Option TypeId)) (literal : Text → Text)
    (reference : Text → Work Draft Text) (glue : Text) [∀ t, Leads R (reference t)] :
    Leads R (Attribute.convert e value types literal reference glue) := by
  unfold Attribute.convert
  refine Leads.bind' (Leads.mapM (h := fun segment => ?_)) fun _ => inferInstance
  split <;> infer_instance

instance (e : Nat) (value : Text) (wrap : Text → Text) (types : List (Option TypeId)) :
    Leads R (Attribute.singleReference e value wrap types) := by
  unfold Attribute.singleReference
  infer_instance

instance (parser : AttributeParser) (e : Nat) (value : Text) :
    Leads R (Attribute.parse parser e value) := by
  induction parser generalizing value with
  | strict types =>
    rw [Attribute.parse_strict]
    infer_instance
  | _ =>
    -- every other parser reads the catalog first; the induction covers the parsers inside of it
    unfold Attribute.parse
    refine Leads.bind' inferInstance fun d => ?_
    dsimp only
    repeat' (first | infer_instance | split)

variable [∀ e name, Leads R (liftM (Document.takeRaw e name) : Work Draft (Option Text))]

instance (ps : Attribute.Parsers) (e : Nat) (name : Text) (types : List (Option TypeId)) :
    Leads R (Attribute.take? ps e name types) := by
  unfold Attribute.take?
  refine Leads.bind' inferInstance fun found => ?_
  cases found <;> infer_instance

instance (ps : Attribute.Parsers) (e : Nat) (name otherwise : Text)
    (types : List (Option TypeId)) :
    Leads R (Attribute.takeDefault ps e name otherwise types) := by
  unfold Attribute.takeDefault
  infer_instance

instance (ps : Attribute.Parsers) (e : Nat) (name : Text) (types : List (Option TypeId))
    [Leads R (liftM (Document.takeRequired e name) : Work Draft Text)] :
    Leads R (Attribute.takeRequired ps e name types) := by
  unfold Attribute.takeRequired
  infer_instance

end Reading

/-! ## Messages -/

instance (package packageName name : Text) : Leads Run (openMessages package packageName name) :=
  ⟨fun _ => IsTrans.trans _ _ _ (Step.addType _).run (Step.messages _).run⟩

instance : Leads CalmRun updateMessageType := by
  refine ⟨fun d => ?_⟩
  unfold updateMessageType
  rw [Work.runOn_modify]
  split
  · rename_i t htype
    refine (Calm.setMethods t (fun _ => d.messages.methods (d.catalog.find? [] "string")) ?_).run
    exact Or.inr htype
  · exact Std.Refl.refl _

/-- A message that is declared is one more, or the messages stay as they were. -/
theorem messages_declare {ms ms' : Messages} {m : Message} {i : Nat}
    (h : ms.declare m = .ok (i, ms')) : ∃ declared, ms' = { ms with declared } := by
  unfold Messages.declare at h
  obtain ⟨_, -, h⟩ := answer_bind h
  split at h
  · split at h
    · split at h
      · cases h
      · cases h
        exact ⟨_, rfl⟩
    · cases h
      exact ⟨_, rfl⟩
  · cases h
    exact ⟨_, rfl⟩

instance (place : Option Location) (m : Message) : Leads CalmRun (declareMessage place m) := by
  refine ⟨fun d => ?_⟩
  have hdeclare : (declareMessage place m).runOn d = match d.messages.declare m with
      | .ok (i, messages) =>
        (do updateMessageType; return Messages.methodName i : Work Draft Text).runOn
          { d with messages }
      | .error p => (.error (p.failure place), d) := by
    unfold declareMessage orFailAt
    rw [Work.runOn_bind, Work.runOn_get]
    cases hfound : d.messages.declare m <;> simp [hfound]
  rw [hdeclare]
  split
  · rename_i i messages hfound
    obtain ⟨declared, rfl⟩ := messages_declare hfound
    exact IsTrans.trans _ _ _ (Calm.messages declared).run (Leads.leads (R := CalmRun) _)
  · exact Relation.ReflTransGen.refl

/-! ## Resources -/

instance (name : Text) : Leads CalmRun (resourceType name) := by
  refine ⟨fun d => ?_⟩
  unfold resourceType
  rw [Work.runOn_modifyGet]
  split
  · exact Std.Refl.refl _
  · exact (Calm.addType _).run

instance (b : Bundle) : Leads Run (openBundle b) :=
  ⟨fun _ => IsTrans.trans _ _ _ (Step.addType _).run (Step.bundle _).run⟩

instance (name : Text) (returns : TypeId) : Leads CalmRun (addBundleMethod name returns) := by
  refine ⟨fun d => ?_⟩
  unfold addBundleMethod
  rw [Work.runOn_modify]
  split
  · rename_i t htype
    exact (Calm.setMethods t (· ++ [_]) (Or.inl htype)).run
  · exact Std.Refl.refl _

instance (f : Draft → Bundle) :
    Leads Run (modify fun d => { d with bundle := f d } : Work Draft Unit) :=
  ⟨fun _ => (Step.bundle _).run⟩

instance (place : Option Location) (field : Text) : Leads Run (claimMethod place field) := by
  unfold claimMethod
  infer_instance

instance (field : Text) (interfaces : List TypeId) (classes : List StyleClass) :
    Leads CalmRun (generateStyleType field interfaces classes) :=
  ⟨fun _ => (Calm.addType _).run⟩

instance (place : Option Location) (s : Style) : Leads Run (declareStyle place s) := by
  unfold declareStyle
  refine Leads.bind' inferInstance fun method => Leads.bind' inferInstance fun d => ?_
  refine Leads.bind' inferInstance fun css => Leads.bind' inferInstance fun classes => ?_
  refine Leads.bind' inferInstance fun resource => ?_
  split <;> infer_instance

instance (typeName method expr : Text) : Leads Run (addFile typeName method expr) := by
  unfold addFile
  infer_instance

instance (place : Option Location) (i : Image) : Leads Run (declareImage place i) := by
  unfold declareImage
  refine Leads.bind' inferInstance fun d => Leads.bind' inferInstance fun source => ?_
  refine Leads.bind' inferInstance fun repetition => Leads.bind' inferInstance fun method => ?_
  infer_instance

instance (place : Option Location) (f : DataFile) : Leads Run (declareData place f) := by
  unfold declareData
  infer_instance

instance : Leads CalmRun adoptStyleTypes := by
  unfold adoptStyleTypes
  refine Leads.bind' inferInstance fun d => ?_
  refine Leads.bind' (Leads.forIn (h := fun s _ => ⟨fun d => ?_⟩)) fun _ => inferInstance
  simp only [Work.runOn_bind, Work.runOn_get]
  split
  · rename_i catalog hadopt
    exact (Calm.adopt _ catalog hadopt).run
  · exact Std.Refl.refl _

end ViewBinder.Draft
