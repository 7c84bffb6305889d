-- What becomes of splices and sections. Splices are made only where content is written, and they are
-- forgotten when it is; lines are added only where elements are attached, to the innermost section.
-- So whatever is built inside content leaves the splices and the sections of the content alone.
import ViewBinder.Proofs.Program.Section
import ViewBinder.Proofs.Template.Runs

namespace ViewBinder

open Markup (Document)
open Work (Keeps Leads)

namespace Session

/-- Splices stay as they are unless content is written. Sections that are entered are left again, and
statements are added to those; to the one around them only where elements are attached. -/
structure Confined (splicing attaching : Bool) (s s' : Session) : Prop where
  splices : splicing = false → s'.splices = s.splices
  acts : ∃ acts, Sections.Balanced attaching acts ∧ s'.sections = s.sections.after acts

variable {splicing attaching : Bool}

/-- Open sections stay as they are unless elements are attached. -/
theorem Confined.sections {s s' : Session} (h : Confined splicing attaching s s')
    (hno : attaching = false) : s'.sections.unfinished = s.sections.unfinished := by
  obtain ⟨acts, hbalanced, hsections⟩ := h.acts
  rw [hsections, (hno ▸ hbalanced : Sections.Balanced false acts).unfinished]

instance : Std.Refl (Confined splicing attaching) :=
  ⟨fun _ => ⟨fun _ => rfl, [], .nil attaching, rfl⟩⟩

instance : IsTrans Session (Confined splicing attaching) where
  trans _ _ _ h h' := by
    obtain ⟨acts, hacts, hsections⟩ := h.acts
    obtain ⟨more, hmore, hsections'⟩ := h'.acts
    refine ⟨fun hno => (h'.splices hno).trans (h.splices hno), acts ++ more, hacts.append hmore, ?_⟩
    rw [hsections', hsections, Sections.after_append]

/-- Work on other parts of a session. -/
theorem confined_of_same {s s' : Session} (hsplices : s'.splices = s.splices)
    (hsections : s'.sections = s.sections) : Confined splicing attaching s s' :=
  ⟨fun _ => hsplices, [], .nil attaching, hsections⟩

theorem leads_modify {f : Session → Session} (hsplices : ∀ s, (f s).splices = s.splices)
    (hsections : ∀ s, (f s).sections = s.sections) :
    Leads (Confined splicing attaching) (modify f : Work Session Unit) :=
  ⟨fun s => confined_of_same (hsplices s) (hsections s)⟩

instance {w : Work Draft α} :
    Leads (Confined splicing attaching) (liftM w : Work Session α) :=
  ⟨fun _ => confined_of_same rfl rfl⟩

instance {w : Work Document α} :
    Leads (Confined splicing attaching) (liftM w : Work Session α) :=
  ⟨fun _ => confined_of_same rfl rfl⟩

instance {w : Work Markers α} :
    Leads (Confined splicing attaching) (liftM w : Work Session α) :=
  ⟨fun _ => confined_of_same rfl rfl⟩

instance (f : Session → Document) : Leads (Confined splicing attaching)
    (modify fun s => { s with document := f s } : Work Session Unit) :=
  leads_modify (fun _ => rfl) fun _ => rfl

instance (f : Session → Nat) : Leads (Confined splicing attaching)
    (modify fun s => { s with ids := f s } : Work Session Unit) :=
  leads_modify (fun _ => rfl) fun _ => rfl

instance : Importing (Confined splicing attaching) :=
  ⟨fun _ _ => inferInstance, fun _ _ => inferInstance⟩

/-! ## Fields of a session -/

instance (f : FieldId) (method : Text) (args : List Text) :
    Leads (Confined splicing attaching) (call f method args) := by
  unfold call
  infer_instance

instance (type : Option TypeId) (name initializer : Text) :
    Leads (Confined splicing attaching) (bundleField type name initializer) := by
  unfold bundleField
  infer_instance

instance : Leads (Confined splicing attaching) resourceBundle := by
  unfold resourceBundle
  infer_instance

instance (place : Option Location) (m : Message) :
    Leads (Confined splicing attaching) (declareMessage place m) := by
  unfold declareMessage
  infer_instance

instance : Leads (Confined splicing attaching) declareId := by
  unfold declareId
  infer_instance

/-! ## Sections and splices -/

/-- What is done while an element is attached is done inside of a section of its own. -/
instance (expr : Text) (w : Work Session α) [h : Leads (Confined splicing true) w] :
    Leads (Confined splicing attaching) (attached expr w) where
  leads s := by
    obtain ⟨hsplices, acts, hacts, hsections⟩ := h.leads { s with sections := s.sections.enter expr }
    refine ⟨hsplices, _, hacts.enclosed expr, ?_⟩
    rw [Sections.after_cons, Sections.after_append]
    exact congrArg Sections.leave hsections

theorem leads_addAttached (statement : Text) :
    Leads (Confined splicing true) (addAttached statement) :=
  ⟨fun _ => ⟨fun _ => rfl, [.add statement], rfl, rfl⟩⟩

instance (statement : Text) : Leads (Confined splicing true) (addAttached statement) :=
  leads_addAttached statement

instance (statement : Text) : Leads (Confined splicing attaching) (addDetached statement) :=
  ⟨fun _ => ⟨fun _ => rfl, [.addDetached statement], rfl, rfl⟩⟩

instance (e : Nat) (expr : Text) : Leads (Confined true attaching) (splice e expr) :=
  ⟨fun _ => ⟨nofun, [], .nil attaching, rfl⟩⟩

instance (w : Work Session α) [h : Leads (Confined true attaching) w] :
    Leads (Confined splicing attaching) (withSplices w) where
  leads s := ⟨fun _ => rfl, (h.leads { s with splices := [] }).acts⟩

/-! ## Attributes of a session -/

instance (e : Nat) (name : Text) (types : List (Option TypeId)) :
    Leads (Confined splicing attaching) (take? e name types) := by
  unfold take?
  infer_instance

instance (e : Nat) (name otherwise : Text) (types : List (Option TypeId)) :
    Leads (Confined splicing attaching) (takeDefault e name otherwise types) := by
  unfold takeDefault
  infer_instance

instance (e : Nat) (name : Text) (types : List (Option TypeId)) :
    Leads (Confined splicing attaching) (takeRequired e name types) := by
  unfold takeRequired
  infer_instance

instance (e : Nat) (value : Text) (types : List (Option TypeId)) :
    Leads (Confined splicing attaching) (readValue e value types) := by
  unfold readValue
  infer_instance

end Session

/-! ## Content -/

namespace Content

open Session

variable {splicing attaching : Bool} {build : Builder} {slot : Nat → Work Session Html}

section Building

variable [∀ e, Leads (Confined splicing attaching) (build e)]

instance (parent child : Nat) (wanted : Option TypeId) :
    Leads (Confined splicing attaching) (buildChild build parent child wanted) := by
  unfold buildChild
  refine Leads.bind' inferInstance fun d => ?_
  dsimp only
  infer_instance

end Building

instance (e decl : Nat) : Leads (Confined splicing attaching) (attributeMessage e decl) := by
  unfold attributeMessage
  repeat' (first | infer_instance | split | refine Leads.bind' inferInstance fun _ => ?_)

instance (e : Nat) (value : Text → Work Session Text)
    [∀ t, Leads (Confined splicing attaching) (value t)] :
    Leads (Confined splicing attaching) (declareAttributeMessages e value) := by
  unfold declareAttributeMessages
  refine Leads.bind' inferInstance fun decls => ?_
  refine Leads.bind' (Leads.forIn' fun decl _ => ?_) fun _ => inferInstance
  refine Leads.bind' inferInstance fun (name, m) => ?_
  infer_instance

instance (expr : Text) : Leads (Confined splicing attaching) (escaped expr) := by
  unfold escaped
  infer_instance

instance (e : Nat) (text : Option TypeId) (value : Text) :
    Leads (Confined true attaching) (computeAttributes.convertValue e text value) := by
  unfold computeAttributes.convertValue
  refine Leads.bind' (Leads.mapM' fun segment => ?_) fun _ => inferInstance
  split <;> infer_instance

instance (e : Nat) : Leads (Confined true attaching) (computeAttributes e) := by
  unfold computeAttributes
  infer_instance

instance (e : Nat) : Leads (Confined true true) (bindField e) := by
  unfold bindField
  refine Leads.bind' inferInstance fun d => ?_
  split
  · infer_instance
  · refine Leads.bind' inferInstance fun found => ?_
    split
    · infer_instance
    · repeat' (first | infer_instance | split | refine Leads.bind' inferInstance fun _ => ?_)

instance (e : Nat) (child : FieldId) (holder : Text) :
    Leads (Confined true true) (stampWidget e child holder) := by
  unfold stampWidget
  repeat' (first | infer_instance | split | refine Leads.bind' inferInstance fun _ => ?_)

instance (e : Nat) (panel child : FieldId) (holder : Text) :
    Leads (Confined true true) (replaceByWidget e panel child holder) := by
  unfold replaceByWidget
  infer_instance

instance [∀ e, Leads (Confined true true) (build e)] (panel : FieldId) (stamped : Bool) (e : Nat) :
    Leads (Confined true true) (placeWidget build panel stamped e) := by
  unfold placeWidget
  infer_instance

/-! ## Values and messages -/

instance (e : Nat) (type : Option TypeId) :
    Leads (Confined splicing attaching) (valueFrom e type) := by
  unfold valueFrom
  infer_instance

instance (kind : ContentKind) (e : Nat) : Leads (Confined true attaching) (textValue kind e) := by
  unfold textValue
  infer_instance

instance (e : Nat) : Leads (Confined true attaching) (markupValue e) := by
  unfold markupValue
  refine Leads.bind' inferInstance fun type => ?_
  split <;> infer_instance

instance (count : Nat) (pieces : List Marker.Piece) :
    Leads (Confined splicing attaching) (literalParts count pieces) := by
  induction pieces generalizing count with
  | nil =>
    unfold literalParts
    infer_instance
  | cons piece rest ih => cases piece <;> (unfold literalParts; infer_instance)

section Slots

variable [∀ n, Leads (Confined true attaching) (slot n)]

instance (e : Nat) : Leads (Confined true attaching) (renderSlots slot e) := by
  unfold renderSlots
  infer_instance

instance (e : Nat) : Leads (Confined true attaching) (placeholder slot e) := by
  unfold placeholder
  infer_instance

instance (e : Nat) (literal : Text) (count : Nat) (slots : List Nat) :
    Leads (Confined true attaching) (messageParts slot e literal count slots) := by
  induction slots generalizing literal count with
  | nil =>
    unfold messageParts
    infer_instance
  | cons c rest ih =>
    unfold messageParts
    refine Leads.bind' inferInstance fun d => ?_
    dsimp only
    infer_instance

instance (kind : ContentKind) (e : Nat) :
    Leads (Confined true attaching) (message kind slot e) := by
  unfold message
  infer_instance

instance (e : Nat) (attributes : List (Nat × Markup.Attribute)) :
    Leads (Confined splicing attaching) (markupAttributes e attributes) := by
  induction attributes with
  | nil =>
    unfold markupAttributes
    infer_instance
  | cons a rest ih =>
    unfold markupAttributes
    infer_instance

instance (e : Nat) : Leads (Confined splicing attaching) (checkName e) := by
  unfold checkName
  infer_instance

instance (e : Nat) : Leads (Confined true attaching) (markupElement slot e) := by
  unfold markupElement
  infer_instance

end Slots

/-! ## Elements -/

variable [∀ splicing attaching e, Leads (Confined splicing attaching) (build e)]

theorem confined_interpret? {kind : ContentKind} (hkind : isAttached kind = true → attaching = true)
    (hslot : ∀ n, Leads (Confined true attaching) (slot n)) (e : Nat) :
    Leads (Confined true attaching) (interpret? build kind slot e) := by
  cases kind with
  | plainText =>
    unfold interpret?
    infer_instance
  | markup attached panel stamped =>
    have hbind : attached = true → Leads (Confined true attaching) (bindField e) := by
      rintro rfl
      cases hkind rfl
      infer_instance
    have hplace : ∀ panel', panel = some panel' →
        Leads (Confined true attaching) (placeWidget build panel' stamped e) := by
      rintro panel' rfl
      cases hkind (Bool.or_true attached)
      infer_instance
    unfold interpret?
    refine Leads.bind' inferInstance fun d => ?_
    dsimp only
    refine Leads.bind' inferInstance fun _ => Leads.bind' inferInstance fun _ => ?_
    split
    · have := hbind ‹_›
      split
      · have := hplace _ rfl
        infer_instance
      · infer_instance
    · split
      · have := hplace _ rfl
        infer_instance
      · infer_instance

theorem confined_renderElement {kind : ContentKind} (hkind : isAttached kind = true → attaching = true)
    (hslot : ∀ n, Leads (Confined true attaching) (slot n)) (e : Nat) :
    Leads (Confined true attaching) (renderElement build kind slot e) := by
  have hinterpret : Leads (Confined true attaching) (interpret? build kind slot e) :=
    confined_interpret? hkind hslot e
  unfold renderElement
  repeat' (first | infer_instance | split | refine Leads.bind' inferInstance fun _ => ?_)

theorem confined_renderSlot {kind : ContentKind} (hkind : isAttached kind = true → attaching = true)
    (fuel n : Nat) : Leads (Confined true attaching) (renderSlot build kind fuel n) := by
  induction fuel generalizing n with
  | zero =>
    unfold renderSlot
    infer_instance
  | succ fuel ih =>
    have helement (e : Nat) : Leads (Confined true attaching)
        (renderElement build kind (renderSlot build kind fuel) e) :=
      confined_renderElement hkind ih e
    unfold renderSlot
    repeat' (first | infer_instance | split | refine Leads.bind' inferInstance fun _ => ?_)

theorem confined_inner {kind : ContentKind} (hkind : isAttached kind = true → attaching = true)
    (e : Nat) : Leads (Confined splicing attaching) (inner build kind e) := by
  have hslot (fuel n : Nat) : Leads (Confined true attaching) (renderSlot build kind fuel n) :=
    confined_renderSlot hkind fuel n
  unfold inner
  infer_instance

theorem confined_outer {kind : ContentKind} (hkind : isAttached kind = true → attaching = true)
    (e : Nat) : Leads (Confined splicing attaching) (outer build kind e) := by
  have helement (fuel : Nat) : Leads (Confined true attaching)
      (renderElement build kind (renderSlot build kind fuel) e) :=
    confined_renderElement hkind (confined_renderSlot hkind fuel) e
  unfold outer
  infer_instance

instance (e : Nat) : Leads (Confined splicing attaching) (inner build .plainText e) :=
  confined_inner (fun hno => by cases hno) e

instance (kind : ContentKind) (e : Nat) : Leads (Confined splicing true) (inner build kind e) :=
  confined_inner (fun _ => rfl) e

instance (kind : ContentKind) (e : Nat) : Leads (Confined splicing true) (outer build kind e) :=
  confined_outer (fun _ => rfl) e

instance (e : Nat) : Leads (Confined splicing attaching) (markupLiteral build e) := by
  have hinner : Leads (Confined splicing attaching) (inner build (.markup false none false) e) :=
    confined_inner (fun hno => by cases hno) e
  unfold markupLiteral
  infer_instance

end Content

end ViewBinder
