-- Widgets in containers. A plain panel builds a child from the attributes it has. Inside markup the
-- attributes of the child are rewritten first, as if they were attributes of markup; the child is
-- built the same way exactly when there is nothing to rewrite.
import ViewBinder.Proofs.Attribute.Parser
import ViewBinder.Proofs.Template.Phases
import ViewBinder.Proofs.Template.Rewriting

namespace ViewBinder

open Markup (Document Attribute)
open Session
open Work (Keeps Leads)

/-! ## Elements with nothing to rewrite -/

/-- Nothing about an element is for the markup around it: none of its attributes refers to a field,
and none of its children declares a message. -/
structure Markup.Document.Untouched (d : Document) (e : Nat) : Prop where
  attributes : ∀ a ∈ d.remaining e,
    (a.2.name.uri.isEmpty && Segment.hasReference a.2.value) = false
  children : ∀ child ∈ d.childElements e, d.isBinderTag child "attribute" = false

namespace Content

variable {s s' : Session} {e : Nat}

theorem runOn_declareAttributeMessages_of_none
    (h : ∀ child ∈ s.document.childElements e, s.document.isBinderTag child "attribute" = false)
    (value : Text → Work Session Text) :
    (declareAttributeMessages e value).runOn s = (.ok (), s) := by
  have hnone : (s.document.childElements e).filter
      (fun child => s.document.isBinderTag child "attribute") = [] := by
    rw [List.filter_eq_nil_iff]
    exact fun child hchild => by simp [h child hchild]
  have htake : (liftM (Document.takeBinderChildren e "attribute") :
      Work Session (List Nat)).runOn s = (.ok [], s) := by
    show (Except.ok ((s.document.childElements e).filter _), { s with document := _ }) = _
    rw [hnone]
    rfl
  unfold declareAttributeMessages
  rw [Work.runOn_bind, htake]
  rfl

theorem runOn_computeAttributes_of_none (h : ∀ a ∈ s.document.remaining e,
    (a.2.name.uri.isEmpty && Segment.hasReference a.2.value) = false) :
    (computeAttributes e).runOn s = (.ok (), s) := by
  have hloop : ∀ (text : Option TypeId) (left : List (Nat × Attribute)),
      (∀ a ∈ left, (a.2.name.uri.isEmpty && Segment.hasReference a.2.value) = false) →
      (forIn left PUnit.unit fun x _ => computeAttribute e text x).runOn s =
        (.ok PUnit.unit, s) := by
    intro text left hleft
    induction left with
    | nil => rfl
    | cons x left ih =>
      have hfirst : (computeAttribute e text x).runOn s = (.ok (.yield PUnit.unit), s) := by
        unfold computeAttribute
        rw [if_neg (by simp [hleft x List.mem_cons_self])]
        rfl
      rw [List.forIn_cons, Work.runOn_bind, hfirst]
      exact ih fun a ha => hleft a (List.mem_cons_of_mem _ ha)
  rw [computeAttributes_eq, Work.runOn_bind]
  show (do
    let d ← getDocument
    let _ ← forIn (d.remaining e) PUnit.unit fun x _ =>
      computeAttribute e (s.catalog.find? [] "string") x
    return () : Work Session Unit).runOn s = _
  rw [Work.runOn_bind]
  show (do
    let _ ← forIn (s.document.remaining e) PUnit.unit fun x _ =>
      computeAttribute e (s.catalog.find? [] "string") x
    return () : Work Session Unit).runOn s = _
  rw [Work.runOn_bind, hloop _ _ h]
  rfl

/-! ## Elements that are rewritten -/

theorem size_le_of_run (h : Run s s') : s.markers.size ≤ s'.markers.size :=
  h.reaches.grows.entries.length_le

theorem size_splice {expr m : Text} (h : (splice e expr).runOn s = (.ok m, s')) :
    s.markers.size < s'.markers.size := by
  cases h
  show s.markers.entries.length < (s.markers.entries ++ [_]).length
  simp

/-- Every reference of a value takes a marker at least. -/
theorem size_convertValue {text : Option TypeId} {value v : Text}
    (hreference : Segment.hasReference value = true)
    (h : (computeAttributes.convertValue e text value).runOn s = (.ok v, s')) :
    s.markers.size < s'.markers.size := by
  rw [convertValue_eq] at h
  obtain ⟨parts, s₁, hparts, hlast⟩ := Work.bind_ok h
  clear h
  cases hlast
  unfold Segment.hasReference at hreference
  generalize Segment.split value = segments at hreference hparts
  induction segments generalizing s parts with
  | nil => cases hreference
  | cons segment segments ih =>
    rw [List.mapM_cons] at hparts
    obtain ⟨part, s₂, hfirst, hparts⟩ := Work.bind_ok hparts
    obtain ⟨others, s₃, hrest, hparts⟩ := Work.bind_ok hparts
    cases hparts
    have hrun₂ : Run s s₂ := run_ok hfirst
    have hrun₃ : Run s₂ s' := run_ok hrest
    cases segment with
    | literal t =>
      exact Nat.lt_of_le_of_lt (size_le_of_run hrun₂) (ih others hreference hrest)
    | reference path =>
      obtain ⟨-, marker, s₄, expr, s₅, hrefer, hescape, hsplice⟩ := convertSegment_reference hfirst
      have hrun₄ : Run s s₄ := run_ok hrefer
      have hrun₅ : Run s₄ s₅ := run_ok hescape
      have hbefore := size_le_of_run (hrun₄.trans hrun₅)
      exact Nat.lt_of_le_of_lt hbefore
        (Nat.lt_of_lt_of_le (size_splice hsplice) (size_le_of_run hrun₃))

instance (text : Option TypeId) (x : Nat × Attribute) :
    Keeps (Runs false []) (computeAttribute e text x) := by
  unfold computeAttribute
  infer_instance

theorem size_computeAttributes {a : Nat × Attribute} (ha : a ∈ s.document.remaining e)
    (htouched : (a.2.name.uri.isEmpty && Segment.hasReference a.2.value) = true)
    (h : (computeAttributes e).runOn s = (.ok (), s')) : s.markers.size < s'.markers.size := by
  obtain ⟨text, left, hleft, u, hloop⟩ : ∃ text left, a ∈ left ∧ ∃ u,
      (forIn left PUnit.unit fun x _ => computeAttribute e text x).runOn s = (.ok u, s') := by
    rw [computeAttributes_eq] at h
    obtain ⟨text, _, htext, h⟩ := Work.bind_ok h
    cases htext
    obtain ⟨d, _, hget, h⟩ := Work.bind_ok h
    cases hget
    obtain ⟨u, s₁, hloop, h⟩ := Work.bind_ok h
    cases h
    exact ⟨_, _, ha, u, hloop⟩
  clear h ha
  induction left generalizing s with
  | nil => cases hleft
  | cons x left ih =>
    rw [List.forIn_cons] at hloop
    obtain ⟨step, s₂, hbody, hloop⟩ := Work.bind_ok hloop
    obtain ⟨rfl, hturn⟩ := computeAttribute_ok hbody
    have hrun : Run s s₂ := run_ok hbody
    have hrest : Run s₂ s' := by
      refine (Keeps.forIn' fun x _ => ?_ : Keeps (Runs false []) _).keeps hloop (ready_any _)
      infer_instance
    rcases List.mem_cons.mp hleft with rfl | hleft
    · rw [if_pos htouched] at hturn
      obtain ⟨value, s₃, hvalue, rfl⟩ := hturn
      rw [Bool.and_eq_true] at htouched
      have hgrows : s.markers.size < s₃.markers.size := size_convertValue htouched.2 hvalue
      have hlater := size_le_of_run hrest
      exact Nat.lt_of_lt_of_le hgrows hlater
    · exact Nat.lt_of_le_of_lt (size_le_of_run hrun) (ih hleft hloop)

theorem size_declareAttributeMessages {child : Nat} (hchild : child ∈ s.document.childElements e)
    (htag : s.document.isBinderTag child "attribute" = true)
    (h : (declareAttributeMessages e fun method => do
      splice e (← escaped (method ++ "()"))).runOn s = (.ok (), s')) :
    s.markers.size < s'.markers.size := by
  unfold declareAttributeMessages at h
  obtain ⟨decls, s₁, htake, h⟩ := Work.bind_ok h
  have hrun₁ : Run s s₁ := run_ok htake
  obtain ⟨_, s₂, hloop, hlast⟩ := Work.bind_ok h
  cases hlast
  have hmem : child ∈ decls := by
    cases htake
    exact List.mem_filter.mpr ⟨hchild, htag⟩
  cases decls with
  | nil => cases hmem
  | cons decl decls =>
    rw [List.forIn_cons] at hloop
    obtain ⟨step, s₃, hbody, hloop⟩ := Work.bind_ok hloop
    obtain ⟨⟨name, m⟩, s₄, hmessage, hbody⟩ := Work.bind_ok hbody
    have hrun₄ : Run s₁ s₄ := run_ok hmessage
    obtain ⟨_, _, hget, hbody⟩ := Work.bind_ok hbody
    cases hget
    obtain ⟨method, s₅, hmethod, hbody⟩ := Work.bind_ok hbody
    have hrun₅ : Run s₄ s₅ := run_ok hmethod
    obtain ⟨text, s₆, htext, hbody⟩ := Work.bind_ok hbody
    obtain ⟨expr, s₇, hescape, hsplice⟩ := Work.bind_ok htext
    have hrun₇ : Run s₅ s₇ := run_ok hescape
    have hbefore := size_le_of_run (((hrun₁.trans hrun₄).trans hrun₅).trans hrun₇)
    have hgrows := size_splice hsplice
    obtain ⟨_, _, hset, hyield⟩ := Work.bind_ok hbody
    cases hset
    cases hyield
    have hrest : Run { s₆ with document := s₆.document.setAttribute e name text } s' := by
      refine (Keeps.forIn' fun decl _ => ?_ : Keeps (Runs false []) _).keeps hloop (ready_any _)
      refine Keeps.bind' inferInstance fun found => ?_
      split
      infer_instance
    have hlater := size_le_of_run hrest
    exact Nat.lt_of_le_of_lt hbefore (Nat.lt_of_lt_of_le hgrows hlater)

/-- Rewriting leaves everything as it is exactly when there is nothing to rewrite. -/
theorem rewriteAttributes_eq_self_iff :
    (rewriteAttributes e).runOn s = (.ok (), s) ↔ s.document.Untouched e := by
  constructor
  · intro h
    unfold rewriteAttributes at h
    obtain ⟨_, s₁, hmessages, hcompute⟩ := Work.bind_ok h
    have hrun : Run s₁ s := run_ok hcompute
    have hchildren : ∀ child ∈ s.document.childElements e,
        s.document.isBinderTag child "attribute" = false := by
      intro child hchild
      by_contra htag
      have hgrows := size_declareAttributeMessages hchild (by simpa using htag) hmessages
      exact absurd (Nat.lt_of_lt_of_le hgrows (size_le_of_run hrun)) (Nat.lt_irrefl _)
    rw [runOn_declareAttributeMessages_of_none hchildren] at hmessages
    cases hmessages
    refine ⟨fun a ha => ?_, hchildren⟩
    by_contra htouched
    have hgrows := size_computeAttributes ha (by simpa using htouched) hcompute
    exact absurd hgrows (Nat.lt_irrefl _)
  · intro h
    unfold rewriteAttributes
    rw [Work.runOn_bind, runOn_declareAttributeMessages_of_none h.children]
    exact runOn_computeAttributes_of_none h.attributes

end Content

/-! ## Widgets that are placed -/

/-- Fields of old differ by their needs only when a new one is registered. -/
theorem FieldTable.field_register_apply {β : Type} {t t' : FieldTable} {c : Catalog}
    {precedence : Precedence} {type : Option TypeId} {name : Text} {f id : FieldId}
    (h : t.register c precedence type name = .ok (f, t')) (hid : id < t.fields.size)
    (p : Field → β) (hp : ∀ x other, p (Field.withNeed x other) = p x) :
    p (t'.field id) = p (t.field id) := by
  unfold register at h
  split at h
  · cases h
  · cases h
    unfold depend
    split
    · rw [field_change_apply _ _ _ _ p fun x => hp x _, field_push hid]
    · rw [field_push hid]

/-- A field that is there is made as it was, and its statements are what they were. -/
def Session.Leaves (id : FieldId) (s s' : Session) : Prop :=
  id < s.fields.fields.size → id < s'.fields.fields.size ∧
    (s'.fields.field id).initializer = (s.fields.field id).initializer ∧
    (s'.fields.field id).statements = (s.fields.field id).statements

namespace Content

/-- Makes a widget that was built part of the markup of a panel. -/
def placeChild (panel : FieldId) (stamped : Bool) (e : Nat) (child : FieldId) :
    Work Session Text := do
  let holder ← declareId
  if stamped then stampWidget e child holder else replaceByWidget e panel child holder

end Content

namespace Session

variable {id f : FieldId}

instance : Std.Refl (Leaves id) := ⟨fun _ hid => ⟨hid, rfl, rfl⟩⟩

instance : IsTrans Session (Leaves id) where
  trans _ _ _ h h' hid := by
    obtain ⟨hid₁, hmade, hcalled⟩ := h hid
    obtain ⟨hid₂, hmade', hcalled'⟩ := h' hid₁
    exact ⟨hid₂, hmade'.trans hmade, hcalled'.trans hcalled⟩

theorem leads_changeField {g : Field → Field} (h : f ≠ id ∨ ∀ x : Field,
    (g x).initializer = x.initializer ∧ (g x).statements = x.statements) :
    Leads (Leaves id) (liftM (Draft.changeField f g) : Work Session Unit) where
  leads s hid := by
    show id < (s.fields.change f g).fields.size ∧
      ((s.fields.change f g).field id).initializer = _ ∧
      ((s.fields.change f g).field id).statements = _
    rw [FieldTable.size_change]
    rcases h with hne | hsame
    · rw [FieldTable.field_change_ne hne]
      exact ⟨hid, rfl, rfl⟩
    · exact ⟨hid, s.fields.field_change_apply f id g (·.initializer) fun x => (hsame x).1,
        s.fields.field_change_apply f id g (·.statements) fun x => (hsame x).2⟩

instance (f : FieldId) : Leads (Leaves id) (liftM (Draft.field f) : Work Session Field) :=
  ⟨fun _ hid => ⟨hid, rfl, rfl⟩⟩

instance (f : FieldId) : Leads (Leaves id) (liftM (Draft.use f) : Work Session Text) where
  leads s hid := by
    have hchange : Leads (Leaves id)
        (liftM (Draft.changeField f ({ · with used := true })) : Work Session Unit) :=
      leads_changeField (Or.inr fun _ => ⟨rfl, rfl⟩)
    exact hchange.leads s hid

instance (f : FieldId) (other : Text) :
    Leads (Leaves id) (liftM (Draft.addNeed f other) : Work Session Unit) := by
  refine leads_changeField (Or.inr fun x => ?_)
  unfold Field.withNeed
  split <;> exact ⟨rfl, rfl⟩

theorem keeps_setInitializer (h : f ≠ id) (expr : Text) :
    Keeps (Leaves id) (liftM (Draft.setInitializer f expr) : Work Session Unit) where
  keeps {s a s'} hok hid := by
    obtain ⟨d, hd, rfl⟩ := lift_ok hok
    obtain ⟨-, rfl⟩ := Draft.setInitializer_ok hd
    have hchange : Leads (Leaves id)
        (liftM (Draft.changeField f ({ · with initializer := some expr })) : Work Session Unit) :=
      leads_changeField (Or.inl h)
    exact hchange.leads s hid

instance : Importing (Leaves id) :=
  ⟨fun _ _ => ⟨fun _ hid => ⟨hid, rfl, rfl⟩⟩, fun _ _ => ⟨fun _ hid => ⟨hid, rfl, rfl⟩⟩⟩

instance (statement : Text) : Leads (Leaves id) (addAttached statement) :=
  ⟨fun _ hid => ⟨hid, rfl, rfl⟩⟩

instance (e : Nat) (expr : Text) : Leads (Leaves id) (splice e expr) :=
  ⟨fun _ hid => ⟨hid, rfl, rfl⟩⟩

/-- A field that is registered is a new one. -/
theorem keeps_register {precedence : Precedence} {type : Option TypeId} {name : Text}
    {k : FieldId → Work Session α} (hk : ∀ f ≠ id, Keeps (Leaves id) (k f)) :
    Keeps (Leaves id)
      ((liftM (Draft.register precedence type name) : Work Session FieldId) >>= k) where
  keeps {s a s'} h hid := by
    obtain ⟨f, s₁, hfirst, hrest⟩ := Work.bind_ok h
    obtain ⟨d, hd, rfl⟩ := lift_ok hfirst
    unfold Draft.register at hd
    rw [Draft.runOn_changeFields] at hd
    split at hd
    · rename_i f' fields hregister
      cases hd
      obtain ⟨hnew, hsize⟩ := FieldTable.size_register hregister
      have hne : f ≠ id := fun heq => absurd hid (Nat.not_lt.mpr (heq ▸ hnew ▸ Nat.le_refl _))
      have hfirst : Leaves id s { s with fields } := by
        intro _
        refine ⟨Nat.lt_of_lt_of_le hid (hsize ▸ Nat.le_succ _), ?_, ?_⟩
        · exact FieldTable.field_register_apply hregister hid (·.initializer) fun x other => by
            unfold Field.withNeed
            split <;> rfl
        · exact FieldTable.field_register_apply hregister hid (·.statements) fun x other => by
            unfold Field.withNeed
            split <;> rfl
      exact IsTrans.trans (r := Leaves id) _ _ _ hfirst ((hk f hne).keeps hrest) hid
    · cases hd

instance : Keeps (Leaves id) declareId := by
  have hids : Leads (Leaves id) (modify fun s => { s with ids := s.ids + 1 } : Work Session Unit) :=
    ⟨fun _ hid => ⟨hid, rfl, rfl⟩⟩
  unfold declareId
  refine Keeps.bind' inferInstance fun _ => Keeps.bind' inferInstance fun type => ?_
  refine Keeps.bind' inferInstance fun s => keeps_register fun f hf => ?_
  have hset := fun expr => keeps_setInitializer hf expr
  infer_instance

/-- A panel that takes in a widget gets a statement for it. -/
theorem keeps_addWidget {id f : FieldId} (h : f ≠ id) (g : FieldId) :
    Keeps (Leaves id) (do call f "Add" [← Draft.use g] : Work Session Unit) := by
  have hstatement : ∀ statement, Leads (Leaves id)
      (liftM (Draft.addStatement f statement) : Work Session Unit) := fun _ =>
    leads_changeField (Or.inl h)
  unfold call
  infer_instance

end Session

namespace Content

variable {id : FieldId}

instance (panel : FieldId) (stamped : Bool) (e : Nat) (child : FieldId) :
    Keeps (Session.Leaves id) (placeChild panel stamped e child) := by
  have hstamp : ∀ holder, Keeps (Session.Leaves id) (stampWidget e child holder) := by
    intro holder
    unfold stampWidget
    refine Keeps.bind' inferInstance fun type => ?_
    split
    · infer_instance
    · refine Keeps.bind' inferInstance fun name => keeps_register fun f hf => ?_
      have hset := fun expr => keeps_setInitializer hf expr
      refine Keeps.bind' inferInstance fun make => Keeps.bind' inferInstance fun _ => ?_
      refine Keeps.bind' inferInstance fun _ => Keeps.bind' inferInstance fun _ => ?_
      infer_instance
  have hreplace : ∀ holder, Keeps (Session.Leaves id) (replaceByWidget e panel child holder) := by
    intro holder
    unfold replaceByWidget
    infer_instance
  unfold placeChild
  infer_instance

/-! ## Widgets in markup -/

variable {s : Session} {e : Nat}

/-- A widget inside the markup of a panel: it is built like any child of a panel, and then the
markup gets something that stands for it. -/
def embed (build : Builder) (panel : FieldId) (stamped : Bool) (e : Nat) :
    Work Session (Option Text) := do
  let d ← getDocument
  let child ← Element.widgetChild build ((d.node e).parent.getD 0) e
  some <$> placeChild panel stamped e child

theorem interpret?_of_isImported (build : Builder) (slot : Nat → Work Session Html)
    (attached stamped : Bool) (panel : FieldId) (h : s.document.isImported e = true) :
    (interpret? build (.markup attached (some panel) stamped) slot e).runOn s =
      (do
        rewriteAttributes e
        embed build panel stamped e).runOn s := by
  have hplace : placeWidget build panel stamped e = (do
      let d ← getDocument
      let child ← Element.widgetChild build ((d.node e).parent.getD 0) e
      placeChild panel stamped e child) := by
    unfold placeWidget Element.widgetChild placeChild
    simp only [bind_assoc]
  have himported : ∀ {s₁}, (rewriteAttributes e).runOn s = (.ok (), s₁) →
      s₁.document.isImported e = true := by
    intro s₁ hrewrite
    have hnames : SameNames s s₁ := Keeps.keeps hrewrite
    unfold Document.isImported
    rw [hnames e]
    exact h
  unfold interpret?
  rw [Work.runOn_bind, show getDocument.runOn s = (.ok s.document, s) from rfl]
  dsimp only
  simp only [h, if_true]
  rw [← bind_assoc, show (declareAttributeMessages e _ >>= fun _ => computeAttributes e) =
    rewriteAttributes e from rfl, Work.runOn_bind, Work.runOn_bind]
  rcases hrewrite : (rewriteAttributes e).runOn s with ⟨_ | _, s₁⟩
  · rfl
  · dsimp only
    have hbuild : (do return some (← placeWidget build panel stamped e)) =
        embed build panel stamped e := by
      rw [hplace]
      unfold embed
      simp only [bind_assoc, map_eq_pure_bind]
    cases attached with
    | false => rw [← hbuild]; rfl
    | true =>
      rw [if_pos rfl, Work.runOn_bind, runOn_bindField (.inl (himported hrewrite)), ← hbuild]

/-- How the value of an attribute is read after it was rewritten. Where the attribute of a child of
a plain panel is the reference itself, this one is a literal around a splice: parsers of text quote
it, so the program escapes the value, and parsers that know no such literal refuse it. -/
structure Estranged (s : Session) (e : Nat) (value path : Text) (r : FieldReference) (n k : Nat)
    (package : Text) : Prop where
  reference : r.element = e ∧ r.path = Text.trim path
  plain : ∀ type d, (Attribute.parse (.string type) e value).runOn d =
    (Draft.refer e path [type]).runOn d
  quoted : ∀ type d, (Attribute.parse (.string type) e (Marker.text k)).runOn d =
    (.ok ("\"" ++ Marker.text k ++ "\""), d)
  woven : ∀ s' d, Reaches s s' → Draft.settleReferences.runOn s'.toDraft = (.ok (), d) →
    ∃ id expr adapted, Draft.Resolved d r n id expr adapted ∧
      ∀ w, d.markers.Expands ("\"" ++ Marker.text k ++ "\"") w ↔
        ∃ v, d.markers.Expands adapted v ∧ w = escapedLiteral package v
  refused : ∀ parser d, Attribute.Foreign d.catalog (Marker.text k) parser →
    ∃ failure, (Attribute.parse parser e (Marker.text k)).runOn d = (.error failure, d)

theorem estranged_of_rewriteAttributes {base path : Text} {i : Nat} {a : Attribute} {u : Unit}
    {s₁ : Session} (hsound : s.Sound) (himported : s.document.isImported e = true)
    (hfound : s.document.find? e [] base = some (i, a))
    (hsplit : Segment.split a.value = [.reference path])
    (hrewrite : (rewriteAttributes e).runOn s = (.ok u, s₁)) :
    ∃ r n k package, s₁.document.peek e base = some (Marker.text k) ∧
      Estranged s₁ e a.value path r n k package := by
  have htag : s.document.isBinderTag e "attribute" = false := by
    unfold Document.isBinderTag
    simp [isBinder_of_isImported himported]
  have hrun : Run s s₁ := run_ok hrewrite
  obtain ⟨s', -, hlegal, r, n, k, package, he, hpath, -, hvalue, hspliced⟩ :=
    replaced_of_rewriteAttributes hsound htag hfound hsplit hrewrite
  refine ⟨r, n, k, package, ?_, ⟨he, hpath⟩, ?_, ?_, ?_, ?_⟩
  · unfold Document.peek
    rw [hvalue]
    rfl
  · exact fun type d => Attribute.parse_string_reference hsplit hlegal type e d
  · exact fun type d => Attribute.parse_string_text type e k d
  · intro s₂ d hlater hsettle
    have hsound₁ := hrun.reaches.sound hsound
    exact (hspliced.reaches hsound₁ hlater).expands_quoted (hlater.sound hsound₁) hsettle
  · exact fun parser d hforeign => Attribute.parse_text_of_foreign hforeign e

/-- Markup builds a widget as a plain panel builds its children, but only after it rewrote the
attributes of the widget as if they were its own. -/
theorem markup_builds_widgets_alike_iff_untouched {t : Template} {c : Catalog} {settings : Settings}
    {supply : Nat → Nat} {document : Document} {s : Session} {e : Nat}
    (hsupply : Function.Injective supply) (hstart : Reaches (t.start c settings supply document) s)
    (himported : s.document.isImported e = true) (build : Builder)
    (slot : Nat → Work Session Html) (attached stamped : Bool) (panel : FieldId) :
    (interpret? build (.markup attached (some panel) stamped) slot e).runOn s =
        (do
          rewriteAttributes e
          embed build panel stamped e).runOn s ∧
      ((rewriteAttributes e).runOn s = (.ok (), s) ↔ s.document.Untouched e) ∧
      (s.document.Untouched e →
        (interpret? build (.markup attached (some panel) stamped) slot e).runOn s =
          (embed build panel stamped e).runOn s) ∧
      (∀ id child, Keeps (Session.Leaves id) (placeChild panel stamped e child) ∧
        (panel ≠ id → Keeps (Session.Leaves id) (do call panel "Add" [← Draft.use child]))) ∧
      ∀ base path i a u s₁, s.document.find? e [] base = some (i, a) →
        Segment.split a.value = [.reference path] →
        (rewriteAttributes e).runOn s = (.ok u, s₁) →
        ∃ r n k package, s₁.document.peek e base = some (Marker.text k) ∧
          Estranged s₁ e a.value path r n k package := by
  have hsound : s.Sound := hstart.sound (Template.sound_start t c settings hsupply document)
  have hinterpret := interpret?_of_isImported build slot attached stamped panel himported
  refine ⟨hinterpret, rewriteAttributes_eq_self_iff, fun huntouched => ?_, fun id child => ?_, ?_⟩
  · rw [hinterpret, Work.runOn_bind, rewriteAttributes_eq_self_iff.mpr huntouched]
  · exact ⟨inferInstance, fun hne => keeps_addWidget hne child⟩
  · intro base path i a u s₁ hfound hsplit hrewrite
    exact estranged_of_rewriteAttributes hsound himported hfound hsplit hrewrite

end Content

/-! ## A label in two panels -/

namespace Template

/-- A label inside a panel shows the text of another label. -/
def labelIn (panel : Text) : Template :=
  { source := "<ui:UiBinder xmlns:ui=\"urn:ui:uibind\" xmlns:g=\"urn:import:uibind.dev/ui\">" ++
      "<ui:with field=\"s\" type=\"uibind.dev/ui.Label\"/><g:" ++ panel ++
      "><g:Label text=\"\x7bs.text\x7d\"/></g:" ++ panel ++ "></ui:UiBinder>",
    url := "View.ui.xml" }

theorem labelIn_rewrites : ∃ document i a s,
    Document.load (labelIn "HTMLPanel").source (labelIn "HTMLPanel").url = .ok document ∧
      document.isImported 3 = true ∧ document.find? 3 [] "text" = some (i, a) ∧
      Segment.split a.value = [.reference "s.text"] ∧
      (Content.rewriteAttributes 3).runOn
        ((labelIn "HTMLPanel").start sampleCatalog sampleSettings (· + 1) document) =
          (.ok (), s) := by
  have h : (labelIn "HTMLPanel").succeeds (fun document => (Content.rewriteAttributes 3).runOn
      ((labelIn "HTMLPanel").start sampleCatalog sampleSettings (· + 1) document))
      (fun document _ _ => document.isImported 3 && (document.find? 3 [] "text").any fun found =>
        Segment.split found.2.value == [.reference "s.text"]) = true := by
    decide +kernel
  obtain ⟨document, _, s, hload, hrewrite, htest⟩ := exists_of_succeeds h
  rw [Bool.and_eq_true, Option.any_eq_true] at htest
  obtain ⟨himported, ⟨i, a⟩, hfound, hsplit⟩ := htest
  exact ⟨document, i, a, s, hload, himported, hfound, eq_of_beq hsplit, hrewrite⟩

/-- The text of the label is a literal when the panel around it has rewritten it. -/
theorem markup_estranges_label : ∃ (document : Document) (a : Text) (s₁ : Session)
    (r : FieldReference) (n k : Nat) (package : Text), Function.Injective (· + 1 : Nat → Nat) ∧
      document.isImported 3 = true ∧
      Content.Estranged s₁ 3 a (Text.ofString "s.text") r n k package := by
  obtain ⟨document, i, a, s₁, -, himported, hfound, hsplit, hrewrite⟩ := labelIn_rewrites
  have hsupply : Function.Injective (· + 1 : Nat → Nat) := fun _ _ h => Nat.succ.inj h
  obtain ⟨r, n, k, package, -, hestranged⟩ :=
    (Content.markup_builds_widgets_alike_iff_untouched hsupply (Reaches.refl _) himported
      (fun _ => throw .crash) (fun _ => throw .crash) true false 0).2.2.2.2
      _ _ _ _ _ _ hfound hsplit hrewrite
  exact ⟨document, a.value, s₁, r, n, k, package, hsupply, himported, hestranged⟩

/-- The label shows the other text as it is in one panel, and escapes it first in the other. -/
theorem label_is_built_differently_in_markup :
    wovenField (labelIn "FlowPanel") sampleCatalog "f_Label2" =
        some (Text.ofString "ui.NewLabel()", [Text.ofString "f_Label2.SetText(s.Text())"]) ∧
      wovenField (labelIn "HTMLPanel") sampleCatalog "f_Label2" =
        some (Text.ofString "ui.NewLabel()",
          [Text.ofString "f_Label2.SetText(\"\" + safehtml.HTMLEscape(s.Text()) + \"\")"]) := by
  decide +kernel

end Template

end ViewBinder
