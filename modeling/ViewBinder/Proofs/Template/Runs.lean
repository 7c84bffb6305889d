-- The work on a template is a run of its session, function by function: content, then the rules of
-- elements, then directives, and the reading of a whole template in the end. Functions that declare
-- a field are the ones with something to show; the others follow from what they are made of.
import ViewBinder.Compile
import ViewBinder.Proofs.Program.Pattern
import ViewBinder.Proofs.Session.Attaining
import ViewBinder.Proofs.Session.Marked

namespace ViewBinder

open Markup (Document)
open Session
open Work (Keeps Leads)

variable {inSection : Bool} {hosts : List FieldId}

/-! ## Content -/

namespace Content

variable {build : Builder} {slot : Nat → Work Session Html}

instance [hbuild : ∀ e, Keeps (Runs false []) (build e)] (parent child : Nat)
    (wanted : Option TypeId) : Keeps (Runs inSection hosts) (buildChild build parent child wanted) := by
  have := fun e => @keeps_inside inSection hosts _ _ (hbuild e)
  unfold buildChild
  refine Keeps.bind' inferInstance fun d => ?_
  repeat' (first | infer_instance | split)

instance (e decl : Nat) : Keeps (Runs inSection hosts) (attributeMessage e decl) := by
  unfold attributeMessage
  refine Keeps.bind' inferInstance fun name => Keeps.bind' inferInstance fun description => ?_
  refine Keeps.bind' inferInstance fun meaning => Keeps.bind' inferInstance fun key => ?_
  refine Keeps.bind' inferInstance fun _ => Keeps.bind' inferInstance fun _ => ?_
  refine Keeps.bind' inferInstance fun d => ?_
  split <;> infer_instance

instance (e : Nat) (value : Text → Work Session Text) [∀ t, Keeps (Runs inSection hosts) (value t)] :
    Keeps (Runs inSection hosts) (declareAttributeMessages e value) := by
  unfold declareAttributeMessages
  refine Keeps.bind' inferInstance fun decls => ?_
  refine Keeps.bind' (Keeps.forIn' fun decl _ => ?_) fun _ => inferInstance
  refine Keeps.bind' inferInstance fun found => ?_
  split
  infer_instance

instance (expr : Text) : Keeps (Runs inSection hosts) (escaped expr) := by
  unfold escaped
  infer_instance

instance (e : Nat) (text : Option TypeId) (value : Text) :
    Keeps (Runs inSection hosts) (computeAttributes.convertValue e text value) := by
  unfold computeAttributes.convertValue
  refine Keeps.bind' (Keeps.mapM' fun segment => ?_) fun _ => inferInstance
  split <;> infer_instance

instance (e : Nat) : Keeps (Runs inSection hosts) (computeAttributes e) := by
  unfold computeAttributes
  infer_instance

/-- The element is found by the name that holds its id. -/
theorem gives_elementById (type : Option TypeId) (holder : Text) :
    Gives (Text.Shows holder) (elementById type holder) := by
  intro s expr s' h
  unfold elementById at h
  obtain ⟨function, s₁, -, h⟩ := Work.bind_ok h
  have hfound := (Text.shows_self holder).argument function
  dsimp only at h
  split at h
  · cases h
    exact hfound
  · obtain ⟨_, _, -, h⟩ := Work.bind_ok h
    split at h
    · cases h
      exact hfound
    · obtain ⟨cast, _, -, h⟩ := Work.bind_ok h
      cases h
      exact hfound.argument cast

/-- The field is assigned to in the section that is open, from the element with an id. -/
theorem attains_assignment {f : FieldId} (hf : f ∈ hosts) (type : Option TypeId) (holder : Text)
    {k : Unit → Work Session α} (hk : ∀ a, Keeps (Runs true hosts) (k a)) :
    Attains true hosts (fun s => (IsSettled f s ∧ IsUnasked f s) ∧ IsPlaced holder s) (do
      let name ← nameOf f
      let expr ← elementById type holder
      addAttached (name ++ " = " ++ expr) >>= k) := by
  refine ⟨fun {s a s'} hready hok => ?_⟩
  obtain ⟨name, s1, hname, hok⟩ := Work.bind_ok hok
  cases hname
  obtain ⟨expr, s2, hexpr, hok⟩ := Work.bind_ok hok
  obtain ⟨_, s3, hadd, hrest⟩ := Work.bind_ok hok
  have hshows := gives_elementById type holder hexpr
  have hrun : Run s s2 := Keeps.keeps (R := Runs true hosts) hexpr hready
  have hplaces : Places true hosts holder
      (addAttached ((s.fields.field f).name ++ " = " ++ expr)) :=
    places_attached (hshows.assigned (s.fields.field f).name)
  obtain ⟨hadded, hplaced⟩ := hplaces.attains (hrun.ready hready) hadd
  cases hadd
  have hwhole := hrun.trans hadded
  have hlater := (hk _).keeps hrest (hwhole.ready hready)
  have hid := hready.hosted f hf
  have hsize := Nat.lt_of_lt_of_le hid hwhole.fields.extends.size
  have hassigns : (s2.sections.add ((s.fields.field f).name ++ " = " ++ expr)).Assigns
      (s2.fields.field f).name := by
    rw [(hrun.fields.extends.field f hid).name]
    exact Sections.assigns_iff.mpr
      ⟨expr, Sections.holds_add ((hrun.ready hready).isOpen rfl) _⟩
  refine ⟨hwhole.trans hlater, ⟨?_, ?_⟩, Persisting.lasts hlater hplaced⟩
  · exact Persisting.lasts hlater ⟨hsize, Or.inr hassigns⟩
  · exact Persisting.lasts hlater ⟨hsize, Or.inr (Or.inl hassigns)⟩

instance (e : Nat) : Keeps (Runs true hosts) (bindField e) := by
  unfold bindField
  refine Keeps.bind' inferInstance fun d => ?_
  split
  · infer_instance
  · refine Keeps.bind' inferInstance fun found => ?_
    split
    · infer_instance
    · have hbind : ∀ (f : FieldId) (type : Option TypeId) (holder : Text),
          Attains true (f :: hosts)
            (fun s => (IsSettled f s ∧ IsUnasked f s) ∧ IsPlaced holder s) (do
            let marker ← splice e holder
            modify fun s => { s with document := s.document.setAttribute e "id" marker }
            addAttached ((← nameOf f) ++ " = " ++ (← elementById type holder))
            addDetached ((← nameOf f) ++ ".RemoveAttribute(\"id\")") : Work Session Unit) := by
        intro f type holder
        refine Attains.after inferInstance fun marker => Attains.after inferInstance fun _ => ?_
        exact attains_assignment List.mem_cons_self type holder fun _ => inferInstance
      have hdeclare : ∀ name (d : Document), Keeps (Runs true hosts) (do
          let type := (← getCatalog).domType? (d.name e).base
          let f ← Draft.register .plain type name
          let holder ← declareId
          let marker ← splice e holder
          modify fun s => { s with document := s.document.setAttribute e "id" marker }
          addAttached ((← nameOf f) ++ " = " ++ (← elementById type holder))
          addDetached ((← nameOf f) ++ ".RemoveAttribute(\"id\")") : Work Session Unit) := by
        intro name d
        refine Keeps.bind' inferInstance fun c => ?_
        have hfound : ∀ f, Attains true (f :: hosts) (fun s => IsSettled f s ∧ IsUnasked f s) (do
            let holder ← declareId
            let marker ← splice e holder
            modify fun s => { s with document := s.document.setAttribute e "id" marker }
            addAttached ((← nameOf f) ++ " = " ++
              (← elementById (c.domType? (d.name e).base) holder))
            addDetached ((← nameOf f) ++ ".RemoveAttribute(\"id\")") : Work Session Unit) :=
          fun f => attains_read reads_declareId
            (fun holder _ => (hbind f _ holder).imp fun _ h => h.1)
            fun holder _ => (hbind f _ holder).imp fun _ h => h.2
        exact keeps_declare (fun f => (hfound f).imp fun _ h => h.1)
          fun f => Or.inr ((hfound f).imp fun _ h => h.2)
      refine Keeps.bind' inferInstance fun d' => ?_
      split
      · exact Keeps.bind' inferInstance fun _ => hdeclare _ d
      · exact hdeclare _ d

/-- The stamper is asked to claim the element with the id. -/
theorem places_claim (e : Nat) (stamper : FieldId) (holder : Text) :
    Places true hosts holder (do
      let name ← Draft.use stamper
      addAttached (name ++ ".Claim(" ++ (← elementById none holder) ++ ")")
      splice e (name ++ ".Render(" ++ holder ++ ").String()")) := by
  have hplaces : ∀ name shown, (∀ expr, Text.Shows holder expr →
      Text.Shows shown (name ++ ".Claim(" ++ expr ++ ")")) → Places true hosts shown (do
        addAttached (name ++ ".Claim(" ++ (← elementById none holder) ++ ")")
        splice e (name ++ ".Render(" ++ holder ++ ").String()")) := by
    intro name shown hshows
    refine Attains.given inferInstance (gives_elementById none holder) fun expr hexpr => ?_
    exact (places_attached (hshows expr hexpr)).before fun _ => inferInstance
  refine attains_use (fun name => hplaces name holder fun expr hexpr => ?_) fun name =>
    hplaces name name fun expr _ => ?_
  · exact hexpr.within (Text.opens_end rfl name) Text.closes_bracket
  · rw [List.append_assoc]
    exact Text.shows_head rfl _

/-- A stamper is made for the widget, and it claims the element with the id. -/
theorem places_stampWidget (e : Nat) (child : FieldId) (holder : Text) :
    Places true hosts holder (stampWidget e child holder) := by
  unfold stampWidget
  refine Attains.after inferInstance fun type => ?_
  split
  · exact attains_failOn _ _
  · have hrest : ∀ stamper, Places true (stamper :: hosts) holder (do
        Draft.addNeed stamper (← nameOf child)
        Draft.addNeed stamper holder
        let name ← Draft.use stamper
        addAttached (name ++ ".Claim(" ++ (← elementById none holder) ++ ")")
        splice e (name ++ ".Render(" ++ holder ++ ").String()")) := by
      intro stamper
      refine Attains.after inferInstance fun name => Attains.after inferInstance fun _ => ?_
      exact Attains.after inferInstance fun _ => places_claim e stamper holder
    have hchild : ∀ (stamper : FieldId) (make name : Text), Places true (stamper :: hosts) name
        (liftM (Draft.setInitializer stamper (make ++ "(" ++ name ++ ")")) : Work Session Unit) :=
      fun stamper make name => places_make List.mem_cons_self (isClosed_call make name)
        ((Text.shows_self name).argument make)
    refine Attains.after inferInstance fun childName =>
      attains_declare (fun stamper => ?_) (fun _ => Or.inl (by decide)) fun stamper => ?_
    · refine Attains.after inferInstance fun make => attains_use (fun name => ?_) fun name => ?_
      · exact (settles_make (isClosed_call make name) stamper).before fun _ => (hrest stamper).keeps
      · exact (hchild stamper make name).before fun _ => (hrest stamper).keeps
    · refine Attains.after inferInstance fun make => attains_use (fun name => ?_) fun name => ?_
      · exact Attains.after (hchild stamper make name).keeps fun _ => hrest stamper
      · exact (hchild stamper make name).before fun _ => (hrest stamper).keeps

/-- The panel is asked to put the widget in the place of the element with the id. -/
theorem places_replaceByWidget (e : Nat) (panel child : FieldId) (holder : Text) :
    Places true hosts holder (replaceByWidget e panel child holder) := by
  have hplaces : ∀ (marker panelName childName shown : Text), (∀ expr, Text.Shows holder expr →
      Text.Shows shown (panelName ++ ".AddAndReplaceElement(" ++ childName ++ ", " ++ expr ++
        ")")) → Places true hosts shown (do
        addAttached (panelName ++ ".AddAndReplaceElement(" ++ childName ++ ", " ++
          (← elementById none holder) ++ ")")
        return (Html.element "span" [(Text.ofString "id", marker)] []).render) := by
    intro marker panelName childName shown hshows
    refine Attains.given inferInstance (gives_elementById none holder) fun expr hexpr => ?_
    exact (places_attached (hshows expr hexpr)).before fun _ => inferInstance
  have hpanel : ∀ panelName childName expr : Text, Text.Shows panelName
      (panelName ++ ".AddAndReplaceElement(" ++ childName ++ ", " ++ expr ++ ")") := by
    intro panelName childName expr
    simp only [List.append_assoc]
    exact List.append_assoc panelName _ _ ▸ Text.shows_head rfl _
  have hchild : ∀ panelName childName expr : Text, Text.Shows childName
      (panelName ++ ".AddAndReplaceElement(" ++ childName ++ ", " ++ expr ++ ")") := by
    intro panelName childName expr
    rw [List.append_assoc, List.append_assoc]
    exact (Text.shows_self childName).within (Text.opens_end rfl panelName)
      (Text.closes_start rfl _)
  have hholder : ∀ panelName childName expr : Text, Text.Shows holder expr → Text.Shows holder
      (panelName ++ ".AddAndReplaceElement(" ++ childName ++ ", " ++ expr ++ ")") := by
    intro panelName childName expr hexpr
    exact hexpr.within (Text.opens_end rfl _)
      Text.closes_bracket
  unfold replaceByWidget
  refine Attains.after inferInstance fun marker => ?_
  refine attains_use (fun panelName => ?_) fun panelName => ?_
  · refine attains_use (fun childName => ?_) fun childName => ?_
    · exact hplaces marker panelName childName holder (hholder panelName childName)
    · exact hplaces marker panelName childName childName fun expr _ => hchild _ _ expr
  · refine attains_use (fun childName => ?_) fun childName => ?_
    · exact hplaces marker panelName childName panelName fun expr _ => hpanel _ _ expr
    · exact hplaces marker panelName childName childName fun expr _ => hchild _ _ expr

instance [∀ e, Keeps (Runs false []) (build e)] (panel : FieldId) (stamped : Bool) (e : Nat) :
    Keeps (Runs true hosts) (placeWidget build panel stamped e) := by
  unfold placeWidget
  refine Keeps.bind' inferInstance fun d => Keeps.bind' inferInstance fun type => ?_
  refine Keeps.bind' inferInstance fun child => ?_
  have hplaces : ∀ holder, Places true hosts holder
      (if stamped then stampWidget e child holder else replaceByWidget e panel child holder) := by
    intro holder
    split
    · exact places_stampWidget e child holder
    · exact places_replaceByWidget e panel child holder
  exact keeps_read reads_declareId fun holder _ => hplaces holder

instance (e : Nat) (type : Option TypeId) :
    Keeps (Runs inSection hosts) (valueFrom e type) := by
  unfold valueFrom
  infer_instance

instance (kind : ContentKind) (e : Nat) :
    Keeps (Runs inSection hosts) (textValue kind e) := by
  unfold textValue
  infer_instance

instance (e : Nat) :
    Keeps (Runs inSection hosts) (markupValue e) := by
  unfold markupValue
  repeat' (first | infer_instance | split | refine Keeps.bind' inferInstance fun _ => ?_)

instance (count : Nat) (pieces : List Marker.Piece) :
    Keeps (Runs inSection hosts) (literalParts count pieces) := by
  induction pieces generalizing count with
  | nil =>
    unfold literalParts
    infer_instance
  | cons piece rest ih =>
    cases piece with
    | plain run =>
      unfold literalParts
      infer_instance
    | marker digits =>
      unfold literalParts
      infer_instance

instance [∀ n, Keeps (Runs inSection hosts) (slot n)] (e : Nat) :
    Keeps (Runs inSection hosts) (renderSlots slot e) := by
  unfold renderSlots
  infer_instance

instance [∀ n, Keeps (Runs inSection hosts) (slot n)] (e : Nat) :
    Keeps (Runs inSection hosts) (placeholder slot e) := by
  unfold placeholder
  infer_instance

instance [∀ n, Keeps (Runs inSection hosts) (slot n)] (e : Nat) (literal : Text) (count : Nat)
    (slots : List Nat) : Keeps (Runs inSection hosts) (messageParts slot e literal count slots) := by
  induction slots generalizing literal count with
  | nil =>
    unfold messageParts
    infer_instance
  | cons c rest ih =>
    unfold messageParts
    repeat' (first | infer_instance | split | refine Keeps.bind' inferInstance fun _ => ?_)

instance [∀ n, Keeps (Runs inSection hosts) (slot n)] (kind : ContentKind) (e : Nat) :
    Keeps (Runs inSection hosts) (message kind slot e) := by
  unfold message
  infer_instance

instance (e : Nat) (attributes : List (Nat × Markup.Attribute)) :
    Keeps (Runs inSection hosts) (markupAttributes e attributes) := by
  induction attributes with
  | nil =>
    unfold markupAttributes
    infer_instance
  | cons a rest ih =>
    unfold markupAttributes
    infer_instance

instance (e : Nat) : Keeps (Runs inSection hosts) (checkName e) := by
  unfold checkName
  infer_instance

instance [∀ n, Keeps (Runs inSection hosts) (slot n)] (e : Nat) :
    Keeps (Runs inSection hosts) (markupElement slot e) := by
  unfold markupElement
  infer_instance

/-- Content of this kind stands in an attach section. -/
abbrev isAttached : ContentKind → Bool
  | .plainText => false
  | .markup attached panel _ => attached || panel.isSome

instance [∀ e, Keeps (Runs false []) (build e)] (kind : ContentKind)
    [∀ n, Keeps (Runs (isAttached kind) hosts) (slot n)] (e : Nat) :
    Keeps (Runs (isAttached kind) hosts) (interpret? build kind slot e) := by
  cases kind with
  | plainText =>
    unfold interpret?
    infer_instance
  | markup attached panel stamped =>
    unfold interpret?
    refine Keeps.bind' inferInstance fun d => ?_
    dsimp only
    refine Keeps.bind' inferInstance fun _ => Keeps.bind' inferInstance fun _ => ?_
    -- fields of markup are bound, and widgets placed, only inside a section
    have hplace : ∀ p stamped, Keeps (Runs (attached || (some p).isSome) hosts)
        (placeWidget build p stamped e) := by
      intro p stamped
      rw [Option.isSome_some, Bool.or_true]
      infer_instance
    have hbind : attached = true →
        Keeps (Runs (attached || panel.isSome) hosts) (bindField e) := by
      rintro rfl
      rw [Bool.true_or]
      infer_instance
    cases attached with
    | false =>
      rw [if_neg (by simp)]
      cases panel <;> dsimp only <;> infer_instance
    | true =>
      have := hbind rfl
      rw [if_pos rfl]
      cases panel <;> dsimp only <;> infer_instance

instance [∀ e, Keeps (Runs false []) (build e)] (kind : ContentKind)
    [∀ n, Keeps (Runs (isAttached kind) hosts) (slot n)] (e : Nat) :
    Keeps (Runs (isAttached kind) hosts) (renderElement build kind slot e) := by
  unfold renderElement
  repeat' (first | infer_instance | split | refine Keeps.bind' inferInstance fun _ => ?_)

instance [∀ e, Keeps (Runs false []) (build e)] (kind : ContentKind) (fuel n : Nat) :
    Keeps (Runs (isAttached kind) hosts) (renderSlot build kind fuel n) := by
  induction fuel generalizing n with
  | zero =>
    unfold renderSlot
    infer_instance
  | succ fuel ih =>
    unfold renderSlot
    repeat' (first | infer_instance | split | refine Keeps.bind' inferInstance fun _ => ?_)

theorem keeps_inner [∀ e, Keeps (Runs false []) (build e)] (kind : ContentKind) (e : Nat) :
    Keeps (Runs (isAttached kind) hosts) (inner build kind e) := by
  unfold inner
  infer_instance

theorem keeps_outer [∀ e, Keeps (Runs false []) (build e)] (kind : ContentKind) (e : Nat) :
    Keeps (Runs (isAttached kind) hosts) (outer build kind e) := by
  unfold outer
  infer_instance

instance [h : ∀ e, Keeps (Runs false []) (build e)] (e : Nat) :
    Keeps (Runs inSection hosts) (markupLiteral build e) := by
  have : Keeps (Runs inSection hosts) (inner build (.markup false none false) e) :=
    keeps_inside (keeps_inner (.markup false none false) e)
  unfold markupLiteral
  infer_instance

end Content

/-! ## Constructing fields -/

namespace Element

variable {build : Builder} [∀ e, Keeps (Runs false []) (build e)]

instance (e : Nat) (names : List Text) (params : List Param) :
    Leads (Runs inSection hosts) (bindArguments e names params) := by
  unfold bindArguments
  infer_instance

instance (e : Nat) (type : TypeId) : Keeps (Runs inSection hosts) (constructed e type) := by
  unfold constructed
  repeat' (first | infer_instance | split | refine Keeps.bind' inferInstance fun _ => ?_ |
    dsimp only)

instance (e : Nat) (type : TypeId) : Keeps (Runs inSection hosts) (initializer e type) := by
  unfold initializer
  repeat' (first | infer_instance | split | refine Keeps.bind' inferInstance fun _ => ?_)

instance (e : Nat) (failure : Failure) : Leads (Runs inSection hosts) (reportFailure e failure) :=
  ⟨fun _ => (Run.draft (Draft.Calm.log _)).runs⟩

instance (e : Nat) (f : FieldId) (type : TypeId) (i : Nat) (a : Markup.Attribute) :
    Keeps (Runs inSection hosts) (setProperty e f type i a) := by
  unfold setProperty
  repeat' (first | infer_instance | split | refine Keeps.bind' inferInstance fun _ => ?_ |
    dsimp only)

theorem isClosed_callText (function : Text) (args : List Text) :
    Text.IsClosed (callText function args) := isClosed_call function _

instance (f : FieldId) (function : Text) (args : List Text) :
    Keeps (Runs inSection hosts)
      (liftM (Draft.setInitializer f (callText function args)) : Work Session Unit) :=
  keeps_make (isClosed_callText function args) f

theorem gives_call (m : Method) (args : List Text) : Gives Text.IsClosed
    (do return callText (← Draft.qualify type m.name) args : Work Session Text) := by
  intro s expr s' h
  obtain ⟨function, _, -, h⟩ := Work.bind_ok h
  cases h
  exact isClosed_callText function args

theorem gives_plain (e : Nat) (type : TypeId) (plain : Option Method)
    (problem : Document → Problem) : Gives Text.IsClosed
      (match plain with
        | some m => do return callText (← Draft.qualify type m.name) []
        | none => failOn e problem : Work Session Text) := by
  intro s expr s' h
  cases plain with
  | none => cases h
  | some m => exact gives_call m [] h

theorem gives_constructed (e : Nat) (type : TypeId) : Gives Text.IsClosed (constructed e type) := by
  intro s expr s' h
  unfold constructed at h
  obtain ⟨c, _, -, h⟩ := Work.bind_ok h
  dsimp only at h
  split at h
  · rename_i m _
    obtain ⟨doc, _, -, h⟩ := Work.bind_ok h
    split at h
    · obtain ⟨args, _, -, h⟩ := Work.bind_ok h
      exact gives_call m args h
    · exact gives_plain e type _ _ h
  · exact gives_plain e type _ _ h

/-- A value is made by a call. -/
theorem gives_initializer (e : Nat) (type : TypeId) : Gives Text.IsClosed (initializer e type) := by
  intro s expr s' h
  unfold initializer at h
  obtain ⟨_, _, hget, h⟩ := Work.bind_ok h
  cases hget
  split at h
  · rename_i factory _
    obtain ⟨args, _, -, h⟩ := Work.bind_ok h
    cases h
    obtain ⟨front, hcall | hobject⟩ := isClosed_callText factory.name args
    · exact ⟨"owner." ++ front, Or.inl (by rw [hcall, List.append_assoc])⟩
    · exact ⟨"owner." ++ front, Or.inr (by rw [hobject, List.append_assoc])⟩
  · exact gives_constructed e type h

/-- Attributes become calls of setters. -/
theorem keeps_setters (e : Nat) (f : FieldId) (type : TypeId) :
    Keeps (Runs inSection (f :: hosts)) (do
      let attributes := ((← getDocument).remaining e).filter fun a => a.2.name.uri.isEmpty
      let answers ← attributes.mapM fun (i, a) => setProperty e f type i a
      if !answers.all id then
        match (← get).log.failure? with
        | some failure => throw failure
        | none => return () : Work Session Unit) := by
  refine Keeps.bind' inferInstance fun d => Keeps.bind' inferInstance fun answers => ?_
  repeat' (first | infer_instance | split | refine Keeps.bind' inferInstance fun _ => ?_)

theorem settles_properties (e : Nat) (f : FieldId) (type : TypeId) :
    Settles inSection hosts f (properties e f type) := by
  have hsetters : Keeps (Runs inSection (f :: hosts)) _ := keeps_setters e f type
  unfold properties
  refine settles_unlessMade ?_ hsetters
  refine Attains.given inferInstance (gives_initializer e type) fun expr hexpr => ?_
  exact (settles_make hexpr f).before fun _ => hsetters

instance (e : Nat) : Leads (Runs inSection hosts) (nothingLeft e) := by
  unfold nothingLeft
  infer_instance

instance (e : Nat) : Keeps (Runs inSection hosts) (attributeMessages e) := by
  unfold attributeMessages
  infer_instance

instance (e : Nat) (wanted : Option TypeId) :
    Keeps (Runs inSection hosts) (onlyChild build e wanted) := by
  unfold onlyChild
  infer_instance

instance (e : Nat) : Keeps (Runs inSection hosts) (onlyWidget build e) := by
  unfold onlyWidget
  infer_instance

instance (e : Nat) (f : FieldId) (child used : Nat) (slot : ChildSlot) :
    Keeps (Runs inSection (f :: hosts)) (childTag build e f child used slot) := by
  unfold childTag
  repeat' (first | infer_instance | split)

instance (e : Nat) (f : FieldId) (d : Descriptor) (seen : List Text) (children : List Nat) :
    Keeps (Runs inSection (f :: hosts)) (childTagsFrom build e f d seen children) := by
  induction children generalizing seen with
  | nil =>
    unfold childTagsFrom
    infer_instance
  | cons child rest ih =>
    unfold childTagsFrom
    repeat' (first | infer_instance | split | refine Keeps.bind' inferInstance fun _ => ?_ |
      dsimp only)

instance (e : Nat) (f : FieldId) (type : TypeId) :
    Keeps (Runs inSection (f :: hosts)) (childTags build e f type) := by
  unfold childTags
  infer_instance

/-! ## Bodies -/

instance (e : Nat) (f : FieldId) : Keeps (Runs inSection hosts) (styledObject e f) := by
  unfold styledObject
  repeat' (first | infer_instance | split | refine Keeps.bind' inferInstance fun _ => ?_ |
    refine Keeps.bind' (Keeps.forIn' fun _ _ => ?_) fun _ => ?_)

instance (e : Nat) (f : FieldId) : Keeps (Runs inSection hosts) (bodyText build e f) := by
  have : Keeps (Runs inSection hosts) (Content.inner build .plainText e) :=
    keeps_inside (Content.keeps_inner .plainText e)
  unfold bodyText
  infer_instance

instance (e : Nat) (f : FieldId) : Keeps (Runs inSection hosts) (bodyMarkup build e f) := by
  unfold bodyMarkup
  infer_instance

instance (e : Nat) (f : FieldId) (type : TypeId) :
    Keeps (Runs inSection hosts) (domElement build e f type) := by
  have : Keeps (Runs true hosts) (Content.outer build (.markup true none false) e) :=
    Content.keeps_outer (.markup true none false) e
  unfold domElement
  simp only [pure_bind]
  repeat' (first | infer_instance | split | refine Keeps.bind' inferInstance fun _ => ?_)

instance (e : Nat) (f : FieldId) (stamped : Bool) :
    Keeps (Runs inSection hosts) (panelLiteral build e f stamped) := by
  have : Keeps (Runs true hosts) (Content.inner build (.markup true (some f) stamped) e) :=
    Content.keeps_inner (.markup true (some f) stamped) e
  unfold panelLiteral
  infer_instance

instance (e : Nat) (f : FieldId) (type : TypeId) :
    Keeps (Runs inSection hosts) (markupPanel build e f type) := by
  unfold markupPanel
  repeat' (first | infer_instance | split | refine Keeps.bind' inferInstance fun _ => ?_)

instance (e : Nat) (f : FieldId) (type : TypeId) :
    Keeps (Runs inSection hosts) (stampedPanel build e f type) := by
  unfold stampedPanel
  infer_instance

/-! ## Panels -/

instance (e child : Nat) : Keeps (Runs inSection hosts) (widgetChild build e child) := by
  unfold widgetChild
  infer_instance

instance (allowed : Text) (parent child : Nat) :
    Leads (Runs inSection hosts) (failOnlyChildren allowed parent child : Work Session α) := by
  unfold failOnlyChildren
  infer_instance

instance (e : Nat) (f : FieldId) : Keeps (Runs inSection (f :: hosts)) (widgets build e f) := by
  unfold widgets
  infer_instance

instance (e : Nat) (f : FieldId) : Keeps (Runs inSection hosts) (alignment e f) := by
  unfold alignment
  repeat' (first | infer_instance | split | refine Keeps.bind' inferInstance fun _ => ?_ |
    refine Keeps.bind' (Keeps.forIn' fun _ _ => ?_) fun _ => ?_)

instance (e : Nat) (f : FieldId) (child centers : Nat) :
    Keeps (Runs inSection (f :: hosts)) (dockCenter build e f child centers) := by
  unfold dockCenter
  infer_instance

instance (e : Nat) (f : FieldId) (child : Nat) :
    Keeps (Runs inSection (f :: hosts)) (dockSide build e f child) := by
  unfold dockSide
  repeat' (first | infer_instance | split | refine Keeps.bind' inferInstance fun _ => ?_)

instance (e : Nat) (f : FieldId) (centers : Nat) (children : List Nat) :
    Keeps (Runs inSection (f :: hosts)) (dockFrom build e f centers children) := by
  induction children generalizing centers with
  | nil =>
    unfold dockFrom
    infer_instance
  | cons child rest ih =>
    unfold dockFrom
    infer_instance

instance (e : Nat) (f : FieldId) : Keeps (Runs inSection (f :: hosts)) (dock build e f) := by
  unfold dock
  infer_instance

instance (e tag : Nat) (sized : Bool) : Keeps (Runs inSection hosts) (readHeader build e tag sized) := by
  unfold readHeader
  repeat' (first | infer_instance | split | refine Keeps.bind' inferInstance fun _ => ?_)

instance (e item : Nat) (header : Option Nat) (content : Option FieldId) (slots : List Nat) :
    Keeps (Runs inSection hosts) (splitItem build e item header content slots) := by
  induction slots generalizing header content with
  | nil =>
    unfold splitItem
    repeat' (first | infer_instance | split)
  | cons child rest ih =>
    unfold splitItem
    infer_instance

instance (e item : Nat) : Keeps (Runs inSection hosts) (readItem build e item) := by
  unfold readItem
  infer_instance

instance (e : Nat) (f : FieldId) : Keeps (Runs inSection (f :: hosts)) (stack build e f) := by
  -- the content is read, and the header if it is a widget
  have hadd : ∀ (content : FieldId) (header : Header) (size : Option Text),
      Keeps (Runs inSection (f :: hosts)) (do
        let name ← Draft.use content
        match header with
        | .widget g => call f "AddStackWidget" ([name, ← Draft.use g] ++ size.toList)
        | .markup html => call f "AddStack" ([name, html, "true"] ++ size.toList)
        pure (ForInStep.yield PUnit.unit) : Work Session (ForInStep PUnit)) := by
    intro content header size
    cases header with
    | widget g => exact keeps_useBoth (by simp) (by simp) fun _ _ _ => inferInstance
    | markup html => exact keeps_useCall (by simp) fun _ _ => inferInstance
  unfold stack
  refine Keeps.bind' inferInstance fun children => ?_
  refine Keeps.bind' (Keeps.forIn' fun child _ => ?_) fun _ => inferInstance
  infer_instance

instance (e : Nat) (f : FieldId) : Keeps (Runs inSection (f :: hosts)) (tabs build e f) := by
  have hadd : ∀ (content : FieldId) (header : Header),
      Keeps (Runs inSection (f :: hosts)) (do
        let name ← Draft.use content
        match header with
        | .widget g => call f "AddTabWidget" [name, ← Draft.use g]
        | .markup html => call f "AddTab" [name, html, "true"]
        pure (ForInStep.yield PUnit.unit) : Work Session (ForInStep PUnit)) := by
    intro content header
    cases header with
    | widget g => exact keeps_useBoth (by simp) (by simp) fun _ _ _ => inferInstance
    | markup html => exact keeps_useCall (by simp) fun _ _ => inferInstance
  unfold tabs
  refine Keeps.bind' inferInstance fun children => ?_
  refine Keeps.bind' (Keeps.forIn' fun child _ => ?_) fun _ => inferInstance
  infer_instance

instance (e : Nat) (pairs : List (Text × Text)) : Keeps (Runs inSection hosts) (pickPair e pairs) := by
  unfold pickPair
  repeat' (first | infer_instance | split | refine Keeps.bind' inferInstance fun _ => ?_)

instance (e : Nat) (pairs : List (Text × Text)) : Keeps (Runs inSection hosts) (placement? e pairs) := by
  unfold placement?
  repeat' (first | infer_instance | split | refine Keeps.bind' inferInstance fun _ => ?_)

instance (e : Nat) (f : FieldId) : Keeps (Runs inSection (f :: hosts)) (layers build e f) := by
  have hplace : ∀ (calls : List Text) (name : Text), Keeps (Runs inSection (f :: hosts))
      (forIn calls PUnit.unit fun placed _ => do
        Draft.addStatement f ((← nameOf f) ++ "." ++ Text.replaceAll placed widgetMark name)
        pure (ForInStep.yield PUnit.unit)) := fun calls name =>
    Keeps.forIn' fun placed _ => keeps_statement (fun _ => ⟨_, rfl⟩) fun _ _ => inferInstance
  unfold layers
  refine Keeps.bind' inferInstance fun children => ?_
  refine Keeps.bind' (Keeps.forIn' fun child _ => ?_) fun _ => inferInstance
  repeat' (first | infer_instance | refine Keeps.bind' inferInstance fun _ => ?_ | split)

instance (e : Nat) (f : FieldId) : Keeps (Runs inSection (f :: hosts)) (absolute build e f) := by
  unfold absolute
  repeat' (first | infer_instance | split | refine Keeps.bind' inferInstance fun _ => ?_ |
    refine Keeps.bind' (Keeps.forIn' fun _ _ => ?_) fun _ => ?_)

/-- The statement that adds the widget of a cell calls a method of the panel with the widget in
front. -/
theorem keeps_cell (f : FieldId) (tag : Nat) (method tail : Text) {b : UInt8}
    (hmethod : '%'.toUInt8 ∉ method) (hb : b ∈ Text.closing) :
    Keeps (Runs inSection (f :: hosts))
      (cell build f tag ("%s." ++ method ++ "(%s" ++ b :: tail)) := by
  have hfill : ∀ host name, ∃ rest, Pattern.fill ("%s." ++ method ++ "(%s" ++ b :: tail)
      [host, name] = host ++ "." ++ method ++ "(" ++ name ++ b :: rest := by
    have hplain : ∀ b ∈ Text.closing, b ≠ '%'.toUInt8 := forall_of_all (by decide)
    exact fun host name => Pattern.fill_argument hmethod (hplain b hb) host name
  unfold cell
  -- the attributes first, then the widget; the statement stands between its name and its settings
  refine Keeps.bind' (Keeps.mapM' fun _ => ?_) fun _ => ?_
  · repeat' (first | infer_instance | split | refine Keeps.bind' inferInstance fun _ => ?_)
  · refine Keeps.bind' inferInstance fun _ => Keeps.bind' inferInstance fun _ => ?_
    refine keeps_use fun name => places_statement List.mem_cons_self (fun host => ?_)
      (fun host => ?_) fun _ _ => inferInstance
    · obtain ⟨rest, hfilled⟩ := hfill host name
      rw [hfilled]
      exact ⟨method ++ "(" ++ name ++ b :: rest, by simp only [List.append_assoc]⟩
    · obtain ⟨rest, hfilled⟩ := hfill host name
      rw [hfilled]
      exact (Text.shows_self name).within (Text.opens_end rfl _)
        (Or.inr ⟨b, hb, rest, rfl⟩)

instance (e : Nat) (f : FieldId) (type : TypeId) (child : Nat) :
    Keeps (Runs inSection (f :: hosts)) (dockCell build e f type child) := by
  have : ∀ expr, Keeps (Runs inSection (f :: hosts))
      (cell build f child ("%s.AddAt(%s, " ++ expr ++ ")")) := fun expr =>
    keeps_cell f child "AddAt" (' '.toUInt8 :: (expr ++ ")")) (by decide) (by decide)
  unfold dockCell
  repeat' (first | infer_instance | split | refine Keeps.bind' inferInstance fun _ => ?_)

instance (e : Nat) (f : FieldId) (type : TypeId) :
    Keeps (Runs inSection (f :: hosts)) (cells build e f type) := by
  have : ∀ child, Keeps (Runs inSection (f :: hosts)) (cell build f child "%s.Add(%s)") :=
    fun child => keeps_cell f child "Add" [] (by decide) (by decide)
  unfold cells
  repeat' (first | infer_instance | split | refine Keeps.bind' inferInstance fun _ => ?_ |
    refine Keeps.bind' (Keeps.forIn' fun _ _ => ?_) fun _ => ?_)

instance (f : FieldId) (tag : Nat) : Keeps (Runs inSection hosts) (headerImages f tag) := by
  unfold headerImages
  infer_instance

instance (e : Nat) (f : FieldId) (filled : Bool) (children : List Nat) :
    Keeps (Runs inSection (f :: hosts)) (disclosureFrom build e f filled children) := by
  induction children generalizing filled with
  | nil =>
    unfold disclosureFrom
    infer_instance
  | cons child rest ih =>
    unfold disclosureFrom
    repeat' (first | infer_instance | split | refine Keeps.bind' inferInstance fun _ => ?_)

instance (e : Nat) (f : FieldId) : Keeps (Runs inSection (f :: hosts)) (disclosure build e f) := by
  unfold disclosure
  infer_instance

/-! ## Items -/

instance (child : Nat) (wanted : Option TypeId) : Keeps (Runs inSection hosts) (isOf child wanted) := by
  unfold isOf
  infer_instance

instance (e : Nat) (f : FieldId) (type : TypeId) :
    Keeps (Runs inSection (f :: hosts)) (menuBar build e f type) := by
  unfold menuBar
  repeat' (first | infer_instance | split | refine Keeps.bind' inferInstance fun _ => ?_ |
    refine Keeps.bind' (Keeps.forIn' fun _ _ => ?_) fun _ => ?_)

instance (e : Nat) : Keeps (Runs inSection hosts) (menuText build e) := by
  unfold menuText
  repeat' (first | infer_instance | split | refine Keeps.bind' inferInstance fun _ => ?_)

instance (e : Nat) (f : FieldId) (type : TypeId) :
    Keeps (Runs inSection (f :: hosts)) (menuItem build e f type) := by
  unfold menuItem
  repeat' (first | infer_instance | split | refine Keeps.bind' inferInstance fun _ => ?_)

instance (e : Nat) (f : FieldId) : Keeps (Runs inSection hosts) (listBox e f) := by
  unfold listBox
  repeat' (first | infer_instance | split | refine Keeps.bind' inferInstance fun _ => ?_ |
    refine Keeps.bind' (Keeps.forIn' fun _ _ => ?_) fun _ => ?_)

instance (e row child : Nat) : Keeps (Runs inSection hosts) (gridCell build e row child) := by
  unfold gridCell
  repeat' (first | infer_instance | split | refine Keeps.bind' inferInstance fun _ => ?_)

instance (e row : Nat) : Keeps (Runs inSection hosts) (gridRow build e row) := by
  unfold gridRow
  repeat' (first | infer_instance | split | refine Keeps.bind' inferInstance fun _ => ?_)

instance (f : FieldId) (row column : Nat) (cell : GridCell) :
    Keeps (Runs inSection (f :: hosts)) (fillCell f row column cell) := by
  obtain ⟨content, style⟩ := cell
  unfold fillCell
  cases content with
  | markup html => cases style <;> infer_instance
  | widget g => cases style <;> exact keeps_useCall (by simp) fun _ _ => inferInstance

instance (e : Nat) (f : FieldId) : Keeps (Runs inSection (f :: hosts)) (grid build e f) := by
  unfold grid
  repeat' (first | infer_instance | split | refine Keeps.bind' inferInstance fun _ => ?_ |
    refine Keeps.bind' (Keeps.forIn' fun _ _ => ?_) fun _ => ?_)

instance (e : Nat) (f : FieldId) (setWidget : Option Method) (held : Bool) (children : List Nat) :
    Keeps (Runs inSection (f :: hosts)) (treeItemsFrom build e f setWidget held children) := by
  induction children generalizing held with
  | nil =>
    unfold treeItemsFrom
    infer_instance
  | cons child rest ih =>
    unfold treeItemsFrom
    repeat' (first | infer_instance | split)

instance (e : Nat) (f : FieldId) (type : TypeId) :
    Keeps (Runs inSection (f :: hosts)) (treeItems build e f type) := by
  unfold treeItems
  infer_instance

instance (e : Nat) (f : FieldId) (seen : List Text) (found : List Nat) :
    Keeps (Runs inSection hosts) (facesFrom build e f seen found) := by
  induction found generalizing seen with
  | nil =>
    unfold facesFrom
    infer_instance
  | cons child rest ih =>
    unfold facesFrom
    repeat' (first | infer_instance | split | refine Keeps.bind' inferInstance fun _ => ?_ |
      dsimp only)

instance (e : Nat) (f : FieldId) : Keeps (Runs inSection hosts) (faces build e f) := by
  unfold faces
  infer_instance

instance (e : Nat) (f : FieldId) (type : TypeId) : Keeps (Runs inSection hosts) (image e f type) := by
  unfold image
  repeat' (first | infer_instance | split | refine Keeps.bind' inferInstance fun _ => ?_)

/-! ## Building elements -/

instance (e : Nat) (f : FieldId) (type : TypeId) :
    Keeps (Runs inSection (f :: hosts)) (properties e f type) :=
  (settles_properties e f type).keeps

instance (e : Nat) (f : FieldId) (type : TypeId) (rule : Rule) :
    Keeps (Runs inSection (f :: hosts)) (follow build e f type rule) := by
  cases rule <;> (unfold follow; infer_instance)

instance (e : Nat) (type : Option TypeId) : Keeps (Runs inSection hosts) (declaredName? e type) := by
  unfold declaredName?
  repeat' (first | infer_instance | split | refine Keeps.bind' inferInstance fun _ => ?_)

instance (e : Nat) (type : Option TypeId) : Keeps (Runs inSection hosts) (fieldName e type) := by
  unfold fieldName
  refine Keeps.bind' inferInstance fun declared => ?_
  split
  · split <;> infer_instance
  · exact ⟨fun h => by cases h; exact (Run.draft (Draft.Calm.counter _)).runs⟩

/-- The owner provides the field under the name it was declared by, or nothing happens. -/
theorem provide_ok {f : FieldId} {name : Text} {s s' : Session} {a : Unit}
    (h : (provide f name).runOn s = (.ok a, s')) :
    s' = s ∧ (∀ u, ¬ s.Provides name u) ∨ ∃ u, s.Provides name u ∧
      (s.fields.field f).initializer = none ∧ s' = { s with
        fields := (s.fields.change f ({ · with provided := true })).change f
          ({ · with initializer := some ("owner." ++ u.name) }) } := by
  unfold provide at h
  obtain ⟨_, _, hget, h⟩ := Work.bind_ok h
  cases hget
  split at h
  · rename_i u hfound
    split at h
    · rename_i hprovided
      obtain ⟨_, s₁, hchange, h⟩ := Work.bind_ok h
      cases hchange
      obtain ⟨hnone, rfl⟩ := setInitializer_ok h
      have hsame := s.fields.field_change_apply f f ({ · with provided := true })
        (·.initializer) fun _ => rfl
      exact Or.inr ⟨u, ⟨hfound, hprovided⟩, hsame.symm.trans hnone, rfl⟩
    · rename_i hprovided
      cases h
      refine Or.inl ⟨rfl, fun u' hu' => hprovided ?_⟩
      rw [Option.some.inj (hfound.symm.trans hu'.1)]
      exact hu'.2
  · rename_i hnone
    cases h
    refine Or.inl ⟨rfl, fun u hu => ?_⟩
    rw [hu.1] at hnone
    cases hnone

/-- A field that nothing is known of yet comes to honour the owner. -/
theorem run_provide {f : FieldId} {s s' : Session} {a : Unit} (hid : f < s.fields.fields.size)
    (hnew : (s.fields.field f).provided = false)
    (h : (provide f (s.fields.field f).declared).runOn s = (.ok a, s')) :
    Run s s' ∧ s'.Honours f := by
  rcases provide_ok h with ⟨rfl, hnone⟩ | ⟨u, hu, hnone, rfl⟩
  · refine ⟨Run.refl _, iff_of_false (by simp [hnew]) fun ⟨u, hu⟩ => hnone u hu⟩
  · have hrun := Run.provide hu hnone
    refine ⟨hrun, iff_of_true ?_ ⟨u, ?_⟩⟩
    · rw [FieldTable.field_change_self (by simpa using hid), FieldTable.field_change_self hid]
    · rw [(hrun.fields.extends.field f hid).declared]
      exact hrun.provides.mpr hu

/-- A field that the owner may provide, and that is settled by what follows. -/
theorem declareProvide_ok {precedence : Precedence} {type : Option TypeId} {name : Text}
    {id : FieldId} {w : Work Session α} {s s' s₁ s'' : Session} {a : α} {b : Unit}
    (h : Settles inSection hosts id w) (hready : s.Ready inSection hosts)
    (hdeclare : (liftM (Draft.register precedence type name) : Work Session FieldId).runOn s =
      (.ok id, s'))
    (hprovide : (provide id name).runOn s' = (.ok b, s₁))
    (hok : w.runOn s₁ = (.ok a, s'')) : Run s s'' ∧ IsSettled id s'' := by
  obtain ⟨fields, hregister, rfl⟩ := register_ok hdeclare
  obtain ⟨-, needs, hfield⟩ := FieldTable.field_register hregister
  have hdeclared : (fields.field id).declared = name := congrArg Field.declared hfield
  have hnew : (fields.field id).provided = false := congrArg Field.provided hfield
  have hready' := ready_registered hready hregister
  have hid : id < fields.fields.size := hready'.hosted id List.mem_cons_self
  obtain ⟨hrun₁, hhonours⟩ : Run { s with fields } s₁ ∧ s₁.Honours id :=
    run_provide hid hnew (hdeclared.symm ▸ hprovide)
  obtain ⟨hrun₂, hsettled⟩ := h.attains (hrun₁.ready hready') hok
  have hkept := hrun₂.honours (Nat.lt_of_lt_of_le hid hrun₁.fields.extends.size) hhonours
  exact ⟨Run.declare hregister (hrun₁.trans hrun₂) hsettled.2 (Or.inl hkept), hsettled⟩

theorem inside_ok {e : Nat} {f : FieldId} {w : Work Session α} {s s' : Session} {a : α}
    (h : (inside e f w).runOn s = (.ok a, s')) :
    ∃ s'', w.runOn { s with fields := s.fields.enter e f } = (.ok a, s'') ∧
      s' = { s'' with fields := s''.fields.leave } := by
  unfold inside at h
  rw [Work.runOn_bind, Work.runOn_modify] at h
  simp only [Work.runOn_andThenAlways] at h
  rcases hrun : w.runOn { s with fields := s.fields.enter e f } with ⟨answer, s''⟩
  rw [hrun] at h
  cases h
  exact ⟨s'', rfl, rfl⟩

theorem settles_inside {e : Nat} {f id : FieldId} {w : Work Session α}
    (h : Settles inSection hosts id w) : Settles inSection hosts id (inside e f w) := by
  refine ⟨fun {s a s'} hready hok => ?_⟩
  obtain ⟨s'', hrun, rfl⟩ := inside_ok hok
  have henter : Run s { s with fields := s.fields.enter e f } := Run.draft (Draft.Calm.stack _)
  have hleave : Run s'' { s'' with fields := s''.fields.leave } := Run.draft (Draft.Calm.stack _)
  obtain ⟨hbody, hsettled⟩ := h.attains (henter.ready hready) hrun
  exact ⟨(henter.trans hbody).trans hleave, Persisting.lasts hleave hsettled⟩

/-- The last rules but one make the field, if nothing made it before. -/
theorem settles_rules (e : Nat) (f : FieldId) (type : TypeId)
    (c : Catalog) : Settles inSection hosts f ((Rule.chain c type).forM (follow build e f type)) := by
  have hlast : Settles inSection hosts f
      ([Rule.properties, Rule.nothingLeft].forM (follow build e f type)) :=
    (settles_properties e f type).before fun _ =>
      inferInstanceAs (Keeps _ ([Rule.nothingLeft].forM (follow build e f type)))
  unfold Rule.chain
  generalize [Rule.attributeMessages, Rule.childTags] ++ (Rule.entriesOf c type).map (·.rule)
    = front
  induction front with
  | nil => exact hlast
  | cons rule rest ih => exact Attains.after inferInstance fun _ => ih

/-- The field of an element is settled when the element is built. -/
theorem buildWith_ok {e : Nat} {f : FieldId} {s s' : Session} (hready : s.Ready inSection hosts)
    (h : (buildWith build e).runOn s = (.ok f, s')) : Run s s' ∧ IsSettled f s' := by
  unfold buildWith at h
  obtain ⟨c, _, hcatalog, h⟩ := Work.bind_ok h
  cases hcatalog
  obtain ⟨d, _, hdocument, h⟩ := Work.bind_ok h
  cases hdocument
  obtain ⟨type, s₁, htype, h⟩ := Work.bind_ok h
  have hrun₁ := Keeps.keeps (R := Runs inSection hosts) htype hready
  obtain ⟨name, s₂, hname, h⟩ := Work.bind_ok h
  have hrun := hrun₁.trans (Keeps.keeps (R := Runs inSection hosts) hname (hrun₁.ready hready))
  obtain ⟨id, s₃, hdeclare, h⟩ := Work.bind_ok h
  obtain ⟨_, s₄, hprovide, h⟩ := Work.bind_ok h
  cases type with
  | none => cases h
  | some t =>
    obtain ⟨_, _, hinside, h⟩ := Work.bind_ok h
    cases h
    have hsettles : Settles inSection hosts f
        (inside e f ((Rule.chain s.catalog t).forM (follow build e f t))) :=
      settles_inside (settles_rules e f t s.catalog)
    obtain ⟨hbuilt, hsettled⟩ :=
      declareProvide_ok hsettles (hrun.ready hready) hdeclare hprovide hinside
    exact ⟨hrun.trans hbuilt, hsettled⟩

instance (e : Nat) : Keeps (Runs inSection hosts) (buildWith build e) :=
  ⟨fun h hready => (buildWith_ok hready h).1⟩

instance (fuel e : Nat) : Keeps (Runs inSection hosts) (buildWithin fuel e) := by
  suffices h : ∀ e, Keeps (Runs false []) (buildWithin fuel e) from keeps_inside (h e)
  induction fuel with
  | zero => exact fun e => inferInstanceAs (Keeps _ (throw _))
  | succ fuel ih => exact fun e => inferInstanceAs (Keeps _ (buildWith _ e))

instance (e : Nat) : Keeps (Runs inSection hosts) (Element.build e) := by
  unfold Element.build
  infer_instance

theorem build_ok {e : Nat} {f : FieldId} {s s' : Session}
    (h : (Element.build e).runOn s = (.ok f, s')) : IsSettled f s' := by
  unfold Element.build at h
  obtain ⟨d, _, hget, h⟩ := Work.bind_ok h
  generalize d.nodes.size = fuel at h
  cases fuel with
  | zero => cases h
  | succ fuel => exact (buildWith_ok (ready_any _) h).2

end Element

/-! ## Directives -/

namespace Directive

theorem declareField_ok {e : Nat} {precedence : Precedence} {type : TypeId} {name : Text}
    {s s' : Session} {id : FieldId}
    (h : (declareField e precedence type name).runOn s = (.ok id, s')) :
    (liftM (Draft.register precedence type name) : Work Session FieldId).runOn s =
      (.ok id, s') := by
  unfold declareField at h
  split at h
  · obtain ⟨_, _, hfail, _⟩ := Work.bind_ok h
    cases hfail
  · obtain ⟨_, _, hget, h⟩ := Work.bind_ok h
    cases hget
    split at h
    · cases h
    · exact h

theorem attains_declareField {Q : Session → Prop} {e : Nat} {precedence : Precedence}
    {type : TypeId} {name : Text} {k : FieldId → Work Session α}
    (h : ∀ id, Settles inSection hosts id (k id))
    (hspares : ∀ id, SparesOwner inSection hosts precedence id (k id))
    (hQ : ∀ id, Attains inSection (id :: hosts) Q (k id)) :
    Attains inSection hosts Q (declareField e precedence type name >>= k) where
  attains {s a s''} hready hok := by
    obtain ⟨id, s', hfirst, hrest⟩ := Work.bind_ok hok
    exact declare_ok (h id) (hspares id) (hQ id) hready (declareField_ok hfirst) hrest

instance (e : Nat) (name : Text) (problem : Text → Text → Problem) :
    Keeps (Runs inSection hosts) (resolveType e name problem) := by
  unfold resolveType
  repeat' (first | infer_instance | split | refine Keeps.bind' inferInstance fun _ => ?_)

instance (e : Nat) (found : Option Nat) (children : List Nat) :
    Keeps (Runs inSection hosts) (attributesElement e found children) := by
  induction children generalizing found with
  | nil =>
    unfold attributesElement
    infer_instance
  | cons child rest ih =>
    unfold attributesElement
    infer_instance

instance (e : Nat) : Keeps (Runs inSection hosts) (withValue e) := by
  have hsettles : ∀ (f : FieldId) (type : TypeId), Settles inSection hosts f (do
      let target ← attributesElement e none (← Document.takeChildren e)
      Element.inside e f (Element.properties target f type)
      Document.assertNoAttributes target : Work Session Unit) := by
    intro f type
    refine Attains.after inferInstance fun children => Attains.after inferInstance fun target => ?_
    exact (Element.settles_inside (Element.settles_properties target f type)).before
      fun _ => inferInstance
  unfold withValue
  refine Keeps.bind' inferInstance fun name => Keeps.bind' inferInstance fun typeName => ?_
  refine Keeps.bind' inferInstance fun type => ⟨fun {s a s''} hok hready => ?_⟩
  obtain ⟨f, s', hdeclare, hok⟩ := Work.bind_ok hok
  obtain ⟨_, s₁, hprovide, hok⟩ := Work.bind_ok hok
  exact (Element.declareProvide_ok (hsettles f type) hready (declareField_ok hdeclare) hprovide
    hok).1

/-- What the program calls a constant. -/
theorem qualify_ok {t : TypeId} {k : EnumConstant} {expr : Text} {s s' : Session}
    (hk : k ∈ (s.catalog.decl t).constants)
    (h : (liftM (Draft.qualify t k.ident) : Work Session Text).runOn s = (.ok expr, s')) :
    s'.Constant expr := by
  cases h
  exact ⟨t, k, hk, s.imports.qualify_cases (s.catalog.decl t) k.ident⟩

/-- Constants of a type are declared, each of them made by what the program calls it. -/
theorem run_constants {e : Nat} {t : TypeId} {c : Catalog} {wanted : List EnumConstant}
    (hwanted : ∀ k ∈ wanted, k ∈ (c.decl t).constants) {s s' : Session} {a : PUnit}
    (hc : c.Extends s.catalog) (hready : s.Ready inSection hosts)
    (h : (forIn wanted PUnit.unit fun k _ => do
      let f ← declareField e .imported t k.name
      Draft.setInitializer f (← Draft.qualify t k.ident)
      pure (ForInStep.yield PUnit.unit) : Work Session PUnit).runOn s = (.ok a, s')) :
    Run s s' := by
  induction wanted generalizing s with
  | nil =>
    cases h
    exact Run.refl _
  | cons k wanted ih =>
    have hk : k ∈ (c.decl t).constants := hwanted k List.mem_cons_self
    have ht : t < c.types.size := by
      by_contra hout
      rw [Catalog.decl_eq_noType (Nat.not_lt.mp hout)] at hk
      cases hk
    rw [List.forIn_cons] at h
    obtain ⟨step, s₃, hbody, hrest⟩ := Work.bind_ok h
    obtain ⟨f, s₁, hdeclare, hbody⟩ := Work.bind_ok hbody
    obtain ⟨fields, hregister, rfl⟩ := register_ok (declareField_ok hdeclare)
    obtain ⟨expr, s₂, hqualify, hbody⟩ := Work.bind_ok hbody
    obtain ⟨_, _, hmake, hlast⟩ := Work.bind_ok hbody
    cases hlast
    have hrun₂ : Run { s with fields } s₂ := run_ok hqualify
    have hconstant : s₂.Constant expr := qualify_ok (by rw [hc.constants t ht]; exact hk) hqualify
    obtain ⟨hnone, rfl⟩ := setInitializer_ok hmake
    have hready₂ := hrun₂.ready (ready_registered hready hregister)
    have hsettled := isSettled_make (hready₂.hosted f List.mem_cons_self) expr
    have hunasked : Unasked { s₂ with
        fields := s₂.fields.change f ({ · with initializer := some expr }) } f := by
      refine Or.inr (Or.inr ⟨expr, ?_, Or.inl hconstant⟩)
      rw [FieldTable.field_change_self (hready₂.hosted f List.mem_cons_self)]
    have hrun₃ := Run.declare hregister (hrun₂.trans (Run.make hnone (Or.inr hconstant))) hsettled.2
      (Or.inr hunasked)
    exact hrun₃.trans (ih (fun k' hk' => hwanted k' (List.mem_cons_of_mem _ hk'))
      (IsTrans.trans _ _ _ hc hrun₃.reaches.catalog) (hrun₃.ready hready) hrest)

instance (e : Nat) : Keeps (Runs inSection hosts) (importConstants e) := by
  unfold importConstants
  refine Keeps.bind' inferInstance fun spec => ?_
  split
  · infer_instance
  · rename_i typeName constant _
    refine Keeps.bind' inferInstance fun type => ⟨fun {s a s'} hok hready => ?_⟩
    obtain ⟨c, _, hcatalog, hok⟩ := Work.bind_ok hok
    cases hcatalog
    -- the constants are those of the catalog before the first of them was declared
    have hconstants : ∀ {s₁ : Session} {b : PUnit}, (forIn ((s.catalog.decl type).constants.filter
        fun k => constant == "*" || k.name == constant) PUnit.unit fun k _ => do
          let f ← declareField e .imported type k.name
          Draft.setInitializer f (← Draft.qualify type k.ident)
          pure (ForInStep.yield PUnit.unit) : Work Session PUnit).runOn s = (.ok b, s₁) →
        Run s s₁ := fun h =>
      run_constants (fun k hk => List.mem_of_mem_filter hk) (Std.Refl.refl _) hready h
    dsimp only at hok
    split at hok
    · cases hok
    · obtain ⟨_, s₁, hloop, hlast⟩ := Work.bind_ok hok
      split at hlast
      · cases hlast
      · cases hlast
        exact hconstants hloop

/-- A method of a bundle is read. -/
theorem places_method {f : FieldId} (bundle method : Text) :
    Places inSection (f :: hosts) bundle
      (liftM (Draft.setInitializer f (bundle ++ "." ++ method ++ "()")) : Work Session Unit) := by
  refine places_make List.mem_cons_self (isClosed_noArguments _) ?_
  rw [List.append_assoc]
  exact Text.shows_receiver bundle _

/-- A field that is made from a resource is not asked of the owner. -/
theorem spares_method {f : FieldId} (method : Text) :
    Attains inSection (f :: hosts) (IsUnasked f)
      (liftM (Draft.setInitializer f (bundleName ++ "." ++ method ++ "()")) :
        Work Session Unit) where
  attains {s a s'} hready hok := by
    refine ⟨(keeps_make (isClosed_noArguments _) f).keeps hok hready, ?_⟩
    obtain ⟨-, rfl⟩ := setInitializer_ok hok
    have hid := hready.hosted f List.mem_cons_self
    refine ⟨by simpa using hid, Or.inr (Or.inr ⟨_, ?_, Or.inr ⟨method, rfl⟩⟩)⟩
    rw [FieldTable.field_change_self hid]

instance (e : Nat) : Keeps (Runs inSection hosts) (style e) := by
  unfold style
  refine Keeps.bind' inferInstance fun name => Keeps.bind' inferInstance fun sources => ?_
  refine Keeps.bind' inferInstance fun typeName => Keeps.bind' inferInstance fun css => ?_
  refine Keeps.bind' inferInstance fun s => ?_
  have hplaces : ∀ (declared : Option TypeId) (bundle : Text), Places inSection hosts bundle (do
      let (type, method) ← Draft.declareStyle ((← getDocument).location e)
        { field := name, sources := sources.words, type := declared, css }
      let f ← declareField e .style type name
      Draft.addNeed f bundle
      Draft.setInitializer f (bundle ++ "." ++ method ++ "()")
      call f "EnsureInjected" [] : Work Session Unit) := by
    intro declared bundle
    refine Attains.after inferInstance fun d => Attains.after inferInstance fun answer => ?_
    refine attains_declareField (fun f => Attains.after inferInstance fun _ => ?_)
      (fun _ => Or.inl (by decide)) fun f => Attains.after inferInstance fun _ => ?_
    · exact (settles_make (isClosed_noArguments _) f).before fun _ => inferInstance
    · exact (places_method bundle answer.2).before fun _ => inferInstance
  have hdeclare : ∀ declared : Option TypeId, Keeps (Runs inSection hosts) (do
      let bundle ← resourceBundle
      let (type, method) ← Draft.declareStyle ((← getDocument).location e)
        { field := name, sources := sources.words, type := declared, css }
      let f ← declareField e .style type name
      Draft.addNeed f bundle
      Draft.setInitializer f (bundle ++ "." ++ method ++ "()")
      call f "EnsureInjected" [] : Work Session Unit) := fun declared =>
    keeps_read reads_resourceBundle fun bundle _ => hplaces declared bundle
  repeat' (first | infer_instance | refine Keeps.bind' inferInstance fun _ => ?_ | split)

instance (e : Nat) (name typeName : Text) (declare : Work Draft Text)
    [Keeps Draft.Declares declare] :
    Keeps (Runs inSection hosts) (resource e name typeName declare) := by
  unfold resource
  refine Keeps.bind' inferInstance fun s => ?_
  have hplaces : ∀ type : TypeId, Places inSection hosts bundleName (do
      let method ← declare
      let f ← declareField e .imported type name
      Draft.addNeed f bundleName
      Draft.setInitializer f (bundleName ++ "." ++ method ++ "()") : Work Session Unit) := by
    intro type
    refine Attains.after inferInstance fun method => ?_
    refine attains_declareField (fun f => Attains.after inferInstance fun _ => ?_)
      (fun f => Or.inr (Attains.after inferInstance fun _ => ?_))
      fun f => Attains.after inferInstance fun _ => ?_
    · exact settles_make (isClosed_noArguments _) f
    · exact spares_method method
    · exact places_method bundleName method
  have hdeclare : ∀ type : TypeId, Keeps (Runs inSection hosts) (do
      let bundle ← resourceBundle
      let method ← declare
      let f ← declareField e .imported type name
      Draft.addNeed f bundle
      Draft.setInitializer f (bundle ++ "." ++ method ++ "()") : Work Session Unit) := fun type =>
    keeps_read reads_resourceBundle fun bundle hbundle => hbundle ▸ hplaces type
  repeat' (first | infer_instance | refine Keeps.bind' inferInstance fun _ => ?_ | split)

instance (e : Nat) : Keeps (Runs inSection hosts) (image e) := by
  unfold image
  infer_instance

instance (e : Nat) : Keeps (Runs inSection hosts) (data e) := by
  unfold data
  infer_instance

instance (e : Nat) : Keeps (Runs inSection hosts) (follow e) := by
  unfold follow
  infer_instance

instance (directives : List Nat) : Keeps (Runs inSection hosts) (followAll directives) := by
  unfold followAll
  infer_instance

end Directive

/-! ## Whole templates -/

namespace Template

theorem sound_start (t : Template) (c : Catalog) (settings : Settings) {supply : Nat → Nat}
    (hsupply : Function.Injective supply) (d : Document) : (t.start c settings supply d).Sound where
  marked := ⟨rfl, fun _ h => (by cases h), List.Sublist.refl _⟩
  supply := hsupply
  imports := fun _ h => (by cases h)

instance (root : Nat) (children : List Nat) (ui : Option Nat) :
    Keeps (Runs inSection hosts) (interface root children ui) := by
  induction children generalizing ui with
  | nil =>
    cases ui <;> (unfold interface; infer_instance)
  | cons child rest ih =>
    unfold interface
    repeat' (first | infer_instance | split)

instance : Leads (Runs inSection hosts) failIfReported := by
  unfold failIfReported
  refine Leads.bind' inferInstance fun s => ?_
  split <;> infer_instance

end Template

end ViewBinder
