-- Building elements without looking at the numbers of markers. In content every reference is spliced,
-- so a template whose markers all stand for references has none there; elsewhere the expressions of
-- attributes are drawn, and go into the calls that fields are made and set up by.
import ViewBinder.Element.Build
import ViewBinder.Proofs.Blind.Session
import ViewBinder.Proofs.Markup.Attributes

namespace ViewBinder

open Markup (Document)
open Session
open Dressed (dress)
open Work (Leads Blind Draws Fails Keeps Sinks Spoils)

variable {n : Nat} {E : MarkerEntry → Prop} [Unspliced E] {build : Builder}

/-! ## Documents -/

namespace Markup.Document

instance (e : Nat) (base : Text) : Leads Later (takeBinder e base) := by
  unfold takeBinder
  refine Leads.bind' inferInstance fun found => ?_
  split <;> infer_instance

instance (e : Nat) (base : Text) : Leads Later (takeBinderChildren e base) := by
  unfold takeBinderChildren
  infer_instance

instance (e : Nat) : Leads Later (takeImportedChildren e) := by
  unfold takeImportedChildren
  infer_instance

end Markup.Document

/-! ## Content -/

namespace Content

variable {slot : Nat → Work Session Html}

instance [∀ e, Blind n E (build e)] (parent child : Nat) (wanted : Option TypeId) :
    Blind n E (buildChild build parent child wanted) := by
  have hfits : ∀ f, Blind n E (do
      let c ← getCatalog
      let type := (← Draft.field f).type
      if wanted.isSome && !c.isAssignable type wanted then
        failOn child fun d =>
          .wrongChild (d.tag child) (d.tag parent) (c.simpleName type) (c.simpleName wanted)
      return f : Work Session FieldId) := fun f =>
    Blind.bind' inferInstance fun c => blind_field (fun _ => inferInstance) fun _ => rfl
  unfold buildChild
  refine Blind.bind' inferInstance fun d => ?_
  dsimp only
  split
  · infer_instance
  · exact Blind.bind' inferInstance hfits

/-! ### Messages in attributes -/

instance (e decl : Nat) : Blind n E (attributeMessage e decl) := by
  unfold attributeMessage
  refine Blind.bind' inferInstance fun name => Blind.bind' inferInstance fun description => ?_
  refine Blind.bind' inferInstance fun meaning => Blind.bind' inferInstance fun key => ?_
  refine Blind.bind' inferInstance fun _ => Blind.bind' inferInstance fun _ => ?_
  refine Blind.bind' inferInstance fun d => ?_
  split <;> infer_instance

instance (e : Nat) (name value : Text) : Blind n E (modify fun s => { s with
    document := s.document.setAttribute e name value } : Work Session Unit) :=
  blind_document (g := (·.setAttribute e name value)) fun d =>
    Document.sameNames_setAttribute d e name value

instance (e i : Nat) (value : Text) : Blind n E (modify fun s => { s with
    document := s.document.replaceAttribute e i value } : Work Session Unit) :=
  blind_document (g := (·.replaceAttribute e i value)) fun d =>
    Document.sameNames_replaceAttribute d e i value

instance (e i : Nat) : Blind n E (modify fun s => { s with
    document := s.document.useAttribute e i } : Work Session Unit) :=
  blind_document (g := (·.useAttribute e i)) fun d =>
    Document.name_changeAttribute d e i _

instance (c : Nat) : Blind n E (modify fun s => { s with
    document := s.document.useChild c } : Work Session Unit) :=
  blind_document (g := (·.useChild c)) fun d => Document.sameNames_useChild d c

instance (e : Nat) (value : Text → Work Session Text) [∀ t, Blind n E (value t)] :
    Blind n E (declareAttributeMessages e value) := by
  unfold declareAttributeMessages
  refine Blind.bind' inferInstance fun decls => ?_
  refine Blind.bind' (Blind.forIn' fun decl _ => ?_) fun _ => inferInstance
  refine Blind.bind' inferInstance fun (name, m) => ?_
  infer_instance

instance (expr : Text) : Blind n E (escaped expr) := by
  unfold escaped
  infer_instance

instance (e : Nat) (text : Option TypeId) (value : Text) :
    Blind n E (computeAttributes.convertValue e text value) := by
  unfold computeAttributes.convertValue
  refine Blind.bind' (Blind.mapM' fun segment => ?_) fun _ => inferInstance
  split <;> infer_instance

instance (e : Nat) : Blind n E (computeAttributes e) := by
  unfold computeAttributes
  infer_instance

/-! ### Fields and widgets in markup -/

instance (e : Nat) : Blind n E (bindField e) := by
  unfold bindField
  refine Blind.bind' inferInstance fun d => ?_
  split
  · infer_instance
  · refine Blind.bind' inferInstance fun found => ?_
    split
    · infer_instance
    · have hdeclare : ∀ name (d : Document), Blind n E (do
          let type := (← getCatalog).domType? (d.name e).base
          let f ← Draft.register .plain type name
          let holder ← declareId
          let marker ← splice e holder
          modify fun s => { s with document := s.document.setAttribute e "id" marker }
          addAttached ((← nameOf f) ++ " = " ++ (← elementById type holder))
          addDetached ((← nameOf f) ++ ".RemoveAttribute(\"id\")") : Work Session Unit) := by
        intro name d
        refine Blind.bind' inferInstance fun c => Blind.bind' inferInstance fun f => ?_
        refine Blind.bind' inferInstance fun holder => ?_
        refine Blind.bind' inferInstance fun marker => ?_
        infer_instance
      refine Blind.bind' inferInstance fun d' => ?_
      split
      · exact Blind.bind' inferInstance fun _ => hdeclare _ d
      · exact hdeclare _ d

instance (e : Nat) (child : FieldId) (holder : Text) : Blind n E (stampWidget e child holder) := by
  unfold stampWidget
  refine Blind.bind' inferInstance fun type => ?_
  split
  · infer_instance
  · refine .of_spoils (h := .bind' fun childName => .bind' fun stamper => .bind' fun make => ?_)
    infer_instance

instance (e : Nat) (panel child : FieldId) (holder : Text) :
    Blind n E (replaceByWidget e panel child holder) := by
  unfold replaceByWidget
  infer_instance

instance [∀ e, Blind n E (build e)] (panel : FieldId) (stamped : Bool) (e : Nat) :
    Blind n E (placeWidget build panel stamped e) := by
  unfold placeWidget
  infer_instance

/-! ### Values and messages -/

instance (kind : ContentKind) (e : Nat) : Spoils n E (textValue kind e) := by
  unfold textValue
  infer_instance

instance (e : Nat) : Spoils n E (markupValue e) := by
  unfold markupValue
  have hvalue : ∀ type, Spoils n E (match type with
      | none => failOn e fun d => .needsType (d.tag e) (Library.safehtml "SafeHtml")
      | some type => do splice e ((← valueFrom e (some type)) ++ ".String()") :
        Work Session Text) := fun type => by
    cases type <;> infer_instance
  infer_instance

instance (kind : ContentKind) (e : Nat) : Spoils n E (message kind slot e) := by
  unfold message
  infer_instance

/-! ### Elements -/

instance (e : Nat) (attributes : List (Nat × Markup.Attribute)) :
    Blind n E (markupAttributes e attributes) := by
  induction attributes with
  | nil =>
    unfold markupAttributes
    infer_instance
  | cons a rest ih =>
    unfold markupAttributes
    infer_instance

instance (e : Nat) : Blind n E (checkName e) := by
  unfold checkName
  infer_instance

instance [∀ c, Blind n E (slot c)] (e : Nat) : Blind n E (renderSlots slot e) := by
  unfold renderSlots
  infer_instance

instance [∀ c, Blind n E (slot c)] (e : Nat) : Blind n E (markupElement slot e) := by
  unfold markupElement
  infer_instance

instance [∀ e, Blind n E (build e)] (kind : ContentKind) [∀ c, Blind n E (slot c)] (e : Nat) :
    Blind n E (interpret? build kind slot e) := by
  cases kind with
  | plainText =>
    unfold interpret?
    infer_instance
  | markup attached panel stamped =>
    unfold interpret?
    refine Blind.bind' inferInstance fun d => ?_
    dsimp only
    refine Blind.bind' inferInstance fun _ => Blind.bind' inferInstance fun _ => ?_
    repeat' (first | infer_instance | split)

instance [∀ e, Blind n E (build e)] (kind : ContentKind) [∀ c, Blind n E (slot c)] (e : Nat) :
    Blind n E (renderElement build kind slot e) := by
  unfold renderElement
  repeat' (first | infer_instance | split | refine Blind.bind' inferInstance fun _ => ?_)

instance [∀ e, Blind n E (build e)] (kind : ContentKind) (fuel c : Nat) :
    Blind n E (renderSlot build kind fuel c) := by
  induction fuel generalizing c with
  | zero =>
    unfold renderSlot
    infer_instance
  | succ fuel ih =>
    unfold renderSlot
    repeat' (first | infer_instance | split | refine Blind.bind' inferInstance fun _ => ?_)

instance [∀ e, Blind n E (build e)] (kind : ContentKind) (e : Nat) :
    Blind n E (inner build kind e) := by
  unfold inner
  infer_instance

instance [∀ e, Blind n E (build e)] (kind : ContentKind) (e : Nat) :
    Blind n E (outer build kind e) := by
  unfold outer
  infer_instance

instance [∀ e, Blind n E (build e)] (e : Nat) : Blind n E (markupLiteral build e) := by
  unfold markupLiteral
  infer_instance

end Content

/-! ## Rules -/

namespace Element

variable [∀ e, Blind n E (build e)]

/-! ### Constructing fields -/

theorem drawn_callText {F : Numbering n → Text} {L : Numbering n → List Text} (hF : Drawn F)
    (hL : Each Drawn L) : Drawn fun ν => callText (F ν) (L ν) :=
  ((hF.append (.plain _)).append (Drawn.join _ hL)).append (.plain _)

omit [Unspliced E] in
theorem draws_bindArguments (e : Nat) (names : List Text) (params : List Param) :
    Draws (n := n) E (fun _ => bindArguments e names params) (Each Drawn) :=
  .mapM (Q := Same) (Kind.plain _) fun A ⟨entry, hentry⟩ => by
    subst hentry
    exact draws_takeRequired e entry.1 [entry.2.type]

omit [Unspliced E] in
theorem draws_constructed (e : Nat) (type : TypeId) :
    Draws (n := n) E (fun _ => constructed e type) Drawn := by
  unfold constructed
  refine .after Blind.draws fun c => ?_
  dsimp only
  split
  · refine .after Blind.draws fun d => .ite (fun _ => ?_) fun _ => ?_
    · refine .bind (draws_bindArguments e _ _) fun L hL => ?_
      exact .after Blind.draws fun function => .answer (drawn_callText (.plain _) hL)
    · split
      · exact .after Blind.draws fun function => .answer (.plain _)
      · exact .of_spoils fun _ => inferInstance
  · split
    · exact .after Blind.draws fun function => .answer (.plain _)
    · exact .of_spoils fun _ => inferInstance

omit [Unspliced E] in
theorem draws_initializer (e : Nat) (type : TypeId) :
    Draws (n := n) E (fun _ => initializer e type) Drawn := by
  unfold initializer
  refine .looking (fun s => ?_) fun _ _ _ => rfl
  split
  · exact .bind (draws_bindArguments e _ _) fun L hL =>
      .answer ((Drawn.plain _).append (drawn_callText (.plain _) hL))
  · exact draws_constructed e type

instance (e : Nat) (failure : Failure) : Spoils n E (reportFailure e failure) where
  spoils hrun hrefers := by
    cases hrun
    refine absurd hrefers.calm ?_
    cases failure <;> exact Log.failure?_error _ _ _ _

instance (e : Nat) (f : FieldId) (type : TypeId) (i : Nat) (a : Markup.Attribute) :
    Blind n E (setProperty e f type i a) := by
  unfold setProperty
  refine Blind.bind' inferInstance fun c => Blind.bind' inferInstance fun d => ?_
  dsimp only
  split
  · infer_instance
  · rename_i setter _
    refine Blind.bind' inferInstance fun _ => ⟨.attempted (draws_readValue e a.value _)
      (fun F hF => ?_) fun _ failure => ?_⟩
    · exact .after (draws_call f setter.name (Each.one hF)) fun _ => Blind.draws
    · cases failure with
      | crash => infer_instance
      | _ => exact .before inferInstance fun _ => inferInstance
  · infer_instance

instance (e : Nat) (f : FieldId) (type : TypeId) : Blind n E (properties e f type) := by
  have hset : Blind n E (do
      let attributes := ((← getDocument).remaining e).filter fun a => a.2.name.uri.isEmpty
      let answers ← attributes.mapM fun (i, a) => setProperty e f type i a
      if !answers.all id then
        match (← get).log.failure? with
        | some failure => throw failure
        | none => return () : Work Session Unit) := by
    refine Blind.bind' inferInstance fun d => Blind.bind' (Blind.mapM' fun (i, a) => inferInstance)
      fun answers => ?_
    split
    · refine Blind.reading (fun s => ?_) fun _ _ _ => rfl
      split <;> infer_instance
    · infer_instance
  unfold properties
  refine Blind.bind' inferInstance fun made => ?_
  dsimp only
  split
  · refine ⟨.bind (draws_initializer e type) fun F hF => ?_⟩
    exact .after (Draft.draws_setInitializer f hF).lift fun _ => hset.draws
  · exact hset

instance (e : Nat) : Blind n E (nothingLeft e) := by
  unfold nothingLeft
  infer_instance

/-! ### Messages and child tags -/

instance (e : Nat) : Blind n E (attributeMessages e) := by
  unfold attributeMessages
  infer_instance

instance (e : Nat) (wanted : Option TypeId) : Blind n E (onlyChild build e wanted) := by
  unfold onlyChild
  infer_instance

instance (e : Nat) : Blind n E (onlyWidget build e) := by
  unfold onlyWidget
  infer_instance

instance (e : Nat) (f : FieldId) (child used : Nat) (slot : ChildSlot) :
    Blind n E (childTag build e f child used slot) := by
  have hcall : ∀ c : Catalog, Blind n E (match slot.method.params with
      | [] => failOn child fun d =>
          .noWidgetParameter (c.signature slot.method) (d.name child).text
      | widget :: others => do
        let extra ← bindArguments child (others.map (·.name)) others
        Document.assertNoAttributes child
        let g ← onlyChild build child widget.type
        let name ← Draft.use g
        call f slot.method.name (name :: extra) : Work Session Unit) := by
    intro c
    split
    · infer_instance
    · refine ⟨.bind (draws_bindArguments child _ _) fun L hL => ?_⟩
      refine .after Blind.draws fun _ => .after Blind.draws fun g => .after Blind.draws fun name => ?_
      exact draws_call f slot.method.name (.cons (.plain name) hL)
  unfold childTag
  refine Blind.bind' inferInstance fun c => ?_
  dsimp only
  split
  · infer_instance
  · exact hcall c

instance (e : Nat) (f : FieldId) (d : Descriptor) (seen : List Text) (children : List Nat) :
    Blind n E (childTagsFrom build e f d seen children) := by
  induction children generalizing seen with
  | nil =>
    unfold childTagsFrom
    infer_instance
  | cons child rest ih =>
    unfold childTagsFrom
    refine Blind.bind' inferInstance fun doc => ?_
    dsimp only
    split <;> infer_instance

instance (e : Nat) (f : FieldId) (type : TypeId) : Blind n E (childTags build e f type) := by
  unfold childTags
  infer_instance

/-! ### Bodies -/

instance (e : Nat) (f : FieldId) : Blind n E (styledObject e f) := by
  have hlists : ∀ text : Option TypeId, Blind n E (do
      for (attr, method) in styleLists do
        match ← Document.takeRaw e attr with
        | some value =>
          for name in listedNames value do
            call f method [← readValue e name [text]]
        | none => pure () : Work Session Unit) := by
    intro text
    refine Blind.bind' (Blind.forIn' fun entry _ => ?_) fun _ => inferInstance
    refine Blind.bind' inferInstance fun found => ?_
    split
    · refine Blind.bind' (Blind.forIn' fun name _ => ⟨?_⟩) fun _ => inferInstance
      exact .bind (draws_readValue e name [text]) fun _ hF =>
        .after (draws_call f entry.2 (Each.one hF)) fun _ => Blind.draws
    · infer_instance
  have hrest : ∀ text : Option TypeId, Blind n E (do
      let d ← getDocument
      if d.has e "styleName" && d.has e "stylePrimaryName" then
        failOn e fun d => .bothStyleNames (d.tag e)
      for (attr, method) in styleLists do
        match ← Document.takeRaw e attr with
        | some value =>
          for name in listedNames value do
            call f method [← readValue e name [text]]
        | none => pure () : Work Session Unit) := by
    intro text
    refine Blind.bind' inferInstance fun d => ?_
    dsimp only
    split
    · infer_instance
    · exact hlists text
  unfold styledObject
  refine Blind.bind' inferInstance fun text => ⟨.bind (draws_take? e "debugId" [text]) ?_⟩
  intro A hA
  cases hA with
  | none => exact (hrest text).draws
  | some hF => exact .after (draws_call f "EnsureDebugID" (Each.one hF)) fun _ => (hrest text).draws

instance (e : Nat) (f : FieldId) : Blind n E (bodyText build e f) := by
  unfold bodyText
  infer_instance

instance (e : Nat) (f : FieldId) : Blind n E (bodyMarkup build e f) := by
  unfold bodyMarkup
  infer_instance

instance (e : Nat) (f : FieldId) (type : TypeId) : Blind n E (domElement build e f type) := by
  unfold domElement
  repeat' (first | infer_instance | split | refine Blind.bind' inferInstance fun _ => ?_)

instance (e : Nat) (f : FieldId) (stamped : Bool) : Blind n E (panelLiteral build e f stamped) := by
  unfold panelLiteral
  infer_instance

instance (e : Nat) (f : FieldId) (type : TypeId) : Blind n E (markupPanel build e f type) := by
  unfold markupPanel
  refine Blind.bind' inferInstance fun text => ⟨.bind (draws_take? e "tag" [text]) ?_⟩
  intro A hA
  refine .after Blind.draws fun html => ?_
  cases hA with
  | none => exact Blind.draws
  | some hF =>
    refine .after Blind.draws fun make => ?_
    exact (Draft.draws_setInitializer f
      (drawn_callText (.plain make) (.cons hF (Each.one (.plain html))))).lift

instance (e : Nat) (f : FieldId) (type : TypeId) : Blind n E (stampedPanel build e f type) := by
  unfold stampedPanel
  infer_instance

/-! ### Panels -/

instance (e child : Nat) : Blind n E (widgetChild build e child) := by
  unfold widgetChild
  infer_instance

instance (allowed : Text) (parent child : Nat) {α : Type} :
    Fails (failOnlyChildren allowed parent child : Work Session α) :=
  inferInstanceAs (Fails (failOn child fun _ => _))

instance (e : Nat) (f : FieldId) : Blind n E (widgets build e f) := by
  unfold widgets
  infer_instance

instance (e : Nat) (f : FieldId) : Blind n E (alignment e f) := by
  unfold alignment
  refine Blind.bind' (Blind.forIn' fun entry _ => ?_) fun _ => inferInstance
  refine Blind.bind' inferInstance fun type => ⟨.bind (draws_take? e _ [type]) ?_⟩
  intro A hA
  cases hA with
  | none => exact Blind.draws
  | some hF => exact .after (draws_call f _ (Each.one hF)) fun _ => Blind.draws

instance (e : Nat) (f : FieldId) (child centers : Nat) :
    Blind n E (dockCenter build e f child centers) := by
  unfold dockCenter
  infer_instance

instance (e : Nat) (f : FieldId) (child : Nat) : Blind n E (dockSide build e f child) := by
  unfold dockSide
  refine Blind.bind' inferInstance fun d => ?_
  split
  · infer_instance
  · refine Blind.bind' inferInstance fun float => ⟨.bind (draws_takeRequired child _ _) ?_⟩
    intro F hF
    refine .after Blind.draws fun _ => .after Blind.draws fun g => .after Blind.draws fun name => ?_
    exact draws_call f _ (.cons (.plain name) (Each.one hF))

instance (e : Nat) (f : FieldId) (centers : Nat) (children : List Nat) :
    Blind n E (dockFrom build e f centers children) := by
  induction children generalizing centers with
  | nil =>
    unfold dockFrom
    infer_instance
  | cons child rest ih =>
    unfold dockFrom
    infer_instance

instance (e : Nat) (f : FieldId) : Blind n E (dock build e f) := by
  unfold dock
  infer_instance

theorem draws_readHeader (e tag : Nat) (sized : Bool) :
    Draws (n := n) E (fun _ => readHeader build e tag sized) (Both Same (Maybe Drawn)) := by
  have hrest : ∀ S : Numbering n → Option Text, Maybe Drawn S → Draws E (fun ν => (do
      Document.assertNoAttributes tag
      if (← getDocument).isOwnTag e tag "customHeader" then
        return (.widget (← onlyWidget build tag), S ν)
      else return (.markup (← Content.markupLiteral build tag), S ν) :
        Work Session (Header × Option Text))) (Both Same (Maybe Drawn)) := by
    intro S hS
    refine .after Blind.draws fun _ => .after Blind.draws fun d => .ite (fun _ => ?_) fun _ => ?_
    · exact .after Blind.draws fun g => .answer ⟨_, S, ⟨.widget g, rfl⟩, hS, rfl⟩
    · exact .after Blind.draws fun html => .answer ⟨_, S, ⟨.markup html, rfl⟩, hS, rfl⟩
  unfold readHeader
  refine .ite (fun _ => ?_) fun _ => ?_
  · refine .after Blind.draws fun float => ?_
    exact .bind (.map (draws_takeRequired tag "size" [float]) fun F hF => .some hF) hrest
  · exact hrest _ .none

instance (e item : Nat) (header : Option Nat) (content : Option FieldId) (slots : List Nat) :
    Blind n E (splitItem build e item header content slots) := by
  induction slots generalizing header content with
  | nil =>
    unfold splitItem
    split <;> infer_instance
  | cons child rest ih =>
    unfold splitItem
    infer_instance

instance (e item : Nat) : Blind n E (readItem build e item) := by
  unfold readItem
  infer_instance

instance (e : Nat) (f : FieldId) : Blind n E (stack build e f) := by
  unfold stack
  refine Blind.bind' inferInstance fun children => ?_
  refine Blind.bind' (Blind.forIn' fun child _ => ?_) fun _ => inferInstance
  refine Blind.bind' inferInstance fun d => ?_
  dsimp only
  split
  · infer_instance
  · refine Blind.bind' inferInstance fun (tag, content) => ⟨.bind (draws_readHeader e tag true) ?_⟩
    rintro _ ⟨_, S, ⟨header, rfl⟩, hS, rfl⟩
    refine .after Blind.draws fun name => ?_
    cases header with
    | widget g =>
      refine .after Blind.draws fun other => .after (draws_call f _ ?_) fun _ => Blind.draws
      exact Each.append (.cons (.plain name) (Each.one (.plain other))) hS.toList
    | markup html =>
      refine .after (draws_call f _ ?_) fun _ => Blind.draws
      exact Each.append (Kind.plain _) hS.toList

instance (e : Nat) (f : FieldId) : Blind n E (tabs build e f) := by
  unfold tabs
  refine Blind.bind' inferInstance fun children => ?_
  refine Blind.bind' (Blind.forIn' fun child _ => ?_) fun _ => inferInstance
  refine Blind.bind' inferInstance fun d => ?_
  dsimp only
  split
  · infer_instance
  · refine Blind.bind' inferInstance fun (tag, content) => ⟨.bind (draws_readHeader e tag false) ?_⟩
    rintro _ ⟨_, S, ⟨header, rfl⟩, hS, rfl⟩
    refine .after Blind.draws fun name => ?_
    cases header with
    | widget g =>
      exact .after Blind.draws fun other => .after Blind.draws fun _ => Blind.draws
    | markup html => exact .after Blind.draws fun _ => Blind.draws

instance (e : Nat) (pairs : List (Text × Text)) : Blind n E (pickPair e pairs) := by
  unfold pickPair
  repeat' (first | infer_instance | split | refine Blind.bind' inferInstance fun _ => ?_)

omit [Unspliced E] in
theorem draws_placement? (e : Nat) (pairs : List (Text × Text)) :
    Draws (n := n) E (fun _ => placement? e pairs) (Maybe Drawn) := by
  unfold placement?
  refine .after Blind.draws fun float => .after Blind.draws fun unit => ?_
  dsimp only
  refine .after Blind.draws fun pair => ?_
  split
  · exact .answer .none
  · refine .bind (draws_takeRequired e _ _) fun A hA => .bind (draws_takeRequired e _ _) ?_
    intro B hB
    exact .answer (.some (drawn_callText (.plain _) (.cons (.plain _) (.cons hA (Each.one hB)))))

instance (e : Nat) (f : FieldId) : Blind n E (layers build e f) := by
  unfold layers
  refine Blind.bind' inferInstance fun children => ?_
  refine Blind.bind' (Blind.forIn' fun child _ => ?_) fun _ => inferInstance
  refine Blind.bind' inferInstance fun d => ?_
  dsimp only
  split
  · infer_instance
  · refine ⟨.bind (Q := Each (Maybe Drawn)) (.mapM (Q := Same) (Kind.plain _) ?_) fun L hL => ?_⟩
    · rintro A ⟨pairs, rfl⟩
      exact draws_placement? child pairs
    · refine .after Blind.draws fun _ => .after Blind.draws fun g => .after Blind.draws fun name => ?_
      refine .after Blind.draws fun _ => .after (.forIn hL.found fun F hF => ?_) fun _ => Blind.draws
      refine .after Blind.draws fun panel => .after (Draft.draws_addStatement f ?_).lift fun _ =>
        Blind.draws
      exact (Drawn.append (.plain panel) (.plain _)).append
        (Drawn.replaceAll (by decide) (by decide) hF)

/-! ### Places and cells -/

instance (e : Nat) (f : FieldId) : Blind n E (absolute build e f) := by
  unfold absolute
  refine Blind.bind' inferInstance fun whole => Blind.bind' inferInstance fun children => ?_
  refine Blind.bind' (Blind.forIn' fun child _ => ?_) fun _ => inferInstance
  refine Blind.bind' inferInstance fun d => ?_
  split
  · refine ⟨.bind (draws_takeRequired child _ _) fun A hA => ?_⟩
    refine .bind (draws_takeRequired child _ _) fun B hB => ?_
    refine .after Blind.draws fun _ => .after Blind.draws fun g => .after Blind.draws fun name => ?_
    exact .after (draws_call f _ (.cons (.plain name) (.cons hA (Each.one hB)))) fun _ => Blind.draws
  · infer_instance

instance (f : FieldId) (tag : Nat) (pattern : Text) : Blind n E (cell build f tag pattern) := by
  unfold cell
  refine ⟨.bind (Q := Each (Maybe (Both Same Drawn))) (.mapM (Q := Same) (Kind.plain _) ?_)
    fun L hL => ?_⟩
  · rintro A ⟨⟨attr, typeName, method⟩, rfl⟩
    have hread : ∀ type, Draws (n := n) E (fun _ => (do
        return (← take? tag attr [type]).map fun expr => (method, expr) :
          Work Session (Option (Text × Text)))) (Maybe (Both Same Drawn)) := by
      intro type
      refine .bind (draws_take? tag attr [type]) fun A hA => .answer ?_
      cases hA with
      | none => exact .none
      | some hF => exact .some ⟨_, _, ⟨method, rfl⟩, hF, rfl⟩
    refine .after Blind.draws fun found => ?_
    cases found with
    | none => exact .after Blind.draws hread
    | some t => exact hread (some t)
  · refine .after Blind.draws fun _ => .after Blind.draws fun g => .after Blind.draws fun name => ?_
    refine .after Blind.draws fun panel => .after Blind.draws fun _ => ?_
    refine .after (.forIn hL.found ?_) fun _ => Blind.draws
    rintro _ ⟨_, F, ⟨method, rfl⟩, hF, rfl⟩
    exact .after (draws_call f method (.cons (.plain name) (Each.one hF))) fun _ => Blind.draws

omit [Unspliced E] in
/-- Whatever the direction reads as, a cell with one does not make up for anything. -/
theorem keeps_dockCell (e : Nat) (f : FieldId) (type : TypeId) (child : Nat) (ν : Numbering n) :
    Keeps (Sinks n E) (dockCell build e f type child) := by
  unfold dockCell
  refine Keeps.bind' (Blind.keeps ν) fun c => ?_
  split
  · exact Keeps.bind' ((draws_takeRequired child _ _).back ν) fun expr => Blind.keeps ν
  · exact Blind.keeps ν

/-- A panel with cells, none of which has a direction. -/
instance (e : Nat) (f : FieldId) (type : TypeId) : Blind n E (cells build e f type) := by
  unfold cells
  refine Blind.bind' inferInstance fun children => ?_
  refine Blind.bind' (Blind.forIn' fun child _ => ?_) fun _ => inferInstance
  refine blind_names (fun d hnames => ?_) fun d ν => ?_
  · split
    · infer_instance
    · split
      · rename_i hdock
        exact absurd (beq_iff_eq.mp (Bool.and_eq_true_iff.mp hdock).2) (hnames child)
      · infer_instance
  · split
    · exact Blind.keeps ν
    · split
      · exact Keeps.bind' (keeps_dockCell e f type child ν) fun _ => inferInstance
      · exact Blind.keeps ν

/-! ### Disclosure -/

instance (f : FieldId) (tag : Nat) : Blind n E (headerImages f tag) := by
  unfold headerImages
  refine Blind.bind' inferInstance fun d => ?_
  dsimp only
  split
  · refine Blind.bind' inferInstance fun image => ⟨.bind (draws_takeRequired tag _ _) fun A hA => ?_⟩
    refine .bind (draws_takeRequired tag _ _) fun B hB => ?_
    exact .after (draws_call f _ (.cons hA (Each.one hB))) fun _ => Blind.draws
  · infer_instance

instance (e : Nat) (f : FieldId) (filled : Bool) (children : List Nat) :
    Blind n E (disclosureFrom build e f filled children) := by
  induction children generalizing filled with
  | nil =>
    unfold disclosureFrom
    infer_instance
  | cons child rest ih =>
    unfold disclosureFrom
    refine Blind.bind' inferInstance fun d => ?_
    dsimp only
    split
    · infer_instance
    · split <;> infer_instance

instance (e : Nat) (f : FieldId) : Blind n E (disclosure build e f) := by
  unfold disclosure
  infer_instance

/-! ### Menus -/

instance (child : Nat) (wanted : Option TypeId) : Blind n E (isOf child wanted) := by
  unfold isOf
  infer_instance

instance (e : Nat) (f : FieldId) (type : TypeId) : Blind n E (menuBar build e f type) := by
  have hitems : Blind n E (do
      let item ← uiType "MenuItem"
      let separator ← uiType "MenuItemSeparator"
      for child in ← Document.takeChildren e do
        if ← isOf child item then
          call f "AddItem" [← Draft.use (← Content.buildChild build e child item)]
        else if ← isOf child separator then
          call f "AddSeparator" [← Draft.use (← Content.buildChild build e child separator)]
        else failOnlyChildren "MenuItem or MenuItemSeparator" e child : Work Session Unit) := by
    refine Blind.bind' inferInstance fun item => Blind.bind' inferInstance fun separator => ?_
    refine Blind.bind' inferInstance fun children => ?_
    refine Blind.bind' (Blind.forIn' fun child _ => ?_) fun _ => inferInstance
    infer_instance
  unfold menuBar
  refine Blind.bind' inferInstance fun boolean => Blind.bind' inferInstance fun made => ?_
  dsimp only
  split
  · refine ⟨.bind (draws_takeDefault e _ _ _) fun F hF => .after Blind.draws fun make => ?_⟩
    exact .after (Draft.draws_setInitializer f (drawn_callText (.plain make) (Each.one hF))).lift
      fun _ => hitems.draws
  · exact hitems

theorem draws_menuText (e : Nat) : Draws (n := n) E (fun _ => menuText build e) (Each Drawn) := by
  unfold menuText
  refine .after Blind.draws fun text => .bind (draws_take? e "text" [text]) fun A hA => ?_
  refine .after Blind.draws fun boolean => .bind (draws_takeDefault e _ _ _) fun F hF => ?_
  cases hA with
  | none =>
    refine .after Blind.draws fun d => .ite (fun _ => ?_) fun _ => .answer (Kind.plain _)
    exact .after Blind.draws fun html => .answer (Kind.plain _)
  | some hG => exact .answer (.cons hG (Each.one hF))

instance (e : Nat) (f : FieldId) (type : TypeId) : Blind n E (menuItem build e f type) := by
  have hmenus : ∀ (bar : Option TypeId) (menus : List Nat), Blind n E (do
      for menu in menus do
        call f "SetSubMenu" [← Draft.use (← Content.buildChild build e menu bar)] :
        Work Session Unit) := fun bar menus => inferInstance
  have hmake : ∀ (bar : Option TypeId) (menus : List Nat), Blind n E (do
      if !(← isMade f) then
        let make ← Session.constructor e type [← primitive "string", ← primitive "bool"]
        Draft.setInitializer f (callText make (← menuText build e))
      for menu in menus do
        call f "SetSubMenu" [← Draft.use (← Content.buildChild build e menu bar)] :
        Work Session Unit) := by
    intro bar menus
    refine Blind.bind' inferInstance fun made => ?_
    dsimp only
    split
    · refine Blind.bind' inferInstance fun text => Blind.bind' inferInstance fun boolean => ?_
      refine Blind.bind' inferInstance fun make => ⟨.bind (draws_menuText e) fun L hL => ?_⟩
      exact .after (Draft.draws_setInitializer f (drawn_callText (.plain make) hL)).lift
        fun _ => (hmenus bar menus).draws
    · exact hmenus bar menus
  unfold menuItem
  refine Blind.bind' inferInstance fun bar => Blind.bind' inferInstance fun c => ?_
  refine Blind.bind' inferInstance fun d => Blind.bind' inferInstance fun menus => ?_
  dsimp only
  split
  · infer_instance
  · exact hmake bar menus

/-! ### Lists and grids -/

instance (e : Nat) (f : FieldId) : Blind n E (listBox e f) := by
  unfold listBox
  refine Blind.bind' inferInstance fun text => Blind.bind' inferInstance fun children => ?_
  refine Blind.bind' (Blind.forIn' fun child _ => ?_) fun _ => inferInstance
  refine Blind.bind' inferInstance fun d => ?_
  dsimp only
  split
  · infer_instance
  · refine ⟨.bind (draws_take? child "value" [text]) fun A hA => ?_⟩
    refine .after Blind.draws fun _ => .after Blind.draws fun item => ?_
    cases hA with
    | none => exact .after Blind.draws fun _ => Blind.draws
    | some hF =>
      exact .after (draws_call f _ (.cons (.plain _) (Each.one hF))) fun _ => Blind.draws

/-- Cells with the same content and drawn styles. -/
def GridCell.Alike (C : Numbering n → GridCell) : Prop :=
  ∃ (content : GridContent) (S : Numbering n → Option Text), Maybe Drawn S ∧
    C = fun ν => ⟨content, S ν⟩

instance : Kind (GridCell.Alike (n := n)) := ⟨fun c => ⟨c.content, _, Kind.plain c.style, rfl⟩⟩

/-- Rows with drawn styles and as many cells. -/
def GridRow.Alike (R : Numbering n → GridRow) : Prop :=
  ∃ (S : Numbering n → Option Text) (L : Numbering n → List GridCell), Maybe Drawn S ∧
    Each GridCell.Alike L ∧ R = fun ν => ⟨S ν, L ν⟩

instance : Kind (GridRow.Alike (n := n)) :=
  ⟨fun r => ⟨_, _, Kind.plain r.style, Kind.plain r.cells, rfl⟩⟩

theorem draws_gridCell (e row child : Nat) :
    Draws (n := n) E (fun _ => gridCell build e row child) GridCell.Alike := by
  unfold gridCell
  refine .after Blind.draws fun text => .bind (draws_take? child _ [text]) fun S hS => ?_
  refine .after Blind.draws fun _ => .after Blind.draws fun d => .ite (fun _ => ?_) fun _ =>
    .ite (fun _ => ?_) fun _ => .of_spoils fun _ => inferInstance
  · exact .after Blind.draws fun html => .answer ⟨_, S, hS, rfl⟩
  · exact .after Blind.draws fun g => .answer ⟨_, S, hS, rfl⟩

theorem draws_gridRow (e row : Nat) :
    Draws (n := n) E (fun _ => gridRow build e row) GridRow.Alike := by
  unfold gridRow
  refine .after Blind.draws fun d => ?_
  dsimp only
  split
  · exact .of_spoils fun _ => inferInstance
  · refine .after Blind.draws fun text => .bind (draws_take? row _ [text]) fun S hS => ?_
    refine .after Blind.draws fun _ => .after Blind.draws fun children => ?_
    refine .bind (Q := Each GridCell.Alike) (.mapM (Q := Same) (Kind.plain _) ?_) fun L hL =>
      .answer ⟨S, L, hS, hL, rfl⟩
    rintro A ⟨child, rfl⟩
    exact draws_gridCell e row child

omit [Unspliced E] in
theorem draws_fillCell (f : FieldId) (row column : Nat) {C : Numbering n → GridCell}
    (hC : GridCell.Alike C) : Draws E (fun ν => fillCell f row column (C ν)) Same := by
  obtain ⟨content, S, hS, rfl⟩ := hC
  have hstyle : ∀ place : List Text, Draws E (fun ν => (match S ν with
      | some style => call f "SetCellStyleName" (place ++ [style])
      | none => pure () : Work Session Unit)) Same := by
    intro place
    cases hS with
    | none => exact Blind.draws
    | some hF => exact draws_call f _ ((Kind.plain (Q := Each Drawn) place).append (Each.one hF))
  unfold fillCell
  dsimp only
  cases content with
  | widget g => exact .after Blind.draws fun name => .after Blind.draws fun _ => hstyle _
  | markup html => exact .after Blind.draws fun _ => hstyle _

theorem GridRow.Alike.length {R : Numbering n → GridRow} (h : GridRow.Alike R) :
    Same fun ν => (R ν).cells.length := by
  obtain ⟨S, L, -, ⟨cs, -, rfl⟩, rfl⟩ := h
  exact ⟨cs.length, funext fun _ => List.length_map _⟩

instance (e : Nat) (f : FieldId) : Blind n E (grid build e f) := by
  unfold grid
  refine Blind.bind' inferInstance fun children => ⟨.bind (Q := Each GridRow.Alike)
    (.mapM (Q := Same) (Kind.plain _) ?_) fun R hR => ?_⟩
  · rintro A ⟨row, rfl⟩
    exact draws_gridRow e row
  · obtain ⟨lengths, hlengths⟩ :=
      (hR.map (f := fun _ row => row.cells.length) fun _ hA => hA.length).same
    have hcells : ∀ ν, (R ν).map (·.cells.length) = lengths := congrFun hlengths
    have hrows : ∀ ν, (R ν).length = lengths.length := fun ν => by rw [← hcells ν, List.length_map]
    have hempty : ∀ ν, (R ν).isEmpty = lengths.isEmpty := fun ν => by
      rw [← hcells ν, List.isEmpty_map]
    simp only [hempty, hcells, hrows]
    refine .ite (fun _ => Blind.draws) fun _ => .after Blind.draws fun _ => ?_
    refine .after (.forIn hR.zipIdx ?_) fun _ => .after (.forIn hR.zipIdx ?_) fun _ => Blind.draws
    · rintro _ ⟨_, _, ⟨S, L, hS, -, rfl⟩, ⟨r, rfl⟩, rfl⟩
      dsimp only
      cases hS with
      | none => exact Blind.draws
      | some hF =>
        exact .after (draws_call f _ (.cons (.plain _) (Each.one hF))) fun _ => Blind.draws
    · rintro _ ⟨_, _, ⟨S, L, -, hL, rfl⟩, ⟨r, rfl⟩, rfl⟩
      dsimp only
      refine .after (.forIn hL.zipIdx ?_) fun _ => Blind.draws
      rintro _ ⟨C, _, hC, ⟨c, rfl⟩, rfl⟩
      exact .after (draws_fillCell f r c hC) fun _ => Blind.draws

/-! ### Trees, buttons and images -/

instance (e : Nat) (f : FieldId) (setWidget : Option Method) (held : Bool) (children : List Nat) :
    Blind n E (treeItemsFrom build e f setWidget held children) := by
  induction children generalizing held with
  | nil =>
    unfold treeItemsFrom
    infer_instance
  | cons child rest ih =>
    unfold treeItemsFrom
    repeat' (first | infer_instance | split)

instance (e : Nat) (f : FieldId) (type : TypeId) : Blind n E (treeItems build e f type) := by
  unfold treeItems
  infer_instance

instance (e : Nat) (f : FieldId) (seen : List Text) (found : List Nat) :
    Blind n E (facesFrom build e f seen found) := by
  induction found generalizing seen with
  | nil =>
    unfold facesFrom
    infer_instance
  | cons face rest ih =>
    have hrest : ∀ method base, Blind n E (do
        Document.assertNoAttributes face
        if (← getDocument).hasContent face then
          call f method [← Content.markupLiteral build face]
        facesFrom build e f (base :: seen) rest : Work Session Unit) := fun _ _ => inferInstance
    unfold facesFrom
    refine Blind.bind' inferInstance fun d => ?_
    dsimp only
    split
    · infer_instance
    · refine Blind.bind' inferInstance fun image => ⟨.bind (draws_take? face _ _) fun A hA => ?_⟩
      cases hA with
      | none => exact (hrest _ _).draws
      | some hF => exact .after (draws_call f _ (Each.one hF)) fun _ => (hrest _ _).draws

instance (e : Nat) (f : FieldId) : Blind n E (faces build e f) := by
  unfold faces
  infer_instance

instance (e : Nat) (f : FieldId) (type : TypeId) : Blind n E (image e f type) := by
  unfold image
  refine Blind.bind' inferInstance fun d => ?_
  split
  · infer_instance
  · refine Blind.bind' inferInstance fun resource => ⟨.bind (draws_takeRequired e _ _) ?_⟩
    intro F hF
    refine .after Blind.draws fun made => .ite (fun _ => draws_call f _ (Each.one hF)) fun _ => ?_
    refine .after Blind.draws fun c => ?_
    split
    · exact .after Blind.draws fun function =>
        (Draft.draws_setInitializer f (drawn_callText (.plain _) (Each.one hF))).lift
    · exact Blind.draws

/-! ### Elements -/

instance (e : Nat) (f : FieldId) (type : TypeId) (rule : Rule) :
    Blind n E (follow build e f type rule) := by
  cases rule <;> (unfold follow; infer_instance)

instance (e : Nat) (type : Option TypeId) : Blind n E (declaredName? e type) := by
  unfold declaredName?
  refine Blind.bind' inferInstance fun found => ?_
  split <;> infer_instance

omit [Unspliced E] in
/-- A made-up name shows how many were made up. -/
theorem blind_nextName (base : Document → Text) : Blind n E (modifyGet fun s =>
    let (name, fields) := s.fields.nextName (base s.document)
    (name, { s with fields }) : Work Session Text) where
  draws := {
    back := fun _ => ⟨fun hrun hrefers => by
      cases hrun
      exact ⟨hrefers.few, hrefers.allowed, hrefers.calm, hrefers.names⟩⟩
    draws := by
      rintro S ⟨M, T, s, hM, hT, rfl⟩ ν name s' - -
      obtain ⟨made, T', hT', hmade⟩ := hT.nextName (base s.document)
      refine ⟨fun _ => made, fun ν => dress (M ν) (T' ν) s, ⟨M, T', s, hM, hT', rfl⟩, ⟨made, rfl⟩,
        fun ν => ?_⟩
      rw [Work.runOn_modifyGet]
      show (Except.ok ((T ν).nextName (base s.document)).1,
        dress (M ν) ((T ν).nextName (base s.document)).2 s) = _
      rw [hmade] }

instance (e : Nat) (type : Option TypeId) : Blind n E (fieldName e type) := by
  unfold fieldName
  refine Blind.bind' inferInstance fun found => ?_
  split
  · infer_instance
  · exact blind_nextName fun d => (d.name e).base

instance (f : FieldId) (name : Text) : Blind n E (provide f name) := by
  unfold provide
  refine Blind.reading (fun s => ?_) fun _ _ _ => rfl
  split
  · split
    · have hmark : Blind n E (Draft.changeField f ({ · with provided := true })) :=
        Draft.blind_changeField f fun _ _ _ => rfl
      infer_instance
    · infer_instance
  · infer_instance

/-- The stack of elements shows no number. -/
instance (e : Nat) (f : FieldId) {α : Type} (w : Work Session α) [hw : Blind n E w] :
    Blind n E (inside e f w) := by
  have hback : ∀ (s : Session) (fields : FieldTable), Sinks n E s { s with fields } :=
    fun s fields hrefers => ⟨hrefers.few, hrefers.allowed, hrefers.calm, hrefers.names⟩
  have hstack : ∀ (g : List Frame → List Frame) (S : Numbering n → Session), Alike S →
      Alike fun ν => { S ν with fields.stack := g (S ν).fields.stack } := by
    rintro g S ⟨M, T, s, hM, hT, rfl⟩
    exact ⟨M, _, s, hM, hT.withStack g, rfl⟩
  have henter : Blind n E (modify fun s => { s with fields := s.fields.enter e f } :
      Work Session Unit) :=
    ⟨.changing (fun _ s => hback s _) fun S hS _ _ => hstack (⟨e, f⟩ :: ·) S hS⟩
  have hleave : Blind n E (w.andThenAlways fun s => { s with fields := s.fields.leave }) :=
    ⟨hw.draws.always (fun s => hback s _) fun S hS => hstack (·.drop 1) S hS⟩
  unfold inside
  infer_instance

instance (e : Nat) : Blind n E (buildWith build e) := by
  unfold buildWith
  refine Blind.bind' inferInstance fun c => Blind.bind' inferInstance fun d => ?_
  refine Blind.bind' inferInstance fun type => Blind.bind' inferInstance fun name => ?_
  refine Blind.bind' inferInstance fun f => Blind.bind' inferInstance fun _ => ?_
  split <;> infer_instance

omit [∀ e, Blind n E (build e)] in
instance (fuel e : Nat) : Blind n E (buildWithin fuel e) := by
  induction fuel generalizing e with
  | zero =>
    unfold buildWithin
    infer_instance
  | succ fuel ih =>
    unfold buildWithin
    infer_instance

omit [∀ e, Blind n E (build e)] in
instance (e : Nat) : Blind n E (Element.build e) := by
  unfold Element.build
  infer_instance

end Element

end ViewBinder
