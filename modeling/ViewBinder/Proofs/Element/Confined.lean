-- Elements leave the content around them alone: whatever is built, no splice of the content is
-- added or lost, and no line is written into a section of it.
import ViewBinder.Element.Build
import ViewBinder.Proofs.Session.Confined

namespace ViewBinder.Element

open Markup (Document)
open Session
open Work (Keeps Leads)

variable {splicing attaching : Bool} {build : Builder}

/-! ## Constructing fields -/

instance (e : Nat) (names : List Text) (params : List Param) :
    Leads (Confined splicing attaching) (bindArguments e names params) := by
  unfold bindArguments
  infer_instance

instance (e : Nat) (type : TypeId) : Leads (Confined splicing attaching) (constructed e type) := by
  unfold constructed
  repeat' (first | infer_instance | split | refine Leads.bind' inferInstance fun _ => ?_ |
    dsimp only)

instance (e : Nat) (type : TypeId) : Leads (Confined splicing attaching) (initializer e type) := by
  unfold initializer
  refine Leads.bind' inferInstance fun s => ?_
  split <;> infer_instance

instance (e : Nat) (failure : Failure) :
    Leads (Confined splicing attaching) (reportFailure e failure) :=
  leads_modify (fun _ => rfl) fun _ => rfl

instance (e : Nat) (f : FieldId) (type : TypeId) (i : Nat) (a : Markup.Attribute) :
    Leads (Confined splicing attaching) (setProperty e f type i a) := by
  unfold setProperty
  repeat' (first | infer_instance | split | refine Leads.bind' inferInstance fun _ => ?_ |
    dsimp only)

instance (e : Nat) (f : FieldId) (type : TypeId) :
    Leads (Confined splicing attaching) (properties e f type) := by
  unfold properties
  refine Leads.bind' inferInstance fun made => ?_
  dsimp only
  repeat' (first | infer_instance | split | refine Leads.bind' inferInstance fun _ => ?_)

instance (e : Nat) : Leads (Confined splicing attaching) (nothingLeft e) := by
  unfold nothingLeft
  infer_instance

/-! ## Messages and child tags -/

instance (e : Nat) : Leads (Confined splicing attaching) (attributeMessages e) := by
  unfold attributeMessages
  infer_instance

variable [∀ splicing attaching e, Leads (Confined splicing attaching) (build e)]

instance (e : Nat) (wanted : Option TypeId) :
    Leads (Confined splicing attaching) (onlyChild build e wanted) := by
  unfold onlyChild
  infer_instance

instance (e : Nat) : Leads (Confined splicing attaching) (onlyWidget build e) := by
  unfold onlyWidget
  infer_instance

instance (e : Nat) (f : FieldId) (child used : Nat) (slot : ChildSlot) :
    Leads (Confined splicing attaching) (childTag build e f child used slot) := by
  unfold childTag
  refine Leads.bind' inferInstance fun c => ?_
  dsimp only
  repeat' (first | infer_instance | split)

instance (e : Nat) (f : FieldId) (d : Descriptor) (seen : List Text) (children : List Nat) :
    Leads (Confined splicing attaching) (childTagsFrom build e f d seen children) := by
  induction children generalizing seen with
  | nil =>
    unfold childTagsFrom
    infer_instance
  | cons child rest ih =>
    unfold childTagsFrom
    refine Leads.bind' inferInstance fun doc => ?_
    dsimp only
    split <;> infer_instance

instance (e : Nat) (f : FieldId) (type : TypeId) :
    Leads (Confined splicing attaching) (childTags build e f type) := by
  unfold childTags
  infer_instance

/-! ## Bodies -/

instance (e : Nat) (f : FieldId) : Leads (Confined splicing attaching) (styledObject e f) := by
  unfold styledObject
  repeat' (first | infer_instance | split | refine Leads.bind' inferInstance fun _ => ?_ |
    refine Leads.bind' (Leads.forIn' fun _ _ => ?_) fun _ => ?_)

instance (e : Nat) (f : FieldId) : Leads (Confined splicing attaching) (bodyText build e f) := by
  unfold bodyText
  infer_instance

instance (e : Nat) (f : FieldId) : Leads (Confined splicing attaching) (bodyMarkup build e f) := by
  unfold bodyMarkup
  infer_instance

instance (e : Nat) (f : FieldId) (type : TypeId) :
    Leads (Confined splicing attaching) (domElement build e f type) := by
  unfold domElement
  repeat' (first | infer_instance | split | refine Leads.bind' inferInstance fun _ => ?_)

instance (e : Nat) (f : FieldId) (stamped : Bool) :
    Leads (Confined splicing attaching) (panelLiteral build e f stamped) := by
  unfold panelLiteral
  infer_instance

instance (e : Nat) (f : FieldId) (type : TypeId) :
    Leads (Confined splicing attaching) (markupPanel build e f type) := by
  unfold markupPanel
  repeat' (first | infer_instance | split | refine Leads.bind' inferInstance fun _ => ?_)

instance (e : Nat) (f : FieldId) (type : TypeId) :
    Leads (Confined splicing attaching) (stampedPanel build e f type) := by
  unfold stampedPanel
  infer_instance

/-! ## Panels -/

instance (e child : Nat) : Leads (Confined splicing attaching) (widgetChild build e child) := by
  unfold widgetChild
  infer_instance

instance (allowed : Text) (parent child : Nat) :
    Leads (Confined splicing attaching) (failOnlyChildren allowed parent child : Work Session α) := by
  unfold failOnlyChildren
  infer_instance

instance (e : Nat) (f : FieldId) : Leads (Confined splicing attaching) (widgets build e f) := by
  unfold widgets
  infer_instance

instance (e : Nat) (f : FieldId) : Leads (Confined splicing attaching) (alignment e f) := by
  unfold alignment
  refine Leads.bind' (Leads.forIn' fun entry _ => ?_) fun _ => inferInstance
  refine Leads.bind' inferInstance fun type => Leads.bind' inferInstance fun found => ?_
  split <;> infer_instance

instance (e : Nat) (f : FieldId) (child centers : Nat) :
    Leads (Confined splicing attaching) (dockCenter build e f child centers) := by
  unfold dockCenter
  infer_instance

instance (e : Nat) (f : FieldId) (child : Nat) :
    Leads (Confined splicing attaching) (dockSide build e f child) := by
  unfold dockSide
  refine Leads.bind' inferInstance fun d => ?_
  split <;> infer_instance

instance (e : Nat) (f : FieldId) (centers : Nat) (children : List Nat) :
    Leads (Confined splicing attaching) (dockFrom build e f centers children) := by
  induction children generalizing centers with
  | nil =>
    unfold dockFrom
    infer_instance
  | cons child rest ih =>
    unfold dockFrom
    infer_instance

instance (e : Nat) (f : FieldId) : Leads (Confined splicing attaching) (dock build e f) := by
  unfold dock
  infer_instance

instance (e tag : Nat) (sized : Bool) :
    Leads (Confined splicing attaching) (readHeader build e tag sized) := by
  unfold readHeader
  dsimp only
  split
  · refine Leads.bind' inferInstance fun type => Leads.bind' inferInstance fun size => ?_
    infer_instance
  · infer_instance

instance (e item : Nat) (header : Option Nat) (content : Option FieldId) (slots : List Nat) :
    Leads (Confined splicing attaching) (splitItem build e item header content slots) := by
  induction slots generalizing header content with
  | nil =>
    unfold splitItem
    split <;> infer_instance
  | cons child rest ih =>
    unfold splitItem
    infer_instance

instance (e item : Nat) : Leads (Confined splicing attaching) (readItem build e item) := by
  unfold readItem
  infer_instance

instance (e : Nat) (f : FieldId) : Leads (Confined splicing attaching) (stack build e f) := by
  unfold stack
  repeat' (first | infer_instance | split | refine Leads.bind' inferInstance fun _ => ?_ |
    refine Leads.bind' (Leads.forIn' fun _ _ => ?_) fun _ => ?_)

instance (e : Nat) (f : FieldId) : Leads (Confined splicing attaching) (tabs build e f) := by
  unfold tabs
  repeat' (first | infer_instance | split | refine Leads.bind' inferInstance fun _ => ?_ |
    refine Leads.bind' (Leads.forIn' fun _ _ => ?_) fun _ => ?_)

instance (e : Nat) (pairs : List (Text × Text)) :
    Leads (Confined splicing attaching) (pickPair e pairs) := by
  unfold pickPair
  repeat' (first | infer_instance | split | refine Leads.bind' inferInstance fun _ => ?_)

instance (e : Nat) (pairs : List (Text × Text)) :
    Leads (Confined splicing attaching) (placement? e pairs) := by
  unfold placement?
  repeat' (first | infer_instance | split | refine Leads.bind' inferInstance fun _ => ?_)

instance (e : Nat) (f : FieldId) : Leads (Confined splicing attaching) (layers build e f) := by
  unfold layers
  refine Leads.bind' inferInstance fun children => ?_
  refine Leads.bind' (Leads.forIn' fun child _ => ?_) fun _ => inferInstance
  refine Leads.bind' inferInstance fun d => ?_
  repeat' (first | infer_instance | split | refine Leads.bind' inferInstance fun _ => ?_)

instance (e : Nat) (f : FieldId) : Leads (Confined splicing attaching) (absolute build e f) := by
  unfold absolute
  refine Leads.bind' inferInstance fun whole => Leads.bind' inferInstance fun children => ?_
  refine Leads.bind' (Leads.forIn' fun child _ => ?_) fun _ => inferInstance
  refine Leads.bind' inferInstance fun d => ?_
  split <;> infer_instance

instance (f : FieldId) (tag : Nat) (pattern : Text) :
    Leads (Confined splicing attaching) (cell build f tag pattern) := by
  unfold cell
  repeat' (first | infer_instance | split | refine Leads.bind' inferInstance fun _ => ?_ |
    refine Leads.bind' (Leads.mapM' fun _ => ?_) fun _ => ?_)

instance (e : Nat) (f : FieldId) (type : TypeId) (child : Nat) :
    Leads (Confined splicing attaching) (dockCell build e f type child) := by
  unfold dockCell
  repeat' (first | infer_instance | split | refine Leads.bind' inferInstance fun _ => ?_)

instance (e : Nat) (f : FieldId) (type : TypeId) :
    Leads (Confined splicing attaching) (cells build e f type) := by
  unfold cells
  refine Leads.bind' inferInstance fun children => ?_
  refine Leads.bind' (Leads.forIn' fun child _ => ?_) fun _ => inferInstance
  infer_instance

instance (f : FieldId) (tag : Nat) : Leads (Confined splicing attaching) (headerImages f tag) := by
  unfold headerImages
  infer_instance

instance (e : Nat) (f : FieldId) (filled : Bool) (children : List Nat) :
    Leads (Confined splicing attaching) (disclosureFrom build e f filled children) := by
  induction children generalizing filled with
  | nil =>
    unfold disclosureFrom
    infer_instance
  | cons child rest ih =>
    unfold disclosureFrom
    repeat' (first | infer_instance | split | refine Leads.bind' inferInstance fun _ => ?_)

instance (e : Nat) (f : FieldId) : Leads (Confined splicing attaching) (disclosure build e f) := by
  unfold disclosure
  infer_instance

/-! ## Items -/

instance (child : Nat) (wanted : Option TypeId) :
    Leads (Confined splicing attaching) (isOf child wanted) := by
  unfold isOf
  infer_instance

instance (e : Nat) (f : FieldId) (type : TypeId) :
    Leads (Confined splicing attaching) (menuBar build e f type) := by
  unfold menuBar
  repeat' (first | infer_instance | split | refine Leads.bind' inferInstance fun _ => ?_ |
    refine Leads.bind' (Leads.forIn' fun _ _ => ?_) fun _ => ?_)

instance (e : Nat) : Leads (Confined splicing attaching) (menuText build e) := by
  unfold menuText
  repeat' (first | infer_instance | split | refine Leads.bind' inferInstance fun _ => ?_)

instance (e : Nat) (f : FieldId) (type : TypeId) :
    Leads (Confined splicing attaching) (menuItem build e f type) := by
  unfold menuItem
  repeat' (first | infer_instance | split | refine Leads.bind' inferInstance fun _ => ?_)

instance (e : Nat) (f : FieldId) : Leads (Confined splicing attaching) (listBox e f) := by
  unfold listBox
  repeat' (first | infer_instance | split | refine Leads.bind' inferInstance fun _ => ?_ |
    refine Leads.bind' (Leads.forIn' fun _ _ => ?_) fun _ => ?_)

instance (e row child : Nat) : Leads (Confined splicing attaching) (gridCell build e row child) := by
  unfold gridCell
  refine Leads.bind' inferInstance fun text => Leads.bind' inferInstance fun style => ?_
  infer_instance

instance (e row : Nat) : Leads (Confined splicing attaching) (gridRow build e row) := by
  unfold gridRow
  repeat' (first | infer_instance | split | refine Leads.bind' inferInstance fun _ => ?_)

instance (f : FieldId) (row column : Nat) (cell : GridCell) :
    Leads (Confined splicing attaching) (fillCell f row column cell) := by
  unfold fillCell
  repeat' (first | infer_instance | split)

instance (e : Nat) (f : FieldId) : Leads (Confined splicing attaching) (grid build e f) := by
  unfold grid
  repeat' (first | infer_instance | split | refine Leads.bind' inferInstance fun _ => ?_ |
    refine Leads.bind' (Leads.forIn' fun _ _ => ?_) fun _ => ?_)

instance (e : Nat) (f : FieldId) (setWidget : Option Method) (held : Bool) (children : List Nat) :
    Leads (Confined splicing attaching) (treeItemsFrom build e f setWidget held children) := by
  induction children generalizing held with
  | nil =>
    unfold treeItemsFrom
    infer_instance
  | cons child rest ih =>
    unfold treeItemsFrom
    refine Leads.bind' inferInstance fun item => Leads.bind' inferInstance fun isItem => ?_
    dsimp only
    repeat' (first | infer_instance | split)

instance (e : Nat) (f : FieldId) (type : TypeId) :
    Leads (Confined splicing attaching) (treeItems build e f type) := by
  unfold treeItems
  infer_instance

instance (e : Nat) (f : FieldId) (seen : List Text) (found : List Nat) :
    Leads (Confined splicing attaching) (facesFrom build e f seen found) := by
  induction found generalizing seen with
  | nil =>
    unfold facesFrom
    infer_instance
  | cons child rest ih =>
    unfold facesFrom
    repeat' (first | infer_instance | split | refine Leads.bind' inferInstance fun _ => ?_ |
      dsimp only)

instance (e : Nat) (f : FieldId) : Leads (Confined splicing attaching) (faces build e f) := by
  unfold faces
  infer_instance

instance (e : Nat) (f : FieldId) (type : TypeId) :
    Leads (Confined splicing attaching) (image e f type) := by
  unfold image
  repeat' (first | infer_instance | split | refine Leads.bind' inferInstance fun _ => ?_)

/-! ## Building elements -/

instance (e : Nat) (f : FieldId) (type : TypeId) (rule : Rule) :
    Leads (Confined splicing attaching) (follow build e f type rule) := by
  cases rule <;> (unfold follow; infer_instance)

instance (e : Nat) (type : Option TypeId) :
    Leads (Confined splicing attaching) (declaredName? e type) := by
  unfold declaredName?
  repeat' (first | infer_instance | split | refine Leads.bind' inferInstance fun _ => ?_)

instance (e : Nat) (type : Option TypeId) :
    Leads (Confined splicing attaching) (fieldName e type) := by
  unfold fieldName
  refine Leads.bind' inferInstance fun declared => ?_
  split
  · infer_instance
  · exact ⟨fun _ => confined_of_same rfl rfl⟩

instance (f : FieldId) (name : Text) : Leads (Confined splicing attaching) (provide f name) := by
  unfold provide
  refine Leads.bind' inferInstance fun s => ?_
  split <;> infer_instance

instance (e : Nat) (f : FieldId) (w : Work Session α)
    [h : Leads (Confined splicing attaching) w] :
    Leads (Confined splicing attaching) (inside e f w) where
  leads s := by
    obtain ⟨hsplices, hacts⟩ := h.leads { s with fields := s.fields.enter e f }
    exact ⟨hsplices, hacts⟩

instance (e : Nat) : Leads (Confined splicing attaching) (buildWith build e) := by
  unfold buildWith
  refine Leads.bind' inferInstance fun c => Leads.bind' inferInstance fun d => ?_
  refine Leads.bind' inferInstance fun type => Leads.bind' inferInstance fun name => ?_
  refine Leads.bind' inferInstance fun f => Leads.bind' inferInstance fun _ => ?_
  split <;> infer_instance

omit [∀ splicing attaching e, Leads (Confined splicing attaching) (build e)] in
instance (fuel e : Nat) : Leads (Confined splicing attaching) (buildWithin fuel e) := by
  induction fuel generalizing splicing attaching e with
  | zero =>
    unfold buildWithin
    infer_instance
  | succ fuel ih =>
    unfold buildWithin
    infer_instance

omit [∀ splicing attaching e, Leads (Confined splicing attaching) (build e)] in
instance (e : Nat) : Leads (Confined splicing attaching) (Element.build e) := by
  unfold Element.build
  infer_instance

end ViewBinder.Element
