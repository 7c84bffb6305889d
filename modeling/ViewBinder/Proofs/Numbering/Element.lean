-- Elements and the numbers of markers: every rule of an element follows the numbers if the building
-- of its children does, and so building elements of any depth does.
import ViewBinder.Element.Build
import ViewBinder.Proofs.Numbering.Content

namespace ViewBinder.Element

open Markup (Document)
open Session
open Work (Follows)

variable {build : Builder}

/-! ## Constructing fields -/

instance (e : Nat) (names : List Text) (params : List Param) :
    Follows (bindArguments e names params) := by
  unfold bindArguments
  infer_instance

instance (e : Nat) (type : TypeId) : Follows (constructed e type) := by
  unfold constructed
  repeat' (first | infer_instance | split | refine Follows.bind' inferInstance fun _ => ?_ |
    dsimp only)

instance (e : Nat) (type : TypeId) : Follows (initializer e type) := by
  unfold initializer
  refine Follows.reading (fun _ _ => rfl) fun s => ?_
  split <;> infer_instance

instance (e : Nat) (failure : Failure) : Follows (reportFailure e failure) :=
  Follows.changing (fun _ => rfl) fun _ _ => rfl

instance (e : Nat) (f : FieldId) (type : TypeId) (i : Nat) (a : Markup.Attribute) :
    Follows (setProperty e f type i a) := by
  unfold setProperty
  repeat' (first | infer_instance | split | refine Follows.bind' inferInstance fun _ => ?_ |
    dsimp only)

/-- Work that fails with what was reported. -/
theorem follows_failure : Follows (do
    match (← get).log.failure? with
    | some failure => throw failure
    | none => return () : Work Session Unit) := by
  refine Follows.reading (fun _ _ => rfl) fun s => ?_
  split <;> infer_instance

instance (e : Nat) (f : FieldId) (type : TypeId) : Follows (properties e f type) := by
  have hsetters : Follows (do
      let attributes := ((← getDocument).remaining e).filter fun a => a.2.name.uri.isEmpty
      let answers ← attributes.mapM fun (i, a) => setProperty e f type i a
      if !answers.all id then
        match (← get).log.failure? with
        | some failure => throw failure
        | none => return () : Work Session Unit) := by
    refine Follows.bind' inferInstance fun d => Follows.bind' inferInstance fun answers => ?_
    split
    · exact follows_failure
    · infer_instance
  unfold properties
  infer_instance

instance (e : Nat) : Follows (nothingLeft e) := by
  unfold nothingLeft
  infer_instance

/-! ## Messages and child tags -/

instance (e : Nat) : Follows (attributeMessages e) := by
  unfold attributeMessages
  infer_instance

variable [∀ e, Follows (build e)]

instance (e : Nat) (wanted : Option TypeId) : Follows (onlyChild build e wanted) := by
  unfold onlyChild
  infer_instance

instance (e : Nat) : Follows (onlyWidget build e) := by
  unfold onlyWidget
  infer_instance

instance (e : Nat) (f : FieldId) (child used : Nat) (slot : ChildSlot) :
    Follows (childTag build e f child used slot) := by
  unfold childTag
  repeat' (first | infer_instance | split)

instance (e : Nat) (f : FieldId) (d : Descriptor) (seen : List Text) (children : List Nat) :
    Follows (childTagsFrom build e f d seen children) := by
  induction children generalizing seen with
  | nil =>
    unfold childTagsFrom
    infer_instance
  | cons child rest ih =>
    unfold childTagsFrom
    refine Follows.bind' inferInstance fun doc => ?_
    dsimp only
    split <;> infer_instance

instance (e : Nat) (f : FieldId) (type : TypeId) : Follows (childTags build e f type) := by
  unfold childTags
  infer_instance

/-! ## Bodies -/

instance (e : Nat) (f : FieldId) : Follows (styledObject e f) := by
  unfold styledObject
  repeat' (first | infer_instance | split | refine Follows.bind' inferInstance fun _ => ?_ |
    refine Follows.bind' (Follows.forIn' fun _ _ => ?_) fun _ => ?_)

instance (e : Nat) (f : FieldId) : Follows (bodyText build e f) := by
  unfold bodyText
  infer_instance

instance (e : Nat) (f : FieldId) : Follows (bodyMarkup build e f) := by
  unfold bodyMarkup
  infer_instance

instance (e : Nat) (f : FieldId) (type : TypeId) : Follows (domElement build e f type) := by
  unfold domElement
  repeat' (first | infer_instance | split | refine Follows.bind' inferInstance fun _ => ?_)

instance (e : Nat) (f : FieldId) (stamped : Bool) : Follows (panelLiteral build e f stamped) := by
  unfold panelLiteral
  infer_instance

instance (e : Nat) (f : FieldId) (type : TypeId) : Follows (markupPanel build e f type) := by
  unfold markupPanel
  repeat' (first | infer_instance | split | refine Follows.bind' inferInstance fun _ => ?_)

instance (e : Nat) (f : FieldId) (type : TypeId) : Follows (stampedPanel build e f type) := by
  unfold stampedPanel
  infer_instance

/-! ## Panels -/

instance (e child : Nat) : Follows (widgetChild build e child) := by
  unfold widgetChild
  infer_instance

instance (allowed : Text) (parent child : Nat) :
    Follows (failOnlyChildren allowed parent child : Work Session α) := by
  unfold failOnlyChildren
  infer_instance

instance (e : Nat) (f : FieldId) : Follows (widgets build e f) := by
  unfold widgets
  infer_instance

instance (e : Nat) (f : FieldId) : Follows (alignment e f) := by
  unfold alignment
  refine Follows.bind' (Follows.forIn' fun entry _ => ?_) fun _ => inferInstance
  refine Follows.bind' inferInstance fun type => Follows.bind' inferInstance fun found => ?_
  split <;> infer_instance

instance (e : Nat) (f : FieldId) (child centers : Nat) :
    Follows (dockCenter build e f child centers) := by
  unfold dockCenter
  infer_instance

instance (e : Nat) (f : FieldId) (child : Nat) : Follows (dockSide build e f child) := by
  unfold dockSide
  refine Follows.bind' inferInstance fun d => ?_
  split <;> infer_instance

instance (e : Nat) (f : FieldId) (centers : Nat) (children : List Nat) :
    Follows (dockFrom build e f centers children) := by
  induction children generalizing centers with
  | nil =>
    unfold dockFrom
    infer_instance
  | cons child rest ih =>
    unfold dockFrom
    infer_instance

instance (e : Nat) (f : FieldId) : Follows (dock build e f) := by
  unfold dock
  infer_instance

instance (e tag : Nat) (sized : Bool) : Follows (readHeader build e tag sized) := by
  unfold readHeader
  split <;> infer_instance

instance (e item : Nat) (header : Option Nat) (content : Option FieldId) (slots : List Nat) :
    Follows (splitItem build e item header content slots) := by
  induction slots generalizing header content with
  | nil =>
    unfold splitItem
    split <;> infer_instance
  | cons child rest ih =>
    unfold splitItem
    infer_instance

instance (e item : Nat) : Follows (readItem build e item) := by
  unfold readItem
  infer_instance

instance (e : Nat) (f : FieldId) : Follows (stack build e f) := by
  unfold stack
  repeat' (first | infer_instance | split | refine Follows.bind' inferInstance fun _ => ?_ |
    refine Follows.bind' (Follows.forIn' fun _ _ => ?_) fun _ => ?_)

instance (e : Nat) (f : FieldId) : Follows (tabs build e f) := by
  unfold tabs
  repeat' (first | infer_instance | split | refine Follows.bind' inferInstance fun _ => ?_ |
    refine Follows.bind' (Follows.forIn' fun _ _ => ?_) fun _ => ?_)

instance (e : Nat) (pairs : List (Text × Text)) : Follows (pickPair e pairs) := by
  unfold pickPair
  repeat' (first | infer_instance | split | refine Follows.bind' inferInstance fun _ => ?_)

instance (e : Nat) (pairs : List (Text × Text)) : Follows (placement? e pairs) := by
  unfold placement?
  repeat' (first | infer_instance | split | refine Follows.bind' inferInstance fun _ => ?_)

instance (e : Nat) (f : FieldId) : Follows (layers build e f) := by
  unfold layers
  refine Follows.bind' inferInstance fun children => ?_
  refine Follows.bind' (Follows.forIn' fun child _ => ?_) fun _ => inferInstance
  refine Follows.bind' inferInstance fun d => ?_
  repeat' (first | infer_instance | split | refine Follows.bind' inferInstance fun _ => ?_)

instance (e : Nat) (f : FieldId) : Follows (absolute build e f) := by
  unfold absolute
  refine Follows.bind' inferInstance fun whole => Follows.bind' inferInstance fun children => ?_
  refine Follows.bind' (Follows.forIn' fun child _ => ?_) fun _ => inferInstance
  refine Follows.bind' inferInstance fun d => ?_
  split <;> infer_instance

instance (f : FieldId) (tag : Nat) (pattern : Text) : Follows (cell build f tag pattern) := by
  unfold cell
  repeat' (first | infer_instance | split | refine Follows.bind' inferInstance fun _ => ?_ |
    refine Follows.bind' (Follows.mapM' fun _ => ?_) fun _ => ?_)

instance (e : Nat) (f : FieldId) (type : TypeId) (child : Nat) :
    Follows (dockCell build e f type child) := by
  unfold dockCell
  repeat' (first | infer_instance | split | refine Follows.bind' inferInstance fun _ => ?_)

instance (e : Nat) (f : FieldId) (type : TypeId) : Follows (cells build e f type) := by
  unfold cells
  refine Follows.bind' inferInstance fun children => ?_
  refine Follows.bind' (Follows.forIn' fun child _ => ?_) fun _ => inferInstance
  infer_instance

instance (f : FieldId) (tag : Nat) : Follows (headerImages f tag) := by
  unfold headerImages
  infer_instance

instance (e : Nat) (f : FieldId) (filled : Bool) (children : List Nat) :
    Follows (disclosureFrom build e f filled children) := by
  induction children generalizing filled with
  | nil =>
    unfold disclosureFrom
    infer_instance
  | cons child rest ih =>
    unfold disclosureFrom
    repeat' (first | infer_instance | split | refine Follows.bind' inferInstance fun _ => ?_)

instance (e : Nat) (f : FieldId) : Follows (disclosure build e f) := by
  unfold disclosure
  infer_instance

/-! ## Items -/

instance (child : Nat) (wanted : Option TypeId) : Follows (isOf child wanted) := by
  unfold isOf
  infer_instance

instance (e : Nat) (f : FieldId) (type : TypeId) : Follows (menuBar build e f type) := by
  unfold menuBar
  repeat' (first | infer_instance | split | refine Follows.bind' inferInstance fun _ => ?_ |
    refine Follows.bind' (Follows.forIn' fun _ _ => ?_) fun _ => ?_)

instance (e : Nat) : Follows (menuText build e) := by
  unfold menuText
  repeat' (first | infer_instance | split | refine Follows.bind' inferInstance fun _ => ?_)

instance (e : Nat) (f : FieldId) (type : TypeId) : Follows (menuItem build e f type) := by
  unfold menuItem
  repeat' (first | infer_instance | split | refine Follows.bind' inferInstance fun _ => ?_)

instance (e : Nat) (f : FieldId) : Follows (listBox e f) := by
  unfold listBox
  repeat' (first | infer_instance | split | refine Follows.bind' inferInstance fun _ => ?_ |
    refine Follows.bind' (Follows.forIn' fun _ _ => ?_) fun _ => ?_)

instance (e row child : Nat) : Follows (gridCell build e row child) := by
  unfold gridCell
  refine Follows.bind' inferInstance fun text => Follows.bind' inferInstance fun style => ?_
  infer_instance

instance (e row : Nat) : Follows (gridRow build e row) := by
  unfold gridRow
  repeat' (first | infer_instance | split | refine Follows.bind' inferInstance fun _ => ?_)

instance (f : FieldId) (row column : Nat) (cell : GridCell) :
    Follows (fillCell f row column cell) := by
  unfold fillCell
  repeat' (first | infer_instance | split)

instance (e : Nat) (f : FieldId) : Follows (grid build e f) := by
  unfold grid
  repeat' (first | infer_instance | split | refine Follows.bind' inferInstance fun _ => ?_ |
    refine Follows.bind' (Follows.forIn' fun _ _ => ?_) fun _ => ?_)

instance (e : Nat) (f : FieldId) (setWidget : Option Method) (held : Bool) (children : List Nat) :
    Follows (treeItemsFrom build e f setWidget held children) := by
  induction children generalizing held with
  | nil =>
    unfold treeItemsFrom
    infer_instance
  | cons child rest ih =>
    unfold treeItemsFrom
    repeat' (first | infer_instance | split)

instance (e : Nat) (f : FieldId) (type : TypeId) : Follows (treeItems build e f type) := by
  unfold treeItems
  infer_instance

instance (e : Nat) (f : FieldId) (seen : List Text) (found : List Nat) :
    Follows (facesFrom build e f seen found) := by
  induction found generalizing seen with
  | nil =>
    unfold facesFrom
    infer_instance
  | cons child rest ih =>
    unfold facesFrom
    repeat' (first | infer_instance | split | refine Follows.bind' inferInstance fun _ => ?_ |
      dsimp only)

instance (e : Nat) (f : FieldId) : Follows (faces build e f) := by
  unfold faces
  infer_instance

instance (e : Nat) (f : FieldId) (type : TypeId) : Follows (image e f type) := by
  unfold image
  repeat' (first | infer_instance | split | refine Follows.bind' inferInstance fun _ => ?_)

/-! ## Building elements -/

instance (e : Nat) (f : FieldId) (type : TypeId) (rule : Rule) :
    Follows (follow build e f type rule) := by
  cases rule <;> (unfold follow; infer_instance)

instance (e : Nat) (type : Option TypeId) : Follows (declaredName? e type) := by
  unfold declaredName?
  repeat' (first | infer_instance | split | refine Follows.bind' inferInstance fun _ => ?_)

instance (e : Nat) (type : Option TypeId) : Follows (fieldName e type) := by
  unfold fieldName
  refine Follows.bind' inferInstance fun declared => ?_
  split
  · infer_instance
  · exact Follows.changingTo (fun _ => rfl) fun _ _ => rfl

instance (f : FieldId) (name : Text) : Follows (provide f name) := by
  unfold provide
  refine Follows.reading (fun _ _ => rfl) fun s => ?_
  split <;> infer_instance

instance (e : Nat) (f : FieldId) (w : Work Session α) [h : Follows w] : Follows (inside e f w) :=
  h.between (fun _ => rfl) (fun _ => rfl) (fun _ _ => rfl) fun _ _ => rfl

instance (e : Nat) : Follows (buildWith build e) := by
  unfold buildWith
  refine Follows.bind' inferInstance fun c => Follows.bind' inferInstance fun d => ?_
  refine Follows.bind' inferInstance fun type => Follows.bind' inferInstance fun name => ?_
  refine Follows.bind' inferInstance fun f => Follows.bind' inferInstance fun _ => ?_
  split <;> infer_instance

instance (fuel e : Nat) : Follows (buildWithin fuel e) := by
  induction fuel generalizing e with
  | zero => exact inferInstanceAs (Follows (throw _))
  | succ fuel ih => exact inferInstanceAs (Follows (buildWith _ e))

instance (e : Nat) : Follows (Element.build e) := by
  unfold Element.build
  infer_instance

end ViewBinder.Element
