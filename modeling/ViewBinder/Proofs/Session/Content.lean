-- Content of guarded sessions. Writing content is safe if building what lies in it is: every slot stands
-- behind its element, so the number of nodes is fuel enough and no node is taken that is not there.
import ViewBinder.Proofs.Session.Guarded
import ViewBinder.Template.Content

namespace ViewBinder

open Markup (Document)
open Session
open Work (Safe)

namespace Session

/-- The catalog of the session has a tree that cannot hold a widget and is asked to. -/
def HasBareTree (s : Session) : Prop := s.catalog.HasBareTree

/-- Work on everything below an element is safe. -/
def SafeBelow {α : Type} (D : Document) (e : Nat) (k : Nat → Work Session α) : Prop :=
  ∀ c {child}, D.Below e child → Safe (Guarded D c) HasBareTree (k child)

variable {D : Document} {c : Catalog} {B : Session → Prop} {α : Type}

theorem SafeBelow.deeper {e e' : Nat} {k : Nat → Work Session α} (h : SafeBelow D e k)
    (he : D.Below e e') : SafeBelow D e' k :=
  fun c _ hchild => h c ⟨Nat.lt_trans he.1 hchild.1, hchild.2⟩

/-- The document that is read is the one the session began with, but for what was used. -/
theorem safe_getDocument {k : Document → Work Session α}
    (hk : ∀ d, D.SameTree d → D.Ordered → Safe (Guarded D c) B (k d)) :
    Safe (Guarded D c) B (getDocument >>= k) := by
  refine Safe.after (Q := fun d => D.SameTree d ∧ D.Ordered) inferInstance ?_ ?_
  · intro s d s' hs hrun
    cases hrun
    exact ⟨hs.draft.document, hs.draft.ordered⟩
  · exact fun d hd => hk d hd.1 hd.2

/-- Work on the document of a session is work on the document. -/
theorem liftDocument_ok {w : Work Document α} {s s' : Session} {a : α}
    (h : (liftM w : Work Session α).runOn s = (.ok a, s')) :
    w.runOn s.document = (.ok a, s'.document) := by
  have hanswer : (w.runOn s.document).1 = .ok a := congrArg Prod.fst h
  have hdocument : (w.runOn s.document).2 = s'.document := congrArg (·.2.document) h
  exact Prod.ext hanswer hdocument

/-- The children that work takes of an element stand behind it. -/
theorem safe_taking {e : Nat} {w : Work Document (List Nat)} [Safe D.SameTree (fun _ => False) w]
    {k : List Nat → Work Session α}
    (hw : ∀ {d d' children}, w.runOn d = (.ok children, d') →
      ∀ child ∈ children, child ∈ (d.node e).children)
    (hk : ∀ children, (∀ child ∈ children, D.Below e child) → Safe (Guarded D c) B (k children)) :
    Safe (Guarded D c) B ((liftM w : Work Session (List Nat)) >>= k) := by
  refine Safe.after inferInstance (fun {s children s'} hs hrun => ?_) hk
  intro child hchild
  exact hs.draft.document.below hs.draft.ordered (hw (liftDocument_ok hrun) child hchild)

theorem safe_takeChildren {e : Nat} {k : List Nat → Work Session α}
    (hk : ∀ children, (∀ child ∈ children, D.Below e child) → Safe (Guarded D c) B (k children)) :
    Safe (Guarded D c) B ((liftM (Document.takeChildren e) : Work Session (List Nat)) >>= k) :=
  safe_taking Document.children_of_takeChildren hk

theorem safe_takeChildrenWhere {e : Nat} {passes : Nat → Bool} {k : List Nat → Work Session α}
    (hk : ∀ children, (∀ child ∈ children, D.Below e child) → Safe (Guarded D c) B (k children)) :
    Safe (Guarded D c) B
      ((liftM (Document.takeChildrenWhere e passes) : Work Session (List Nat)) >>= k) :=
  safe_taking Document.children_of_takeChildrenWhere hk

theorem safe_takeImportedChildren {e : Nat} {k : List Nat → Work Session α}
    (hk : ∀ children, (∀ child ∈ children, D.Below e child) → Safe (Guarded D c) B (k children)) :
    Safe (Guarded D c) B
      ((liftM (Document.takeImportedChildren e) : Work Session (List Nat)) >>= k) :=
  safe_taking Document.children_of_takeImportedChildren hk

theorem safe_takeSingleChild {e : Nat} {k : Nat → Work Session α}
    (hk : ∀ child, D.Below e child → Safe (Guarded D c) B (k child)) :
    Safe (Guarded D c) B ((liftM (Document.takeSingleChild e) : Work Session Nat) >>= k) := by
  refine Safe.after inferInstance (fun {s child s'} hs hrun => ?_) hk
  exact hs.draft.document.below hs.draft.ordered
    (Document.child_of_takeSingleChild (liftDocument_ok hrun))

/-- A document that is put in place of the one before is the same tree. -/
theorem safe_setDocument {f : Document → Document} (hf : ∀ d : Document, d.SameTree (f d)) :
    Safe (Guarded D c) B (modify fun s => { s with document := f s.document } : Work Session Unit) :=
  Safe.modify fun s hs => hs.withDocument (hf s.document)

end Session

namespace Content

variable {D : Document} {c : Catalog} {B : Session → Prop} {build : Builder}
  {slot : Nat → Work Session Html}

instance (parent child : Nat) (wanted : Option TypeId) [Safe (Guarded D c) B (build child)] :
    Safe (Guarded D c) B (buildChild build parent child wanted) := by
  unfold buildChild
  infer_instance

/-! ## Messages in attributes -/

instance (e decl : Nat) : Safe (Guarded D c) B (attributeMessage e decl) := by
  unfold attributeMessage
  refine Safe.bind' inferInstance fun name => Safe.bind' inferInstance fun description => ?_
  refine Safe.bind' inferInstance fun meaning => Safe.bind' inferInstance fun key => ?_
  refine Safe.bind' inferInstance fun _ => Safe.bind' inferInstance fun _ => ?_
  refine Safe.bind' inferInstance fun d => ?_
  split <;> infer_instance

instance (e : Nat) (value : Text → Work Session Text) [∀ t, Safe (Guarded D c) B (value t)] :
    Safe (Guarded D c) B (declareAttributeMessages e value) := by
  unfold declareAttributeMessages
  refine Safe.bind' inferInstance fun decls => ?_
  refine Safe.bind' (Safe.forInMem fun decl _ _ => ?_) fun _ => inferInstance
  refine Safe.bind' inferInstance fun (name, m) => Safe.bind' inferInstance fun d => ?_
  refine Safe.bind' inferInstance fun method => Safe.bind' inferInstance fun value => ?_
  exact Safe.bind' (safe_setDocument fun d => d.sameTree_setAttribute e name value) fun _ =>
    inferInstance

instance (expr : Text) : Safe (Guarded D c) B (escaped expr) := by
  unfold escaped
  infer_instance

instance (e : Nat) (text : Option TypeId) [Given text] (value : Text) :
    Safe (Guarded D c) B (computeAttributes.convertValue e text value) := by
  unfold computeAttributes.convertValue
  refine Safe.bind' (Safe.mapMMem fun segment _ => ?_) fun _ => inferInstance
  split <;> infer_instance

instance (e : Nat) : Safe (Guarded D c) B (computeAttributes e) := by
  unfold computeAttributes
  refine safe_found fun text => Safe.bind' inferInstance fun d => ?_
  refine Safe.bind' (Safe.forInMem fun (i, a) _ _ => ?_) fun _ => inferInstance
  dsimp only
  split
  · refine Safe.bind' inferInstance fun value => ?_
    exact Safe.bind' (safe_setDocument fun d => d.sameTree_replaceAttribute e i value) fun _ =>
      inferInstance
  · infer_instance

/-! ## Fields and widgets in markup -/

instance (e : Nat) : Safe (Guarded D c) B (bindField e) := by
  unfold bindField
  refine Safe.bind' inferInstance fun d => ?_
  split
  · infer_instance
  · refine Safe.bind' inferInstance fun found => ?_
    split
    · infer_instance
    · rename_i name
      have hdeclare : Safe (Guarded D c) B (do
          let type := (← getCatalog).domType? (d.name e).base
          let f ← Draft.register .plain type name
          let holder ← declareId
          let marker ← splice e holder
          modify fun s => { s with document := s.document.setAttribute e "id" marker }
          addAttached ((← nameOf f) ++ " = " ++ (← elementById type holder))
          addDetached ((← nameOf f) ++ ".RemoveAttribute(\"id\")") : Work Session Unit) := by
        refine safe_getCatalog fun c' hc' => ?_
        have : Given (c'.domType? (d.name e).base) := ⟨hc'.tags _⟩
        refine Safe.bind' inferInstance fun f => Safe.bind' inferInstance fun holder => ?_
        refine Safe.bind' inferInstance fun marker => ?_
        exact Safe.bind' (safe_setDocument fun d => d.sameTree_setAttribute e "id" marker) fun _ =>
          inferInstance
      refine Safe.bind' inferInstance fun d' => ?_
      split
      · exact Safe.bind' inferInstance fun _ => hdeclare
      · exact hdeclare

instance (e : Nat) (child : FieldId) (holder : Text) :
    Safe (Guarded D c) B (stampWidget e child holder) := by
  unfold stampWidget
  refine Safe.bind' inferInstance fun type => ?_
  split
  · infer_instance
  · refine Safe.bind' inferInstance fun childName => ?_
    refine Safe.bind' inferInstance fun stamper => ?_
    refine Safe.bind' inferInstance fun make => Safe.bind' inferInstance fun used => ?_
    infer_instance

instance (e : Nat) (panel child : FieldId) (holder : Text) :
    Safe (Guarded D c) B (replaceByWidget e panel child holder) := by
  unfold replaceByWidget
  infer_instance

instance (panel : FieldId) (stamped : Bool) (e : Nat) [Safe (Guarded D c) B (build e)] :
    Safe (Guarded D c) B (placeWidget build panel stamped e) := by
  unfold placeWidget
  infer_instance

/-! ## Values -/

instance (e : Nat) (type : Option TypeId) [Given type] :
    Safe (Guarded D c) B (valueFrom e type) := by
  unfold valueFrom
  infer_instance

instance (kind : ContentKind) (e : Nat) : Safe (Guarded D c) B (textValue kind e) := by
  unfold textValue
  infer_instance

instance (e : Nat) : Safe (Guarded D c) B (markupValue e) := by
  unfold markupValue
  refine Safe.bind' inferInstance fun type => ?_
  split <;> infer_instance

/-! ## Messages -/

instance (count : Nat) (pieces : List Marker.Piece) :
    Safe (Guarded D c) B (literalParts count pieces) := by
  induction pieces generalizing count with
  | nil =>
    unfold literalParts
    infer_instance
  | cons piece rest ih =>
    cases piece with
    | plain run =>
      unfold literalParts
      infer_instance
    | marker digits =>
      unfold literalParts
      infer_instance

theorem safe_renderSlots {e : Nat} (hslot : SafeBelow D e slot) :
    Safe (Guarded D c) HasBareTree (renderSlots slot e) := by
  unfold renderSlots
  refine safe_getDocument fun d hd hordered => Safe.mapMMem fun child hchild => hslot c ?_
  exact hd.below hordered (Document.mem_children_of_contents hchild)

theorem safe_placeholder {e : Nat} (hslot : SafeBelow D e slot) :
    Safe (Guarded D c) HasBareTree (placeholder slot e) := by
  have := safe_renderSlots (c := c) hslot
  unfold placeholder
  infer_instance

theorem safe_messageParts {e : Nat} (hslot : SafeBelow D e slot) (literal : Text) (count : Nat)
    {slots : List Nat} (hslots : ∀ n ∈ slots, D.Below e n) :
    Safe (Guarded D c) HasBareTree (messageParts slot e literal count slots) := by
  induction slots generalizing literal count with
  | nil =>
    unfold messageParts
    infer_instance
  | cons n rest ih =>
    have hn := hslots n List.mem_cons_self
    have hrest := fun literal count => ih literal count fun m hm => hslots m (List.mem_cons_of_mem _ hm)
    have := safe_placeholder (c := c) (hslot.deeper hn)
    have := hslot c hn
    have huse : Safe (Guarded D c) HasBareTree (modify fun s =>
        { s with document := s.document.useChild n } : Work Session Unit) :=
      safe_setDocument fun d => d.sameTree_useChild n
    unfold messageParts
    infer_instance

theorem safe_message {e : Nat} (hslot : SafeBelow D e slot) (kind : ContentKind) :
    Safe (Guarded D c) HasBareTree (message kind slot e) := by
  unfold message
  refine Safe.bind' inferInstance fun description => Safe.bind' inferInstance fun meaning => ?_
  refine Safe.bind' inferInstance fun key => Safe.bind' inferInstance fun _ => ?_
  refine safe_getDocument fun d hd hordered => Safe.bind' ?_ fun parts => inferInstance
  exact safe_messageParts hslot [] 0 fun n hn =>
    hd.below hordered (Document.mem_children_of_contents hn)

/-! ## Elements -/

instance (e : Nat) (attributes : List (Nat × Markup.Attribute)) :
    Safe (Guarded D c) B (markupAttributes e attributes) := by
  induction attributes with
  | nil =>
    unfold markupAttributes
    infer_instance
  | cons entry rest ih =>
    obtain ⟨i, a⟩ := entry
    have huse : Safe (Guarded D c) B (modify fun s =>
        { s with document := s.document.useAttribute e i } : Work Session Unit) :=
      safe_setDocument fun d => d.sameTree_useAttribute e i
    unfold markupAttributes
    infer_instance

instance (e : Nat) : Safe (Guarded D c) B (checkName e) := by
  unfold checkName
  infer_instance

theorem safe_markupElement {e : Nat} (hslot : SafeBelow D e slot) :
    Safe (Guarded D c) HasBareTree (markupElement slot e) := by
  have := safe_renderSlots (c := c) hslot
  unfold markupElement
  infer_instance

/-- Widgets that the content may hold can be built. -/
def Builds (D : Document) (build : Builder) (e : Nat) : ContentKind → Prop
  | .plainText => True
  | .markup _ none _ => True
  | .markup _ (some _) _ => ∀ c, Safe (Guarded D c) HasBareTree (build e)

theorem safe_interpret? {e : Nat} {kind : ContentKind} (hslot : SafeBelow D e slot)
    (hbuild : Builds D build e kind) :
    Safe (Guarded D c) HasBareTree (interpret? build kind slot e) := by
  have hmessage := fun kind => safe_message (c := c) hslot kind
  cases kind with
  | plainText =>
    unfold interpret?
    infer_instance
  | markup attached panel stamped =>
    unfold interpret?
    refine Safe.bind' inferInstance fun d => ?_
    dsimp only
    refine Safe.bind' inferInstance fun _ => Safe.bind' inferInstance fun _ => ?_
    cases panel with
    | none => infer_instance
    | some panel =>
      have := hbuild c
      infer_instance

theorem safe_renderElement {e : Nat} {kind : ContentKind} (hslot : SafeBelow D e slot)
    (hbuild : Builds D build e kind) :
    Safe (Guarded D c) HasBareTree (renderElement build kind slot e) := by
  have := safe_markupElement (c := c) hslot
  unfold renderElement
  refine Safe.bind' (safe_interpret? hslot hbuild) fun found => ?_
  split <;> infer_instance

/-- Slots are written one in another, each behind the one before, so fuel for the nodes that are left
is enough. -/
theorem safe_renderSlot {e n fuel : Nat} {kind : ContentKind} (hbuild : SafeBelow D e build)
    (hn : D.Below e n) (hfuel : D.nodes.size ≤ fuel + n) :
    Safe (Guarded D c) HasBareTree (renderSlot build kind fuel n) := by
  induction fuel generalizing e n c with
  | zero => exact absurd hn.2 (by omega)
  | succ fuel ih =>
    have hslot : SafeBelow D n (renderSlot build kind fuel) := by
      intro c child hchild
      have := hchild.1
      exact ih (hbuild.deeper hn) hchild (by omega)
    have hwidgets : Builds D build n kind := by
      unfold Builds
      split
      · trivial
      · trivial
      · exact fun c => hbuild c hn
    have := safe_renderElement (c := c) hslot hwidgets
    unfold renderSlot
    refine Safe.bind' (safe_setDocument fun d => d.sameTree_useChild n) fun _ => ?_
    refine Safe.bind' inferInstance fun d => ?_
    split <;> infer_instance

/-- The slots of an element are written with the number of nodes as fuel. -/
theorem safeBelow_renderSlot {e : Nat} (hbuild : SafeBelow D e build) (kind : ContentKind) :
    SafeBelow D e (renderSlot build kind D.nodes.size) :=
  fun _ _ hn => safe_renderSlot hbuild hn (Nat.le_add_right _ _)

theorem safe_inner {e : Nat} (hbuild : SafeBelow D e build) (kind : ContentKind) :
    Safe (Guarded D c) HasBareTree (inner build kind e) := by
  unfold inner
  refine safe_withSplices (fun _ _ hs => hs) (safe_getDocument fun d hd _ => ?_)
  dsimp only
  rw [hd.size]
  exact Safe.bind' (safe_renderSlots (safeBelow_renderSlot hbuild kind)) fun _ => inferInstance

theorem safe_outer {e : Nat} (hbuild : SafeBelow D e build) (attached stamped : Bool) :
    Safe (Guarded D c) HasBareTree (outer build (.markup attached none stamped) e) := by
  unfold outer
  refine safe_withSplices (fun _ _ hs => hs) (safe_getDocument fun d hd _ => ?_)
  dsimp only
  rw [hd.size]
  refine Safe.bind' (safe_renderElement (safeBelow_renderSlot hbuild _) trivial) fun _ => ?_
  infer_instance

theorem safe_markupLiteral {e : Nat} (hbuild : SafeBelow D e build) :
    Safe (Guarded D c) HasBareTree (markupLiteral build e) := by
  unfold markupLiteral
  exact Safe.bind' (safe_inner hbuild _) fun _ => inferInstance

end Content

end ViewBinder
