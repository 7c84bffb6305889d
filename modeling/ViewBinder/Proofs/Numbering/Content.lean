-- Content and the numbers of markers: writing content follows the numbers, whatever builds its
-- widgets does.
import ViewBinder.Proofs.Numbering.Session
import ViewBinder.Template.Content

namespace ViewBinder.Content

open Markup (Document)
open Session
open Work (Follows)

variable {build : Builder} {slot : Nat → Work Session Html}

instance [∀ e, Follows (build e)] (parent child : Nat) (wanted : Option TypeId) :
    Follows (buildChild build parent child wanted) := by
  unfold buildChild
  infer_instance

/-! ## Messages in attributes -/

instance (e decl : Nat) : Follows (attributeMessage e decl) := by
  unfold attributeMessage
  refine Follows.bind' inferInstance fun name => Follows.bind' inferInstance fun description => ?_
  refine Follows.bind' inferInstance fun meaning => Follows.bind' inferInstance fun key => ?_
  refine Follows.bind' inferInstance fun _ => Follows.bind' inferInstance fun _ => ?_
  refine Follows.bind' inferInstance fun d => ?_
  split <;> infer_instance

/-- Writing an attribute leaves the markers alone. -/
instance (e : Nat) (name value : Text) : Follows (modify fun s => { s with
    document := s.document.setAttribute e name value } : Work Session Unit) :=
  Follows.changing (fun _ => rfl) fun _ _ => rfl

instance (e i : Nat) (value : Text) : Follows (modify fun s => { s with
    document := s.document.replaceAttribute e i value } : Work Session Unit) :=
  Follows.changing (fun _ => rfl) fun _ _ => rfl

instance (e i : Nat) : Follows (modify fun s => { s with
    document := s.document.useAttribute e i } : Work Session Unit) :=
  Follows.changing (fun _ => rfl) fun _ _ => rfl

instance (n : Nat) : Follows (modify fun s => { s with
    document := s.document.useChild n } : Work Session Unit) :=
  Follows.changing (fun _ => rfl) fun _ _ => rfl

instance (e : Nat) (value : Text → Work Session Text) [∀ t, Follows (value t)] :
    Follows (declareAttributeMessages e value) := by
  unfold declareAttributeMessages
  refine Follows.bind' inferInstance fun decls => ?_
  refine Follows.bind' (Follows.forIn' fun decl _ => ?_) fun _ => inferInstance
  refine Follows.bind' inferInstance fun (name, m) => ?_
  infer_instance

instance (expr : Text) : Follows (escaped expr) := by
  unfold escaped
  infer_instance

instance (e : Nat) (text : Option TypeId) (value : Text) :
    Follows (computeAttributes.convertValue e text value) := by
  unfold computeAttributes.convertValue
  refine Follows.bind' (Follows.mapM' fun segment => ?_) fun _ => inferInstance
  split <;> infer_instance

instance (e : Nat) : Follows (computeAttributes e) := by
  unfold computeAttributes
  infer_instance

/-! ## Fields and widgets in markup -/

instance (e : Nat) : Follows (bindField e) := by
  unfold bindField
  refine Follows.bind' inferInstance fun d => ?_
  split
  · infer_instance
  · refine Follows.bind' inferInstance fun found => ?_
    split
    · infer_instance
    · have hdeclare : ∀ name (d : Document), Follows (do
          let type := (← getCatalog).domType? (d.name e).base
          let f ← Draft.register .plain type name
          let holder ← declareId
          let marker ← splice e holder
          modify fun s => { s with document := s.document.setAttribute e "id" marker }
          addAttached ((← nameOf f) ++ " = " ++ (← elementById type holder))
          addDetached ((← nameOf f) ++ ".RemoveAttribute(\"id\")") : Work Session Unit) := by
        intro name d
        refine Follows.bind' inferInstance fun c => Follows.bind' inferInstance fun f => ?_
        refine Follows.bind' inferInstance fun holder => ?_
        refine Follows.bind' inferInstance fun marker => ?_
        infer_instance
      refine Follows.bind' inferInstance fun d' => ?_
      split
      · exact Follows.bind' inferInstance fun _ => hdeclare _ d
      · exact hdeclare _ d

instance (e : Nat) (child : FieldId) (holder : Text) : Follows (stampWidget e child holder) := by
  unfold stampWidget
  refine Follows.bind' inferInstance fun type => ?_
  split
  · infer_instance
  · refine Follows.bind' inferInstance fun childName => ?_
    refine Follows.bind' inferInstance fun stamper => ?_
    refine Follows.bind' inferInstance fun make => Follows.bind' inferInstance fun used => ?_
    infer_instance

instance (e : Nat) (panel child : FieldId) (holder : Text) :
    Follows (replaceByWidget e panel child holder) := by
  unfold replaceByWidget
  infer_instance

instance [∀ e, Follows (build e)] (panel : FieldId) (stamped : Bool) (e : Nat) :
    Follows (placeWidget build panel stamped e) := by
  unfold placeWidget
  infer_instance

/-! ## Values -/

instance (e : Nat) (type : Option TypeId) : Follows (valueFrom e type) := by
  unfold valueFrom
  infer_instance

instance (kind : ContentKind) (e : Nat) : Follows (textValue kind e) := by
  unfold textValue
  infer_instance

instance (e : Nat) : Follows (markupValue e) := by
  unfold markupValue
  refine Follows.bind' inferInstance fun type => ?_
  split <;> infer_instance

/-! ## Messages -/

instance (count : Nat) (pieces : List Marker.Piece) : Follows (literalParts count pieces) := by
  induction pieces generalizing count with
  | nil =>
    unfold literalParts
    infer_instance
  | cons piece rest ih =>
    cases piece with
    | plain run =>
      unfold literalParts
      infer_instance
    | marker digits =>
      unfold literalParts
      infer_instance

instance [∀ n, Follows (slot n)] (e : Nat) : Follows (renderSlots slot e) := by
  unfold renderSlots
  infer_instance

instance [∀ n, Follows (slot n)] (e : Nat) : Follows (placeholder slot e) := by
  unfold placeholder
  infer_instance

instance [∀ n, Follows (slot n)] (e : Nat) (literal : Text) (count : Nat) (slots : List Nat) :
    Follows (messageParts slot e literal count slots) := by
  induction slots generalizing literal count with
  | nil =>
    unfold messageParts
    infer_instance
  | cons c rest ih =>
    unfold messageParts
    infer_instance

instance [∀ n, Follows (slot n)] (kind : ContentKind) (e : Nat) :
    Follows (message kind slot e) := by
  unfold message
  infer_instance

/-! ## Elements -/

instance (e : Nat) (attributes : List (Nat × Markup.Attribute)) :
    Follows (markupAttributes e attributes) := by
  induction attributes with
  | nil =>
    unfold markupAttributes
    infer_instance
  | cons a rest ih =>
    unfold markupAttributes
    infer_instance

instance (e : Nat) : Follows (checkName e) := by
  unfold checkName
  infer_instance

instance [∀ n, Follows (slot n)] (e : Nat) : Follows (markupElement slot e) := by
  unfold markupElement
  infer_instance

instance [∀ e, Follows (build e)] (kind : ContentKind) [∀ n, Follows (slot n)] (e : Nat) :
    Follows (interpret? build kind slot e) := by
  cases kind with
  | plainText =>
    unfold interpret?
    infer_instance
  | markup attached panel stamped =>
    unfold interpret?
    refine Follows.bind' inferInstance fun d => ?_
    dsimp only
    refine Follows.bind' inferInstance fun _ => Follows.bind' inferInstance fun _ => ?_
    repeat' (first | infer_instance | split)

instance [∀ e, Follows (build e)] (kind : ContentKind) [∀ n, Follows (slot n)] (e : Nat) :
    Follows (renderElement build kind slot e) := by
  unfold renderElement
  repeat' (first | infer_instance | split | refine Follows.bind' inferInstance fun _ => ?_)

instance [∀ e, Follows (build e)] (kind : ContentKind) (fuel n : Nat) :
    Follows (renderSlot build kind fuel n) := by
  induction fuel generalizing n with
  | zero =>
    unfold renderSlot
    infer_instance
  | succ fuel ih =>
    unfold renderSlot
    repeat' (first | infer_instance | split | refine Follows.bind' inferInstance fun _ => ?_)

instance [∀ e, Follows (build e)] (kind : ContentKind) (e : Nat) :
    Follows (inner build kind e) := by
  unfold inner
  infer_instance

instance [∀ e, Follows (build e)] (kind : ContentKind) (e : Nat) :
    Follows (outer build kind e) := by
  unfold outer
  infer_instance

instance [∀ e, Follows (build e)] (e : Nat) : Follows (markupLiteral build e) := by
  unfold markupLiteral
  infer_instance

end ViewBinder.Content
