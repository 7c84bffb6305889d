-- Content: the markup or plain text inside an element, written as a literal of the program.
-- Elements that speak to the compiler, fields and widgets are replaced by what they stand for;
-- values known only at run time are spliced in by markers. Text and attribute values are escaped
-- once, when the finished tree is written.
import ViewBinder.Html.Tree
import ViewBinder.Session

namespace ViewBinder

open Markup (Document)
open Session

/-- Builds the field of an element. -/
abbrev Builder := Nat → Work Session FieldId

/-- What content may hold. -/
inductive ContentKind where
  /-- Text, messages and values. -/
  | plainText
  /-- Markup; elements that become fields need an attach section around it, widgets a panel that
  holds them. A stamped panel renders its widgets, any other replaces elements by them. -/
  | markup (attached : Bool) (panel : Option FieldId) (stamped : Bool)
  deriving Repr

/-- The content is plain text. -/
def ContentKind.isText : ContentKind → Bool
  | plainText => true
  | markup _ _ _ => false

namespace Content

/-- Builds a child element, whose type must fit. -/
def buildChild (build : Builder) (parent child : Nat) (wanted : Option TypeId) :
    Work Session FieldId := do
  if (← getDocument).isBinder child then
    failOn child fun d => .unexpectedIn (d.tag child) (d.tag parent)
  let f ← build child
  let c ← getCatalog
  let type := (← Draft.field f).type
  if wanted.isSome && !c.isAssignable type wanted then
    failOn child fun d =>
      .wrongChild (d.tag child) (d.tag parent) (c.simpleName type) (c.simpleName wanted)
  return f

/-! ## Messages in attributes -/

/-- Reads a declaration that makes an attribute of an element a message: the attribute and the
message. The value must be literal. -/
def attributeMessage (e decl : Nat) : Work Session (Text × Message) := do
  let name ← Document.takeRequired decl "name"
  let description ← Document.takeDefault decl "description" []
  let meaning ← Document.takeDefault decl "meaning" []
  let key ← Document.takeDefault decl "key" []
  Document.assertNoAttributes decl
  Document.assertNoBody decl
  match (← getDocument).peek e name with
  | none => failOn decl fun d => .absentMessageAttribute (d.tag decl) name (d.tag e)
  | some value =>
    if Segment.hasReference value then
      failOn decl fun d => .referenceInMessage name (d.tag e)
    return (name, { description, meaning, key, parts := [.literal value] })

/-- Turns the attributes that an element declares as messages into what `value` makes of the
message's method. -/
def declareAttributeMessages (e : Nat) (value : Text → Work Session Text) : Work Session Unit := do
  for decl in ← Document.takeBinderChildren e "attribute" do
    let (name, m) ← attributeMessage e decl
    let method ← declareMessage ((← getDocument).location decl) m
    let value ← value method
    modify fun s => { s with document := s.document.setAttribute e name value }

/-- An expression as escaped text of markup. -/
def escaped (expr : Text) : Work Session Text := do
  return (← safeHtmlFunction "HTMLEscape") ++ "(" ++ expr ++ ")"

/-- Splices the escaped values of references into the attributes of an element. -/
def computeAttributes (e : Nat) : Work Session Unit := do
  let text ← primitive "string"
  for (i, a) in (← getDocument).remaining e do
    if a.name.uri.isEmpty && Segment.hasReference a.value then
      let value ← convertValue text a.value
      modify fun s => { s with document := s.document.replaceAttribute e i value }
where
  /-- The value with a splice for every reference. -/
  convertValue (text : Option TypeId) (value : Text) : Work Session Text := do
    let parts ← (Segment.split value).mapM fun segment =>
      match segment with
      | .literal t => pure t
      | .reference path => do
        if !Segment.isLegalPath path then
          failOn e fun d => .illegalReference path (d.tag e)
        let marker ← Draft.refer e path [text]
        splice e (← escaped marker)
    return parts.flatten

/-! ## Fields and widgets in markup -/

/-- Makes an element of markup a field: it gets an id, by which the field is found once the markup
is attached. -/
def bindField (e : Nat) : Work Session Unit := do
  let d ← getDocument
  if d.isImported e || d.isBinder e then return
  match ← Document.takeBinder e "field" with
  | none => return
  | some name =>
    if (← getDocument).has e "id" then failOn e fun d => .idAndField (d.tag e)
    let type := (← getCatalog).domType? (d.name e).base
    let f ← Draft.register .plain type name
    let holder ← declareId
    let marker ← splice e holder
    modify fun s => { s with document := s.document.setAttribute e "id" marker }
    addAttached ((← nameOf f) ++ " = " ++ (← elementById type holder))
    addDetached ((← nameOf f) ++ ".RemoveAttribute(\"id\")")

/-- Renders a widget into the markup; it claims its element once the markup is attached. -/
def stampWidget (e : Nat) (child : FieldId) (holder : Text) : Work Session Text := do
  match ← uiType "RenderableStamper" with
  | none => failOn e fun d => .needsType (d.tag e) (Library.ui "RenderableStamper")
  | some type =>
    let stamper ← Draft.register .stamper type ((← nameOf child) ++ "Stamper")
    let make ← uiFunction "NewRenderableStamper"
    Draft.setInitializer stamper (make ++ "(" ++ (← Draft.use child) ++ ")")
    Draft.addNeed stamper (← nameOf child)
    Draft.addNeed stamper holder
    let name ← Draft.use stamper
    addAttached (name ++ ".Claim(" ++ (← elementById none holder) ++ ")")
    splice e (name ++ ".Render(" ++ holder ++ ").String()")

/-- Leaves an element in the markup that the panel replaces by a widget once it is attached. -/
def replaceByWidget (e : Nat) (panel child : FieldId) (holder : Text) : Work Session Text := do
  let marker ← splice e holder
  let panelName ← Draft.use panel
  let childName ← Draft.use child
  addAttached (panelName ++ ".AddAndReplaceElement(" ++ childName ++ ", " ++
    (← elementById none holder) ++ ")")
  return (Html.element "span" [(Text.ofString "id", marker)] []).render

/-- Builds a widget inside the markup of a panel and gives what stands for it. -/
def placeWidget (build : Builder) (panel : FieldId) (stamped : Bool) (e : Nat) :
    Work Session Text := do
  let parent := ((← getDocument).node e).parent.getD 0
  let child ← buildChild build parent e (← uiType "IsWidget")
  let holder ← declareId
  if stamped then stampWidget e child holder else replaceByWidget e panel child holder

/-! ## Values -/

/-- Reads the value an element stands for; it must hold nothing else. -/
def valueFrom (e : Nat) (type : Option TypeId) : Work Session Text := do
  let expr ← takeRequired e "from" [type]
  Document.assertNoAttributes e
  Document.assertNoBody e
  return expr

/-- The text value an element stands for. -/
def textValue (kind : ContentKind) (e : Nat) : Work Session Text := do
  let expr ← valueFrom e (← primitive "string")
  splice e (← if kind.isText then pure expr else escaped expr)

/-- The trusted markup an element stands for. -/
def markupValue (e : Nat) : Work Session Text := do
  match ← safeHtmlType with
  | none => failOn e fun d => .needsType (d.tag e) (Library.safehtml "SafeHtml")
  | some type => splice e ((← valueFrom e type) ++ ".String()")

/-! ## Messages -/

/-- Literal content as parts of a message: a marker becomes a placeholder of its own. `count`
numbers the placeholders made up so far. -/
def literalParts (count : Nat) : List Marker.Piece → Work Session (List MessagePart × Nat)
  | [] => return ([], count)
  | .plain run :: rest => do
    let (parts, count) ← literalParts count rest
    return (.literal run :: parts, count)
  | .marker digits :: rest => do
    let arg ← spliced (Marker.Piece.marker digits).text
    let (parts, last) ← literalParts (count + 1) rest
    return (.placeholder ("arg" ++ Text.ofNat (count + 1)) arg [] :: parts, last)

/-- Writes the slots of an element one after the other. -/
def renderSlots (slot : Nat → Work Session Html) (e : Nat) : Work Session (List Html) := do
  ((← getDocument).contents e).mapM slot

/-- Reads a named placeholder of a message. -/
def placeholder (slot : Nat → Work Session Html) (e : Nat) : Work Session MessagePart := do
  let name ← Document.takeRequired e "name"
  let sample ← Document.takeDefault e "example" []
  Document.assertNoAttributes e
  let content := Html.renderAll (← renderSlots slot e)
  return .named name (← spliced content) sample

/-- The parts of a message from some slots on; `literal` is the content since the last named
placeholder. -/
def messageParts (slot : Nat → Work Session Html) (e : Nat) (literal : Text) (count : Nat) :
    List Nat → Work Session (List MessagePart)
  | [] => do return (← literalParts count (Marker.pieces literal)).1
  | c :: rest => do
    let d ← getDocument
    if d.isBinderTag c "msg" then failOn c fun d => .nestedMessage (d.tag c) (d.tag e)
    if d.isBinderTag c "ph" then
      modify fun s => { s with document := s.document.useChild c }
      let (parts, count) ← literalParts count (Marker.pieces literal)
      let part ← placeholder slot c
      return parts ++ part :: (← messageParts slot e [] count rest)
    else
      let piece ← slot c
      messageParts slot e (literal ++ piece.render) count rest

/-- Declares the message an element holds and gives the call that stands for it. -/
def message (kind : ContentKind) (slot : Nat → Work Session Html) (e : Nat) :
    Work Session Text := do
  let description ← Document.takeDefault e "description" []
  let meaning ← Document.takeDefault e "meaning" []
  let key ← Document.takeDefault e "key" []
  Document.assertNoAttributes e
  let parts ← messageParts slot e [] 0 ((← getDocument).contents e)
  let m : Message := { description, meaning, key, html := !kind.isText, parts }
  let method ← declareMessage ((← getDocument).location e) m
  splice e (method ++ "(" ++ Text.join ", " m.args ++ ")")

/-! ## Elements -/

/-- What stands for an element that is not plain markup. -/
def interpret? (build : Builder) (kind : ContentKind) (slot : Nat → Work Session Html) (e : Nat) :
    Work Session (Option Text) := do
  let d ← getDocument
  let binderTag (base : Text) := d.isBinderTag e base
  match kind with
  | .plainText =>
    if binderTag "msg" then some <$> message kind slot e
    else if binderTag "text" then some <$> textValue kind e
    else return none
  | .markup attached panel stamped =>
    declareAttributeMessages e fun method => do splice e (← escaped (method ++ "()"))
    computeAttributes e
    if attached then bindField e
    match panel with
    | some panel =>
      if d.isImported e then return some (← placeWidget build panel stamped e)
    | none => pure ()
    if binderTag "msg" then some <$> message kind slot e
    else if binderTag "text" then some <$> textValue kind e
    else if binderTag "safehtml" then some <$> markupValue e
    else return none

/-- Takes the remaining attributes of an element of markup. -/
def markupAttributes (e : Nat) : List (Nat × Markup.Attribute) → Work Session (List (Text × Text))
  | [] => return []
  | (i, a) :: rest => do
    if !a.name.uri.isEmpty && a.name.uri != Markup.markupUri then
      failOn e fun d => .unexpectedAttribute a.name.text (d.tag e)
    modify fun s => { s with document := s.document.useAttribute e i }
    return (a.name.base, a.value) :: (← markupAttributes e rest)

/-- Warns of an element of markup that nobody knows; names with a dash are free. -/
def checkName (e : Nat) : Work Session Unit := do
  let base := ((← getDocument).name e).base
  if !Text.contains base "-" && !Html.isKnownName base then
    Draft.warn e fun d => "Unknown HTML element " ++ d.tag e

/-- An element of markup with its attributes and content. -/
def markupElement (slot : Nat → Work Session Html) (e : Nat) : Work Session Html := do
  checkName e
  let attributes ← markupAttributes e ((← getDocument).remaining e)
  let children ← renderSlots slot e
  return .element ((← getDocument).name e).base attributes children

/-- Writes an element. -/
def renderElement (build : Builder) (kind : ContentKind) (slot : Nat → Work Session Html)
    (e : Nat) : Work Session Html := do
  match ← interpret? build kind slot e with
  | some t => return .raw t
  | none =>
    let d ← getDocument
    if kind.isText then failOn e fun d => .elementInText (d.tag e)
    if d.isBinder e then failOn e fun d => .binderInHtml (d.tag e)
    if d.isImported e then failOn e fun d => .widgetInHtml (d.tag e)
    markupElement slot e

/-- Takes and writes one slot. Every element inside a slot is deeper in the document, so the number
of its nodes is fuel enough. -/
def renderSlot (build : Builder) (kind : ContentKind) : Nat → Nat → Work Session Html
  | 0, _ => throw .crash
  | fuel + 1, n => do
    modify fun s => { s with document := s.document.useChild n }
    match ((← getDocument).node n).body with
    | .text t => return if kind.isText then .raw t else .text t
    | .cdata t => return .raw t
    | .element _ _ _ => renderElement build kind (renderSlot build kind fuel) n

/-- The content of an element. -/
def inner (build : Builder) (kind : ContentKind) (e : Nat) : Work Session Text := withSplices do
  let fuel := (← getDocument).nodes.size
  return Html.renderAll (← renderSlots (renderSlot build kind fuel) e)

/-- An element with its content. -/
def outer (build : Builder) (kind : ContentKind) (e : Nat) : Work Session Text := withSplices do
  let fuel := (← getDocument).nodes.size
  return (← renderElement build kind (renderSlot build kind fuel) e).render

/-- Content as a literal, without blanks around it. -/
def literal (content : Text) : Text := Text.quote (Text.trim content)

/-- The markup inside an element as a literal; it holds neither fields nor widgets. -/
def markupLiteral (build : Builder) (e : Nat) : Work Session Text := do
  return literal (← inner build (.markup false none false) e)

end Content

end ViewBinder
