-- Consuming elements: reading an attribute or a child marks it as used, so that whatever is left
-- at the end was understood by nobody. The assertions fail on what is left; they change nothing.
import ViewBinder.Markup.Document
import ViewBinder.Html.Escape

namespace ViewBinder.Markup.Document

/-! ## Attributes -/

/-- Takes an attribute of a namespace. -/
def takeIn (e : Nat) (uri base : Text) : Work Document (Option Text) :=
  modifyGet (·.take? e uri base)

/-- Takes an attribute without a namespace. -/
def takeRaw (e : Nat) (base : Text) : Work Document (Option Text) := takeIn e [] base

/-- Takes an attribute, or gives the default. -/
def takeDefault (e : Nat) (base otherwise : Text) : Work Document Text := do
  return (← takeRaw e base).getD otherwise

/-- Fails with a problem at an element. -/
def failOn {α : Type} (e : Nat) (p : Document → Problem) : Work Document α := do
  let d ← get
  failAt (d.location e) (p d)

/-- Takes an attribute that must be there. -/
def takeRequired (e : Nat) (base : Text) : Work Document Text := do
  match ← takeRaw e base with
  | some value => return value
  | none => failOn e fun d => .missingAttribute base (d.tag e)

/-- Takes an attribute that must be `true` or `false`; a missing one counts as the default. -/
def takeBoolean (e : Nat) (base : Text) (otherwise : Bool) : Work Document Bool := do
  match ← takeRaw e base with
  | none => return otherwise
  | some value =>
    if Text.trim value == "true" then return true
    else if Text.trim value == "false" then return false
    else failOn e fun d => .notBoolean base value (d.tag e)

/-! ## Assertions -/

/-- Nothing but blanks and elements is left. -/
def assertNoText (e : Nat) : Work Document Unit := do
  let d ← get
  match (d.contents e).find? fun c => !(d.node c).isElement && !(d.node c).isBlank with
  | some c =>
    failAt (some (d.node c).location) (.leftoverText (d.tag e) (Text.trim (d.node c).content))
  | none => return ()

/-- No attribute is left. -/
def assertNoAttributes (e : Nat) : Work Document Unit := do
  let d ← get
  match d.remaining e with
  | [] => return ()
  | left => failOn e fun d => .leftoverAttributes (d.tag e) (left.map (·.2.name.text))

/-- Nothing but blanks is left. -/
def assertNoBody (e : Nat) : Work Document Unit := do
  let d ← get
  match (d.contents e).find? fun c => !(d.node c).isBlank with
  | some c =>
    let n := d.node c
    failAt (some n.location) (if n.isElement then .leftoverChild (d.tag c) (d.tag e)
      else .leftoverText (d.tag e) (Text.trim n.content))
  | none => return ()

/-! ## Children -/

/-- Takes the child elements that pass. -/
def takeChildrenWhere (e : Nat) (passes : Nat → Bool) : Work Document (List Nat) := do
  let d ← get
  let children := (d.childElements e).filter passes
  set (children.foldl useChild d)
  return children

/-- Takes everything; text that is not blank is an error. -/
def takeChildren (e : Nat) : Work Document (List Nat) := do
  assertNoText e
  let d ← get
  let children := d.childElements e
  set ((d.contents e).foldl useChild d)
  return children

/-- Takes everything, which must be a single element. -/
def takeSingleChild (e : Nat) : Work Document Nat := do
  let children ← takeChildren e
  match children with
  | [child] => return child
  | _ => failOn e fun d => .notSingleChild (d.tag e) children.length

/-- Takes the slots one by one up to the first element, which is an error. -/
def takeSlots (escape : Bool) (e : Nat) : List Nat → Work Document Text
  | [] => return []
  | c :: rest => do
    let d ← get
    let n := d.node c
    match n.body with
    | .element _ _ _ => failAt (some n.location) (.childInText (d.tag c) (d.tag e))
    | .text content =>
      modify (·.useChild c)
      return (if escape then Html.escapeInner content else content) ++ (← takeSlots escape e rest)
    | .cdata content =>
      modify (·.useChild c)
      return content ++ (← takeSlots escape e rest)

/-- Takes the text of an element as markup: text is escaped, verbatim text is not. -/
def takeInnerText (e : Nat) : Work Document Text := do takeSlots true e ((← get).contents e)

/-- Takes the text of an element as it is. -/
def takePlainText (e : Nat) : Work Document Text := do takeSlots false e ((← get).contents e)

/-- Takes everything, whatever it is. -/
def takeBody (e : Nat) : Work Document Unit :=
  modify fun d => (d.contents e).foldl useChild d

end ViewBinder.Markup.Document
