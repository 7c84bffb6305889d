-- Documents: a template as a table of nodes in document order. Node 0 is the root, every other
-- node has a parent with a smaller number, and parents list their children in order. Attributes
-- and children are marked once they were used, and a used one is invisible from then on.
import ViewBinder.Diagnostic.Problem
import ViewBinder.Text.Name

namespace ViewBinder.Markup

/-- A tag or attribute name: its namespace, its name there and the abbreviation the template used
for the namespace. -/
structure Name where
  uri : Text
  base : Text
  lead : Text
  deriving DecidableEq, Repr

/-- The name as a template writes it. -/
def Name.text (n : Name) : Text := if n.lead.isEmpty then n.base else n.lead ++ ":" ++ n.base

/-- An attribute of an element. -/
structure Attribute where
  name : Name
  value : Text
  location : Option Location
  consumed : Bool := false
  deriving DecidableEq, Repr

/-- The attribute as an opening tag shows it. -/
def Attribute.text (a : Attribute) : Text := " " ++ a.name.text ++ "=" ++ Text.quote a.value

/-- What a node holds. -/
inductive Body where
  | element (name : Name) (attributes : List Attribute) (children : List Nat)
  | text (content : Text)
  | cdata (content : Text)
  deriving Repr

/-- A node with its place in the tree; `consumed` marks the slot it has in its parent. -/
structure Node where
  body : Body
  parent : Option Nat
  location : Location
  consumed : Bool := false
  deriving Repr

/-- A template as a table of nodes. -/
structure Document where
  file : SourceFile
  nodes : Array Node := #[]
  deriving Repr

namespace Node

/-- The name of an element. -/
def name (n : Node) : Name :=
  match n.body with
  | .element name _ _ => name
  | _ => ⟨[], [], []⟩

/-- The attributes of an element, used ones included. -/
def attributes (n : Node) : List Attribute :=
  match n.body with
  | .element _ attributes _ => attributes
  | _ => []

/-- The children of an element, used ones included. -/
def children (n : Node) : List Nat :=
  match n.body with
  | .element _ _ children => children
  | _ => []

/-- The node is an element. -/
def isElement (n : Node) : Bool :=
  match n.body with
  | .element _ _ _ => true
  | _ => false

/-- The characters of a text or verbatim node. -/
def content (n : Node) : Text :=
  match n.body with
  | .text t => t
  | .cdata t => t
  | _ => []

/-- Text of white space only, verbatim or not. -/
def isBlank (n : Node) : Bool := !n.isElement && Text.isBlank n.content

/-- The element with other attributes. -/
def withAttributes (f : List Attribute → List Attribute) (n : Node) : Node :=
  match n.body with
  | .element name attributes children => { n with body := .element name (f attributes) children }
  | _ => n

/-- The element with one more child. -/
def withChild (child : Nat) (n : Node) : Node :=
  match n.body with
  | .element name attributes children =>
    { n with body := .element name attributes (children ++ [child]) }
  | _ => n

end Node

namespace Document

/-- A node that stands for a number outside the table. -/
def noNode (d : Document) : Node := ⟨.text [], none, ⟨some d.file, 0, 0, 0⟩, false⟩

/-- The node with a number. -/
def node (d : Document) (id : Nat) : Node := d.nodes[id]?.getD d.noNode

/-- The document with one node changed. -/
def change (d : Document) (id : Nat) (f : Node → Node) : Document :=
  { d with nodes := d.nodes.modify id f }

/-- The document with one more node, listed by its parent. -/
def push (d : Document) (n : Node) : Document :=
  let id := d.nodes.size
  let d := { d with nodes := d.nodes.push n }
  match n.parent with
  | some parent => d.change parent (·.withChild id)
  | none => d

/-! ## Reading elements -/

/-- The name of an element. -/
def name (d : Document) (e : Nat) : Name := (d.node e).name

/-- Where an element starts. -/
def location (d : Document) (e : Nat) : Option Location := some (d.node e).location

/-- The opening tag with every attribute, used ones included. -/
def tag (d : Document) (e : Nat) : Text :=
  let n := d.node e
  "<" ++ n.name.text ++ n.attributes.flatMap Attribute.text ++ ">"

/-- The closing tag. -/
def closingTag (d : Document) (e : Nat) : Text := "</" ++ (d.name e).text ++ ">"

/-- The unused attributes with their positions. -/
def remaining (d : Document) (e : Nat) : List (Nat × Attribute) :=
  ((d.node e).attributes.zipIdx.filter fun a => !a.1.consumed).map fun a => (a.2, a.1)

/-- The position of an unused attribute. -/
def find? (d : Document) (e : Nat) (uri base : Text) : Option (Nat × Attribute) :=
  (d.remaining e).find? fun a => a.2.name.uri == uri && a.2.name.base == base

/-- An unused attribute without a namespace is there. -/
def has (d : Document) (e : Nat) (base : Text) : Bool := (d.find? e [] base).isSome

/-- The value of an unused attribute without a namespace. -/
def peek (d : Document) (e : Nat) (base : Text) : Option Text :=
  (d.find? e [] base).map (·.2.value)

/-- The unused children in order. -/
def contents (d : Document) (e : Nat) : List Nat :=
  (d.node e).children.filter fun c => !(d.node c).consumed

/-- The unused child elements in order. -/
def childElements (d : Document) (e : Nat) : List Nat :=
  (d.contents e).filter fun c => (d.node c).isElement

/-- An element or some text that is not blank is left. -/
def hasContent (d : Document) (e : Nat) : Bool := (d.contents e).any fun c => !(d.node c).isBlank

/-! ## Changing elements -/

/-- The attribute at a position changed. -/
def changeAttribute (d : Document) (e i : Nat) (f : Attribute → Attribute) : Document :=
  d.change e (·.withAttributes (·.modify i f))

/-- The attribute at a position marked as used. -/
def useAttribute (d : Document) (e i : Nat) : Document :=
  d.changeAttribute e i fun a => { a with consumed := true }

/-- The attribute at a position with another value. -/
def replaceAttribute (d : Document) (e i : Nat) (value : Text) : Document :=
  d.changeAttribute e i fun a => { a with value := value }

/-- The value of an attribute without a namespace replaced, or the attribute added. -/
def setAttribute (d : Document) (e : Nat) (base value : Text) : Document :=
  match d.find? e [] base with
  | some (i, _) => d.replaceAttribute e i value
  | none => d.change e (·.withAttributes (· ++ [⟨⟨[], base, []⟩, value, d.location e, false⟩]))

/-- The slot of a child marked as used. -/
def useChild (d : Document) (child : Nat) : Document :=
  d.change child fun n => { n with consumed := true }

/-- An unused attribute marked as used, with its value. -/
def take? (d : Document) (e : Nat) (uri base : Text) : Option Text × Document :=
  match d.find? e uri base with
  | some (i, a) => (some a.value, d.useAttribute e i)
  | none => (none, d)

end Document

end ViewBinder.Markup
