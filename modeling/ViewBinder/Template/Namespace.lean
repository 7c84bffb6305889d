-- Namespaces of templates: what the elements and attributes of a template belong to. Binder
-- elements speak to the compiler, imported elements name types of a package, and all others are
-- markup, which has types by tag.
import ViewBinder.Catalog.Basic
import ViewBinder.Diagnostic.Problem
import ViewBinder.Markup.Consume

namespace ViewBinder

namespace Markup

/-- The namespace of binder elements. -/
def binderUri : Text := "urn:ui:uibind"

/-- The namespace binder elements had before. -/
def formerBinderUri : Text := "urn:ui:com.google.gwt.uibinder"

/-- What the namespaces of packages begin with. -/
def importScheme : Text := "urn:import:"

/-- The namespace of markup. -/
def markupUri : Text := "http://www.w3.org/1999/xhtml"

/-- A namespace of binder elements. -/
def isBinderUri (uri : Text) : Bool := uri == binderUri || uri == formerBinderUri

namespace Document

/-- The element speaks to the compiler. -/
def isBinder (d : Document) (e : Nat) : Bool := isBinderUri (d.name e).uri

/-- The element names a type of a package. -/
def isImported (d : Document) (e : Nat) : Bool := Text.startsWith (d.name e).uri importScheme

/-- The node is the binder element with a name. -/
def isBinderTag (d : Document) (n : Nat) (base : Text) : Bool :=
  (d.node n).isElement && d.isBinder n && (d.name n).base == base

/-- The child is a tag of its parent's own: of the same namespace and with the given name. -/
def isOwnTag (d : Document) (parent child : Nat) (base : Text) : Bool :=
  (d.name child).uri == (d.name parent).uri && (d.name child).base == base

/-- Takes a binder attribute. -/
def takeBinder (e : Nat) (base : Text) : Work Document (Option Text) := do
  match ← takeIn e binderUri base with
  | some value => return some value
  | none => takeIn e formerBinderUri base

/-- Takes the child elements that are the binder element with a name. -/
def takeBinderChildren (e : Nat) (base : Text) : Work Document (List Nat) := do
  let d ← get
  takeChildrenWhere e fun child => d.isBinderTag child base

/-- Takes the child elements that are imported. -/
def takeImportedChildren (e : Nat) : Work Document (List Nat) := do
  let d ← get
  takeChildrenWhere e fun child => !d.isBinder child && d.isImported child

end Document

end Markup

/-! ## Types of elements -/

namespace Template

open Markup (Document)

/-- The ways to cut a dotted name into the end of a package and the name of a type, the shortest end
first. -/
def cuts : List Text → List (List Text × List Text)
  | [] => []
  | part :: rest => ([], part :: rest) :: (cuts rest).map fun c => (part :: c.1, c.2)

/-- A type of a package, or of the packages below it that the front of a dotted name names. -/
def findImported (c : Catalog) (package name : Text) : Option TypeId :=
  (cuts (name.splitOn '.'.toUInt8)).findSome? fun (front, back) =>
    c.find? (Text.join "." (package :: front)) (Text.join "." back)

/-- The type of an element; markup may have none. -/
def typeOf (c : Catalog) (d : Document) (e : Nat) : Except Problem (Option TypeId) :=
  let name := d.name e
  if d.isBinder e then .error (.unexpectedBinder (d.tag e))
  else if name.uri.isEmpty || name.uri == Markup.markupUri then .ok (c.domType? name.base)
  else if !d.isImported e then .error (.unknownNamespace name.uri (d.tag e))
  else
    let package := name.uri.drop Markup.importScheme.length
    match findImported c package name.base with
    | some t => .ok (some t)
    | none => .error (.noClass name.base name.uri)

/-- The element is imported and of a type that fits. -/
def isOf (c : Catalog) (d : Document) (e : Nat) (wanted : Option TypeId) : Bool :=
  wanted.isSome && !d.isBinder e && d.isImported e &&
    match typeOf c d e with
    | .ok t => c.isAssignable t wanted
    | .error _ => false

end Template

end ViewBinder
