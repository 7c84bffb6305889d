-- Descriptors: what a type can do in a template, gathered from the traits of the type and of its
-- supertypes. A nearer declaration hides the ones further up. Descriptors are worked out once per
-- type and kept; a kept descriptor is the one that would be worked out again.
import ViewBinder.Catalog.Basic

namespace ViewBinder

/-- A child element with the method that takes it. -/
structure ChildSlot where
  tag : Text
  method : Method
  limit : Int
  deriving Repr

/-- What a type can do in a template. -/
structure Descriptor where
  type : Option TypeId
  renderable : Bool := false
  childSlots : List ChildSlot := []
  /-- The constructor that attributes are passed to. -/
  constructor : Option Method := none
  constructorParams : List Text := []
  /-- Factory methods of an owner by the key of the type they make. -/
  factories : List (Text × Method) := []
  uiFields : List UiField := []
  handlers : List Handler := []
  deriving Repr

namespace Descriptor

/-- The slot of a child tag. -/
def slot? (d : Descriptor) (tag : Text) : Option ChildSlot := d.childSlots.find? (·.tag == tag)

/-- The slots in the order of their tags. -/
def sortedSlots (d : Descriptor) : List ChildSlot := Text.sortedBy (·.tag) d.childSlots

/-- The field of an owner with a name. -/
def uiField? (d : Descriptor) (name : Text) : Option UiField := d.uiFields.find? (·.name == name)

/-- Adds a child tag, unless a nearer type has one of that name or no method takes it. -/
def addSlot (c : Catalog) (d : Descriptor) (tag : ChildTag) : Descriptor :=
  if (d.slot? tag.tag).isSome then d
  else match c.method? d.type tag.method with
    | some method => { d with childSlots := d.childSlots ++ [⟨tag.tag, method, tag.limit⟩] }
    | none => d

/-- Adds a factory, unless a nearer one makes the same type. -/
def addFactory (c : Catalog) (d : Descriptor) (name : Text) : Descriptor :=
  match c.method? d.type name with
  | some method =>
    if method.returns.isNone || (d.factories.lookup (c.key method.returns)).isSome then d
    else { d with factories := d.factories ++ [(c.key method.returns, method)] }
  | none => d

/-- Adds what one type of the hierarchy declares. -/
def addTraits (c : Catalog) (d : Descriptor) (t : TypeId) : Descriptor :=
  let traits := (c.decl t).traits
  let d := { d with renderable := d.renderable || traits.renderable }
  traits.factories.foldl (addFactory c) (traits.childTags.foldl (addSlot c) d)

/-- Adds what only the type itself declares: its constructor, fields and handlers. -/
def addOwn (c : Catalog) (d : Descriptor) (t : TypeId) : Descriptor :=
  let traits := (c.decl t).traits
  let d := { d with uiFields := traits.uiFields, handlers := traits.handlers }
  if traits.constructor.isEmpty then d
  else match (c.decl t).constructors.find? (·.name == traits.constructor) with
    | some m => { d with constructor := some m, constructorParams := traits.constructorParams }
    | none => d

end Descriptor

namespace Catalog

/-- The descriptor of a type; a missing type can do nothing. -/
def describe (c : Catalog) (t : Option TypeId) : Descriptor :=
  match t with
  | none => { type := none }
  | some t => (c.hierarchy t).foldl (Descriptor.addTraits c) (Descriptor.addOwn c { type := t } t)

/-- The method of an owner that makes a type. -/
def factoryFor? (c : Catalog) (d : Descriptor) (t : Option TypeId) : Option Method :=
  d.factories.lookup (c.key t)

end Catalog

/-- Descriptors by the key of their type. -/
structure DescriptorCache where
  entries : List (Text × Descriptor) := []

namespace DescriptorCache

/-- The kept descriptor of a type, or a new one, which is kept from then on. -/
def get (cache : DescriptorCache) (c : Catalog) (t : Option TypeId) :
    Descriptor × DescriptorCache :=
  match cache.entries.lookup (c.key t) with
  | some d => (d, cache)
  | none => (c.describe t, ⟨cache.entries ++ [(c.key t, c.describe t)]⟩)

end DescriptorCache

end ViewBinder
