-- References: what a reference in an attribute value stands for. Its path is followed from a field
-- through accessors, and the value it ends at must fit one of the types expected.
import ViewBinder.Draft
import ViewBinder.Program.Basic

namespace ViewBinder.Draft

/-- Follows accessors from a value: the type they end at and the expression that reads it. -/
def follow (d : Draft) (r : FieldReference) :
    List Text → Option TypeId → Text → Except Problem (Option TypeId × Text)
  | [], type, expr => .ok (type, expr)
  | segment :: rest, type, expr =>
    match d.catalog.getter? type segment with
    | some getter => follow d r rest getter.returns (expr ++ "." ++ getter.name ++ "()")
    | none =>
      .error (.noAccessor segment (d.catalog.key type) r.path (d.document.tag r.element))

/-- The field a reference starts from, the type it ends at and the expression that reads it. -/
def target (d : Draft) (r : FieldReference) :
    Except Problem (FieldId × Option TypeId × Text) :=
  match d.fields.find? r.fieldName with
  | none => .error (.unknownField r.fieldName (d.document.tag r.element))
  | some id =>
    let f := d.fields.field id
    (follow d r (r.segments.drop 1) f.type f.name).map fun found => (id, found)

/-- The expression converted from one type to another, if that can be done. Numbers take any number,
a primitive its boxed counterpart, and a boxed type its primitive. -/
def adapt? (c : Catalog) (wanted actual : Option TypeId) (expr : Text) : Option Text :=
  if c.isAssignable actual wanted then some expr
  else if c.isNumeric wanted && c.isNumeric actual then some expr
  else if c.isNumeric wanted && c.isBoxedNumeric actual then some ("*" ++ expr)
  else if c.isPrimitive wanted && c.isBoxed actual && c.key (c.unboxed actual) == c.key wanted then
    some ("*" ++ expr)
  else if c.isBoxed wanted && c.key (c.unboxed wanted) == c.key actual then
    some (Program.box (c.simpleName wanted) expr)
  else none

/-- The expression that fits the first of the types expected that it can be made to fit. -/
def fit (d : Draft) (r : FieldReference) (actual : Option TypeId) (expr : Text) :
    Except Problem Text :=
  if r.types.isEmpty then .ok expr
  else match r.types.findSome? fun wanted => adapt? d.catalog wanted actual expr with
    | some adapted => .ok adapted
    | none => .error (.referenceMismatch r.path (d.catalog.key actual)
        (r.types.map d.catalog.key) (d.document.tag r.element))

/-- Two types can be compared: the one expected is there, and the other too if it is to be turned
into a primitive. -/
def isComparable (c : Catalog) (wanted actual : Option TypeId) : Bool :=
  wanted.isSome && (actual.isSome || !c.isPrimitive wanted)

/-- Before a type is found that the expression can be made to fit, there is one that cannot be
compared. -/
def isStuck (d : Draft) (r : FieldReference) (actual : Option TypeId) (expr : Text) : Bool :=
  (r.types.takeWhile fun wanted => (adapt? d.catalog wanted actual expr).isNone).any
    fun wanted => !isComparable d.catalog wanted actual

/-- Checks one reference and gives its marker a meaning; a problem is reported. The field it starts
from counts as read as soon as its path leads somewhere. -/
def settleReference (r : FieldReference) : Work Draft Bool := do
  let d ← get
  let broken (p : Problem) : Work Draft Bool := do
    report (d.document.location r.element) p
    return false
  match d.target r with
  | .error p => broken p
  | .ok (id, actual, expr) =>
    changeField id ({ · with used := true })
    if d.isStuck r actual expr then throw .crash
    match d.fit r actual expr with
    | .error p => broken p
    | .ok adapted =>
      Markers.resolve r.marker adapted
      return true

/-- Checks every reference, and fails at the end if one of them is broken. -/
def settleReferences : Work Draft Unit := do
  let sound ← (← get).fields.references.mapM settleReference
  if !sound.all id then
    match (← get).log.failure? with
    | some failure => throw failure
    | none => return ()

end ViewBinder.Draft
