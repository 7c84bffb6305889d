-- Markers: a text under construction holds opaque markers where generated expressions will stand.
-- A table knows what each marker stands for, and `weave` replaces the markers of a text in one
-- pass. What a marker stands for may hold markers itself, as long as none leads back to itself.
import ViewBinder.Diagnostic.Problem

namespace ViewBinder

/-! ## Markers in a text -/

namespace Marker

/-- How a marker begins. -/
def front : Text := "--token--"

/-- How a marker ends. -/
def back : Text := "--end-token--"

/-- The marker with a number. -/
def text (id : Nat) : Text := front ++ Text.ofNat id ++ back

/-- The digits of the marker that the text begins with. -/
def digits? (t : Text) : Option Text :=
  if Text.startsWith t front then
    let rest := t.drop front.length
    let digits := rest.takeWhile Text.isDigitByte
    if !digits.isEmpty && Text.startsWith (rest.dropWhile Text.isDigitByte) back then some digits
    else none
  else none

/-- A run of text without a marker, or the digits of a marker. -/
inductive Piece where
  | plain (run : Text)
  | marker (digits : Text)
  deriving DecidableEq, Repr

/-- The text of a piece. -/
def Piece.text : Piece → Text
  | plain run => run
  | marker digits => front ++ digits ++ back

/-- The piece is a marker. -/
def Piece.isMarker : Piece → Bool
  | plain _ => false
  | marker _ => true

/-- A byte in front of some pieces; it joins the run it touches. -/
def addByte (b : UInt8) : List Piece → List Piece
  | .plain run :: rest => .plain (b :: run) :: rest
  | pieces => .plain [b] :: pieces

/-- The pieces from the first byte not yet passed on; `skip` bytes belong to the marker before. -/
def piecesFrom : Nat → Text → List Piece
  | _, [] => []
  | skip + 1, _ :: rest => piecesFrom skip rest
  | 0, b :: rest =>
    match digits? (b :: rest) with
    | some digits =>
      .marker digits :: piecesFrom (front.length + digits.length + back.length - 1) rest
    | none => addByte b (piecesFrom 0 rest)

/-- The text as runs and markers, in order. Their texts, one after the other, are the text. -/
def pieces (t : Text) : List Piece := piecesFrom 0 t

/-- The text holds a marker. -/
def occursIn (t : Text) : Bool := (pieces t).any Piece.isMarker

/-- The largest number a marker can have. -/
def maxId : Nat := 0x7FFFFFFFFFFFFFFF

/-- The number of a text that is one marker and nothing else. -/
def id? (t : Text) : Option Nat :=
  match pieces t with
  | [.marker digits] =>
    if Text.digitsValue digits ≤ maxId then some (Text.digitsValue digits) else none
  | _ => none

end Marker

/-! ## The table -/

/-- What a marker stands for. -/
inductive Meaning where
  /-- A text. -/
  | known (value : Text)
  /-- A text that is worked out when it is first needed; `tries` attempts have failed so far, and
  the attempts are told apart by their number. -/
  | pending (attempt : Nat → Except Failure Text) (tries : Nat)

/-- A marker's meaning with the expression it was made for. -/
structure MarkerEntry where
  source : Text
  place : Option Location
  meaning : Meaning

/-- The markers of one unit in the order they were made. -/
structure Markers where
  /-- The number of the `k`-th marker; different markers have different numbers. -/
  supply : Nat → Nat := fun k => k + 1
  entries : List (Nat × MarkerEntry) := []
  /-- How many markers were replaced so far. -/
  woven : Nat := 0

namespace Markers

/-- The entry of a marker. -/
def find? (m : Markers) (id : Nat) : Option MarkerEntry := m.entries.lookup id

/-- The table with another meaning for a marker. -/
def redefine (m : Markers) (id : Nat) (meaning : Meaning) : Markers :=
  { m with entries := m.entries.map fun e =>
      if e.1 == id then (e.1, { e.2 with meaning := meaning }) else e }

/-- A new marker and the table that knows it. -/
def add (m : Markers) (source : Text) (place : Option Location) (meaning : Meaning) :
    Text × Markers :=
  let id := m.supply m.entries.length
  (Marker.text id, { m with entries := m.entries ++ [(id, ⟨source, place, meaning⟩)] })

/-- A new marker for a text. -/
def allocate (source : Text) (place : Option Location) (value : Text) : Work Markers Text :=
  modifyGet (·.add source place (.known value))

/-- Gives a marker its meaning. -/
def resolve (marker value : Text) : Work Markers Unit := do
  match Marker.id? marker with
  | none => failAt none (.notMarker marker)
  | some id =>
    match (← get).find? id with
    | none => failAt none (.unknownMarker id)
    | some _ => modify (·.redefine id (.known value))

/-- What a marker stands for. A pending meaning is worked out, and kept if that succeeds. -/
def valueOf (id : Nat) : Work Markers Text := do
  match (← get).find? id with
  | none => failAt none (.unresolvedMarker id)
  | some entry =>
    match entry.meaning with
    | .known value => return value
    | .pending attempt tries =>
      match attempt (tries + 1) with
      | .ok value =>
        modify (·.redefine id (.known value))
        return value
      | .error failure =>
        modify (·.redefine id (.pending attempt (tries + 1)))
        throw failure

/-- The text with its markers replaced. `active` are the markers whose meaning is being replaced;
they are different markers of the table, so `depth` need not exceed its size by more than one. -/
def weaveWithin : Nat → List Nat → Text → Work Markers Text
  | 0, _, t => return t
  | depth + 1, active, t => do
    let parts ← (Marker.pieces t).mapM fun piece => do
      match piece with
      | .plain run => return run
      | .marker digits =>
        let id := Text.digitsValue digits
        if Marker.maxId < id then failAt none (.malformedMarker piece.text)
        if active.contains id then failAt none (.circularMarker id)
        let value ← valueOf id
        let woven ← weaveWithin depth (id :: active) value
        modify fun m => { m with woven := m.woven + 1 }
        return woven
    return parts.flatten

/-- The text with every marker replaced by what it stands for. -/
def weave (t : Text) : Work Markers Text := do weaveWithin ((← get).entries.length + 1) [] t

/-- The entries of the markers in a text, in order of appearance. -/
def entriesIn (m : Markers) (t : Text) : List MarkerEntry :=
  (Marker.pieces t).filterMap fun piece =>
    match piece with
    | .plain _ => none
    | .marker digits => m.find? (Text.digitsValue digits)

/-- How many markers were made. -/
def size (m : Markers) : Nat := m.entries.length

end Markers

end ViewBinder
