-- Reading JSON values into records. A missing member and a null leave what is there, member names
-- match in any case, unknown members are passed over, and a repeated member is read over the
-- earlier one.
import ViewBinder.Json.Value

namespace ViewBinder.Json

/-- A value of one kind where another was wanted. -/
structure Mismatch where
  found : Text
  wanted : Text
  /-- The record whose member it is; empty outside of records. -/
  owner : Text := []
  /-- The members that lead to the value, outermost first. -/
  path : List Text := []
  deriving Repr

namespace Mismatch

/-- The mismatch as seen from a record whose member holds it; the innermost record owns it. -/
def within (m : Mismatch) (type member : Text) : Mismatch :=
  { m with owner := if m.path.isEmpty then (type.splitOn '.'.toUInt8).getLastD [] else m.owner,
           path := member :: m.path }

/-- The wording of a mismatch. -/
def message (m : Mismatch) : Text :=
  let place : Text :=
    if m.path.isEmpty then "value" else "struct field " ++ m.owner ++ "." ++ Text.join "." m.path
  "json: cannot unmarshal " ++ m.found ++ " into Go " ++ place ++ " of type " ++ m.wanted

end Mismatch

/-- The kind of a value. -/
def Value.kind : Value → Text
  | null => "null"
  | boolean _ => "bool"
  | number _ => "number"
  | string _ => "string"
  | array _ => "array"
  | object _ => "object"

/-- The value is not of the wanted kind. -/
def mismatch {α : Type} (v : Value) (wanted : Text) : Except Mismatch α :=
  .error { found := v.kind, wanted }

/-- A text, or what was there before. -/
def text (old : Text) : Value → Except Mismatch Text
  | .null => .ok old
  | .string t => .ok t
  | v => mismatch v "string"

/-- A truth value, or what was there before. -/
def boolean (old : Bool) : Value → Except Mismatch Bool
  | .null => .ok old
  | .boolean b => .ok b
  | v => mismatch v "bool"

/-- The whole number a literal stands for, if it fits in 64 bits. -/
def wholeNumber? (literal : Text) : Option Int :=
  let negative := Text.startsWith literal "-"
  let digits := Text.dropFront literal "-"
  if digits.isEmpty || !digits.all Text.isDigitByte then none
  else
    let n : Int := Text.digitsValue digits
    let n := if negative then -n else n
    if -0x8000000000000000 ≤ n && n < 0x8000000000000000 then some n else none

/-- A whole number, or what was there before. -/
def integer (old : Int) : Value → Except Mismatch Int
  | .null => .ok old
  | .number literal =>
    match wholeNumber? literal with
    | some n => .ok n
    | none => .error { found := "number " ++ literal, wanted := "int" }
  | v => mismatch v "int"

/-- A list of values of a type. Each item is read over the one that had its place before, or over
`fresh` where there was none; null stands for the empty list. -/
def list {α : Type} (type : Text) (fresh : α) (item : α → Value → Except Mismatch α)
    (old : List α) : Value → Except Mismatch (List α)
  | .null => .ok []
  | .array items =>
    ((old ++ List.replicate items.length fresh).zip items).mapM fun (before, v) => item before v
  | v => mismatch v ("[]" ++ type)

/-- A list of texts. -/
def texts : List Text → Value → Except Mismatch (List Text) := list "string" [] text

/-- Texts by name, put over earlier ones; a repeated name counts last. -/
def textMap (old : List (Text × Text)) : Value → Except Mismatch (List (Text × Text))
  | .null => .ok []
  | .object members => do
    let pairs ← members.mapM fun (name, v) => do return (name, ← text [] v)
    return pairs.foldl (fun kept (name, t) => kept.filter (·.1 != name) ++ [(name, t)]) old
  | v => mismatch v "map[string]string"

/-- A letter of a member name without its case; the long s and the kelvin sign count as letters. -/
def foldCode (code : Nat) : Nat :=
  if 0x41 ≤ code && code ≤ 0x5A then code + 32
  else if code == 0x17F then 0x73
  else if code == 0x212A then 0x6B
  else code

/-- A member name without its case. -/
def foldName (name : Text) : Text :=
  name.runes.flatMap fun r => Text.encodeRune (foldCode r.code)

/-- A member of a record: its name, and how its value is put in. -/
structure Member (σ : Type) where
  name : Text
  put : σ → Value → Except Mismatch σ

/-- A record of a type whose members are put in one after the other. -/
def record {σ : Type} (type : Text) (members : List (Member σ)) (start : σ) :
    Value → Except Mismatch σ
  | .null => .ok start
  | .object given => given.foldlM (fun s (name, v) =>
      match members.find? fun m => foldName m.name == foldName name with
      | some m => (m.put s v).mapError (·.within type m.name)
      | none => .ok s) start
  | v => mismatch v type

end ViewBinder.Json
