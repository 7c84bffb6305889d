-- Imports of a generated program: the packages it refers to, each with the name it is known by in
-- the program. A package keeps the name it first got.
import ViewBinder.Catalog.Basic
import ViewBinder.Path

namespace ViewBinder

/-- The packages of a program. -/
structure Imports where
  /-- The package of the program itself, which needs no import. -/
  self : Text
  /-- Package paths and their names, in the order they were added. -/
  names : List (Text × Text) := []
  /-- How often each name was claimed. -/
  claims : List (Text × Nat) := []
  deriving Repr

namespace Imports

/-- How often a name was claimed. -/
def claimed (im : Imports) (name : Text) : Nat := (im.claims.lookup name).getD 0

/-- The imports with another number of claims for a name. -/
def setClaimed (im : Imports) (name : Text) (n : Nat) : Imports :=
  { im with claims := (name, n) :: im.claims.filter (·.1 != name) }

/-- Imports a package and gives its name; nothing for the package of the program itself. The
preferred name, by default the last element of the path, gets a number if it was claimed. -/
def add (im : Imports) (path preferred : Text) : Text × Imports :=
  if path.isEmpty || path == im.self then ([], im)
  else match im.names.lookup path with
    | some name => (name, im)
    | none =>
      let wanted := Text.sanitize (if preferred.isEmpty then Path.base path else preferred)
      let count := im.claimed wanted
      let im := if count == 0 then im else im.setClaimed wanted (count + 1)
      let name := if count == 0 then wanted else wanted ++ Text.ofNat (count + 1)
      let im := im.setClaimed name (im.claimed name + 1)
      (name, { im with names := im.names ++ [(path, name)] })

/-- A name of the package of a type, qualified. -/
def qualify (im : Imports) (t : TypeDecl) (name : Text) : Text × Imports :=
  let (package, im) := im.add t.package t.packageName
  (if package.isEmpty then name else package ++ "." ++ name, im)

/-- A type as the program writes it: objects by reference, everything else by name. -/
def typeRef (im : Imports) (t : TypeDecl) : Text × Imports :=
  match t.kind with
  | .primitive => (t.name, im)
  | .boxed => (t.name, im)
  | .object =>
    let (name, im) := im.qualify t t.localName
    ("*" ++ name, im)
  | _ => im.qualify t t.localName

/-- The packages with their names, in the order of their paths. -/
def list (im : Imports) : List (Text × Text) := Text.sortedBy (·.1) im.names

end Imports

end ViewBinder
