-- Attach sections: statements that run while an element is attached to the document for a moment.
-- Sections nest, and an inner one is finished before the one around it; a section without
-- statements leaves no trace. What is done to the sections of a template is well bracketed: statements
-- are added by what is built within the element that a section was entered for, and that section is
-- left once, however building it ends. So nothing is said about adding to no section, or leaving none.
import ViewBinder.Text.Basic

namespace ViewBinder

/-- Statements that run while the value of an expression is attached. -/
structure Section where
  expr : Text
  statements : List Text := []
  deriving DecidableEq, Repr

/-- The sections of one unit. -/
structure Sections where
  /-- The sections being filled, innermost first. -/
  unfinished : List Section := []
  /-- The finished sections that hold a statement, in the order they were finished. -/
  finished : List Section := []
  /-- Statements that run when everything was detached again. -/
  detached : List Text := []
  deriving DecidableEq, Repr

namespace Sections

/-- Begins a section inside the innermost one. -/
def enter (s : Sections) (expr : Text) : Sections :=
  { s with unfinished := { expr } :: s.unfinished }

/-- Adds a statement to the innermost section. Nobody adds one where there is no section. -/
def add (s : Sections) (statement : Text) : Sections :=
  match s.unfinished with
  | inner :: outer =>
    { s with unfinished :=
        { inner with statements := inner.statements ++ [statement] } :: outer }
  | [] => s

/-- Finishes the innermost section. Nobody leaves a section that was not entered. -/
def leave (s : Sections) : Sections :=
  match s.unfinished with
  | inner :: outer =>
    { s with unfinished := outer,
             finished := if inner.statements.isEmpty then s.finished else s.finished ++ [inner] }
  | [] => s

/-- Adds a statement for when everything was detached again. -/
def addDetached (s : Sections) (statement : Text) : Sections :=
  { s with detached := s.detached ++ [statement] }

/-- The name of the record that keeps where an element was. -/
def recordName (i : Nat) : Text := "attach" ++ Text.ofNat (i + 1)

/-- A section as statements: it is attached, filled and detached. -/
def block (attach : Text) (i : Nat) (s : Section) : List Text :=
  (recordName i ++ " := " ++ attach ++ "(" ++ s.expr ++ ")") ::
    (s.statements ++ [recordName i ++ ".Detach()"])

/-- The finished sections as statements, `attach` being the function that attaches an element. -/
def render (s : Sections) (attach : Text) : List Text :=
  s.finished.zipIdx.flatMap fun entry => block attach entry.2 entry.1

end Sections

end ViewBinder
