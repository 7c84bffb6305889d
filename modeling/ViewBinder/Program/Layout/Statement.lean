-- Statements of a program and how they are laid out. Blanks stand around the sign of a sum only
-- where it is not nested in another expression, and the body of a function literal stays on its
-- line as long as it is short.
import ViewBinder.Text.Basic

namespace ViewBinder.Layout

mutual

/-- An expression. -/
inductive Expr where
  /-- A name, a number or a text literal. -/
  | atom (t : Text)
  | member (of : Expr) (name : Text)
  | call (f : Expr) (args : List Expr)
  /-- An operator in front of its operand. -/
  | signed (sign : Text) (x : Expr)
  | pointee (x : Expr)
  /-- Two terms with a plus or a minus between them. -/
  | sum (left : Expr) (sign : Text) (right : Expr)
  | parens (x : Expr)
  /-- A value of a type, made of its parts. -/
  | composite (type : Expr) (parts : List Expr)
  | keyed (key value : Expr)
  /-- A function literal; its head holds everything in front of the body. -/
  | function (head : Text) (body : List Statement)

/-- A statement. -/
inductive Statement where
  | value (x : Expr)
  | assign (target : Expr) (sign : Text) (x : Expr)
  | give (x : Option Expr)

end

/-- Two terms of one sum. -/
def Expr.isSum : Expr → Bool
  | sum _ _ _ => true
  | _ => false

/-- An expression in parentheses. -/
def Expr.isParens : Expr → Bool
  | parens _ => true
  | _ => false

/-- A name that may be a type, qualified or not. -/
def Expr.isName : Expr → Bool
  | atom _ => true
  | member x _ => x.isName
  | _ => false

/-- The longest line a function literal may make together with its head. -/
def longestFunction : Nat := 100

/-- The most statements a function literal may have on one line. -/
def mostStatements : Nat := 5

/-- Tabs in front of a line. -/
def tabs (n : Nat) : Text := List.replicate n 0x09

/-- The statements of a function literal fit on the line of its head. -/
def fits (head : Text) (statements : List Text) : Bool :=
  statements.length ≤ mostStatements &&
    statements.all (fun s => s.all (0x20 ≤ ·)) &&
    head.length + (Text.join "; " statements).length ≤ longestFunction

/-- A function literal with its statements on one line, or on a line each. -/
def joinFunction (indent : Nat) (head : Text) (statements : List Text) : Text :=
  if statements.isEmpty then head ++ " \x7b\x7d"
  else if fits head statements then head ++ " \x7b " ++ Text.join "; " statements ++ " \x7d"
  else
    let lines : Text := statements.flatMap fun s => tabs (indent + 1) ++ s ++ [0x0A]
    head ++ " \x7b\n" ++ lines ++ tabs indent ++ "\x7d"

mutual

/-- An expression on a line with `indent` tabs in front, inside of `depth` expressions. -/
def Expr.write (indent depth : Nat) : Expr → Text
  | .atom t => t
  | .member x name => x.write indent depth ++ "." ++ name
  | .call f args =>
    let depth := if 1 < args.length then depth + 1 else depth
    f.write indent depth ++ "(" ++ Text.join ", " (writeAll indent depth args) ++ ")"
  | .signed sign x => sign ++ x.write indent depth
  | .pointee x => "*" ++ x.write indent 1
  | .sum left sign right =>
    let sign := if depth == 1 then " " ++ sign ++ " " else sign
    left.write indent (if left.isSum then depth else depth + 1) ++ sign ++
      right.write indent (depth + 1)
  | .parens x =>
    if x.isParens then x.write indent depth
    else "(" ++ x.write indent (max 1 (depth - 1)) ++ ")"
  | .composite type parts =>
    type.write indent depth ++ "\x7b" ++ Text.join ", " (writeAll indent 1 parts) ++ "\x7d"
  | .keyed key x => key.write indent 1 ++ ": " ++ x.write indent 1
  | .function head body => joinFunction indent head (writeBody (indent + 1) body)

/-- Expressions one by one. -/
def writeAll (indent depth : Nat) : List Expr → List Text
  | [] => []
  | x :: rest => x.write indent depth :: writeAll indent depth rest

/-- A statement on a line with `indent` tabs in front. -/
def Statement.write (indent : Nat) : Statement → Text
  | .value x => x.write indent 1
  | .assign target sign x => target.write indent 1 ++ " " ++ sign ++ " " ++ x.write indent 1
  | .give none => "return"
  | .give (some x) => "return " ++ x.write indent 1

/-- Statements one by one. -/
def writeBody (indent : Nat) : List Statement → List Text
  | [] => []
  | s :: rest => s.write indent :: writeBody indent rest

end

end ViewBinder.Layout
