-- Loading: from the tokens of a source to a document. Abbreviations of namespaces are resolved
-- against the declarations in scope, tags must match, and everything outside the root is
-- refused but comments, blanks, the document's own declaration and its type.
import ViewBinder.Markup.Token
import ViewBinder.Markup.Document

namespace ViewBinder.Markup

/-- The namespace of the abbreviation `xml`. -/
def xmlUri : Text := "http://www.w3.org/XML/1998/namespace"

/-- Abbreviations and the namespaces they stand for; of two entries the first counts. -/
abbrev Bindings := List (Text × Text)

/-- The abbreviations an opening tag declares, the last declaration first. -/
def declaredBindings (attributes : List (RawName × Text)) : Bindings :=
  (attributes.filterMap fun (name, value) =>
    if name.lead == "xmlns" then some (name.base, value)
    else if name.lead.isEmpty && name.base == "xmlns" then some ([], value)
    else none).reverse

/-- The namespace of a name. Attributes without abbreviation have none; an abbreviation that is
not declared stands for itself. -/
def namespaceOf (scope : Bindings) (isElement : Bool) (name : RawName) : Text :=
  if name.lead == "xmlns" then name.lead
  else if name.lead.isEmpty && (!isElement || name.base == "xmlns") then []
  else if name.lead == "xml" then xmlUri
  else (scope.lookup name.lead).getD name.lead

/-- The abbreviation for a namespace: the one declared innermost, among those of one tag the
first in byte order. Attributes cannot use the default namespace. -/
def leadFor (scopes : List Bindings) (isElement : Bool) (uri : Text) : Option Text :=
  if uri.isEmpty then some []
  else if uri == xmlUri then some "xml"
  else scopes.findSome? fun scope =>
    (Text.sorted ((scope.map (·.1)).eraseDups)).find? fun lead =>
      scope.lookup lead == some uri && (isElement || !lead.isEmpty)

/-- An element whose closing tag is still to come. -/
structure OpenElement where
  id : Nat
  name : RawName
  /-- What the tag declares, as written. -/
  declared : Bindings
  /-- What the tag declares, by the resolved names of its attributes. -/
  recorded : Bindings

/-- How far loading has come. -/
structure Loading where
  document : Document
  /-- Innermost element first. -/
  opened : List OpenElement := []
  /-- The root was closed. -/
  closed : Bool := false

/-- The failure for markup that cannot be read: a syntax error is placed on its line, an unfit
document declaration at its start. -/
def scanFailure (file : SourceFile) (start : Nat) (e : ScanError) : Failure :=
  let problem := Problem.malformed e.cause.message
  if e.cause.isDeclared then problem.failure (some (file.locate start))
  else
    let line := 1 + file.content.count newline - e.rest.count newline
    problem.failure (some ⟨some file, -1, line, 0⟩)

namespace Loading

/-- The element that new nodes belong to. -/
def parent (l : Loading) : Option Nat := l.opened.head?.map (·.id)

/-- The innermost element is complete. -/
def pop (l : Loading) : Loading :=
  let rest := l.opened.drop 1
  { l with opened := rest, closed := l.closed || rest.isEmpty }

/-- An opening tag. -/
def start (l : Loading) (place : Location) (raw : RawName) (attributes : List (RawName × Text))
    (empty : Bool) : Except Failure Loading := do
  if l.closed then throw ((Problem.elementAfterRoot raw.base).failure (some place))
  let declared := declaredBindings attributes
  let scope := declared ++ l.opened.flatMap (·.declared)
  let resolved := attributes.map fun (name, value) =>
    (RawName.mk (namespaceOf scope false name) name.base, value)
  let recorded := declaredBindings resolved
  let scopes := recorded :: l.opened.map (·.recorded)
  let resolve (isElement : Bool) (uri base : Text) : Except Failure Name :=
    match leadFor scopes isElement uri with
    | some lead => .ok ⟨uri, base, lead⟩
    | none => .error ((Problem.unboundPrefix uri).failure (some place))
  let name ← resolve true (namespaceOf scope true raw) raw.base
  let kept := resolved.filter fun (name, _) =>
    !(name.lead == "xmlns" || (name.lead.isEmpty && name.base == "xmlns"))
  let attributes ← kept.mapM fun (name, value) => do
    return Attribute.mk (← resolve false name.lead name.base) value (some place) false
  let id := l.document.nodes.size
  let document := l.document.push ⟨.element name attributes [], l.parent, place, false⟩
  let l := { l with document, opened := ⟨id, raw, declared, recorded⟩ :: l.opened }
  return if empty then l.pop else l

/-- A closing tag; `rest` is the source after it. -/
def close (l : Loading) (rest : Text) (name : RawName) : Except ScanError Loading :=
  match l.opened with
  | [] => stop (.strayClose name.base) rest
  | top :: _ =>
    if top.name.base != name.base then stop (.wrongClose top.name.base name.base) rest
    else if top.name.lead != name.lead then stop (.wrongLead top.name name) rest
    else .ok l.pop

/-- Blanks and byte order marks may stand outside the root. -/
def isIgnorable (t : Text) : Bool :=
  t.runes.all fun r =>
    r.code == 0xFEFF || r.code == 0x20 || r.code == 0x09 || r.code == 0x0A || r.code == 0x0D

/-- Character data. -/
def text (l : Loading) (place : Location) (body : Body) (ignorable : Bool) :
    Except Failure Loading :=
  match l.parent with
  | none => if ignorable then .ok l else .error (Problem.textOutsideRoot.failure (some place))
  | some parent => .ok { l with document := l.document.push ⟨body, some parent, place, false⟩ }

/-- The next token; `start` is where it begins and `rest` is the source after it. -/
def step (l : Loading) (start : Nat) (rest : Text) (token : Token) : Except Failure Loading :=
  let file := l.document.file
  let place := file.locate start
  let hasRoot := 0 < l.document.nodes.size
  match token with
  | .start name attributes empty => l.start place name attributes empty
  | .close name =>
    match l.close rest name with
    | .ok l => .ok l
    | .error e => .error (scanFailure file start e)
  | .text content => l.text place (.text content) (isIgnorable content)
  | .cdata content => l.text place (.cdata content) false
  | .comment => .ok l
  | .instruction target =>
    if target != "xml" || hasRoot then
      .error ((Problem.processingInstruction target).failure (some place))
    else .ok l
  | .declaration body =>
    if hasRoot || !Text.startsWith (Text.trim body) "DOCTYPE" then
      .error ((Problem.markupDeclaration ((Text.words body).headD [])).failure (some place))
    else .ok l

/-- All tokens of a source; `fuel` bounds their number. -/
def run : Nat → Loading → Text → Except Failure Loading
  | 0, l, _ => .ok l
  | fuel + 1, l, source =>
    let file := l.document.file
    let start := file.content.length - source.length
    match source with
    | [] =>
      if l.opened.isEmpty then .ok l
      else .error (scanFailure file start ⟨.unexpectedEnd, []⟩)
    | _ =>
      match Token.scan source with
      | .error e => .error (scanFailure file start e)
      | .ok (token, rest) =>
        match l.step start rest token with
        | .error f => .error f
        | .ok l => run fuel l rest

end Loading

/-- The document of a source. -/
def Document.load (source url : Text) : Except Failure Document :=
  let file : SourceFile := ⟨source, url⟩
  match Loading.run (source.length + 1) ⟨⟨file, #[]⟩, [], false⟩ source with
  | .error f => .error f
  | .ok l =>
    if l.document.nodes.isEmpty then .error (Problem.noRoot.failure (some (file.locate 0)))
    else .ok l.document

end ViewBinder.Markup
