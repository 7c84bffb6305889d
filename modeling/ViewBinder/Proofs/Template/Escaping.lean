-- Values in markup. A value that markup shows is escaped when it is written, or was made safe
-- before. But its element is one of markup too, whose attributes were rewritten: there the value
-- was escaped already, and as text.
import ViewBinder.Proofs.Attribute.Parser
import ViewBinder.Proofs.Template.Phases
import ViewBinder.Proofs.Template.Rewriting

namespace ViewBinder

open Markup (Document Attribute)
open Session
open Work (Keeps Leads)

/-! ## Parsers of texts -/

namespace Attribute.Parsers

/-- Texts are read as text. -/
theorem get_string {c' : Catalog} {t : TypeId} (c : Catalog) (h : c'.Names "string" t) :
    (Parsers.of c).get c' [some t] = .string (c.find? [] "string") := by
  have hkey : typesKey c' [some t] = "string" := (typesKey_one _ _).trans h.key
  have hfound : (Parsers.of c).lookup (Text.ofString "string") =
      some (.string (c.find? [] "string")) := rfl
  unfold Parsers.get
  rw [hkey, hfound]

theorem lookup_numericParsers {c : Catalog} {key : Text}
    (h : ∀ name ∈ numericNames, key ≠ name ∧ key ≠ "*" ++ name) :
    (numericNames.flatMap (numericParsers c)).lookup key = none := by
  rw [List.lookup_eq_none_iff]
  intro entry hentry
  obtain ⟨name, hname, hentry⟩ := List.mem_flatMap.mp hentry
  obtain ⟨hplain, hboxed⟩ := h name hname
  unfold numericParsers at hentry
  split at hentry
  · rcases List.mem_cons.mp hentry with rfl | hentry
    · simpa using hplain
    · rw [List.mem_singleton.mp hentry]
      simpa using hboxed
  · cases hentry

theorem lookup_libraryParser {c : Catalog} {key other : Text} (h : key ≠ other)
    (parser : TypeId → AttributeParser) : (libraryParser c other parser).lookup key = none := by
  have hother : (key == other) = false := by simpa using h
  unfold libraryParser
  split
  · rw [List.lookup_cons, hother]
    rfl
  · rfl

theorem lookup_lengthParser {c : Catalog} (h : c.Loaded) {key : Text}
    (hkey : key.head? ≠ some 'f'.toUInt8) : (lengthParser c).lookup key = none := by
  unfold lengthParser
  split
  · rename_i float unit hfloat _
    have hfirst : c.key (some float) = "float64" := (h.names hfloat).key
    have hother : (key == typesKey c [some float, some unit]) = false := by
      rw [beq_eq_false_iff_ne]
      rintro rfl
      unfold typesKey at hkey
      rw [List.map_cons, hfirst] at hkey
      exact hkey rfl
    rw [List.lookup_cons, hother]
    rfl
  · rfl

/-- The types of texts that are safe are those that are looked up last. -/
theorem lookup_of_safe {c : Catalog} (h : c.Loaded) {key : Text}
    (hkey : key = Library.safehtml "SafeHtml" ∨ key = Library.safehtml "SafeUri") :
    (Parsers.of c).lookup key =
      (libraryParser c (Library.safehtml "SafeHtml") (.safeHtml (.string (c.find? [] "string"))) ++
        libraryParser c (Library.safehtml "SafeUri")
          (.safeUri (.string (c.find? [] "string")))).lookup key := by
  have hnumeric : (numericNames.flatMap (numericParsers c)).lookup key = none := by
    refine lookup_numericParsers ?_
    rcases hkey with rfl | rfl <;> decide
  have hlength : (lengthParser c).lookup key = none := by
    refine lookup_lengthParser h ?_
    rcases hkey with rfl | rfl <;> decide
  have hlibrary : ∀ other parser, other ∈ [Text.ofString "*bool",
      Library.ui "HorizontalAlignmentConstant", Library.ui "VerticalAlignmentConstant",
      Library.dom "TextAlign"] → (libraryParser c other parser).lookup key = none := by
    intro other parser hmem
    refine lookup_libraryParser ?_ parser
    rintro rfl
    revert hmem
    rcases hkey with rfl | rfl <;> decide
  have hpair : ∀ parser : AttributeParser,
      List.lookup key [(Text.ofString "int,int", parser)] = none := by
    intro parser
    rcases hkey with rfl | rfl <;> rfl
  have hfirst : ∀ bool text : AttributeParser, List.lookup key
      [(Text.ofString "bool", bool), (Text.ofString "string", text)] = none := by
    intro bool text
    rcases hkey with rfl | rfl <;> rfl
  unfold Parsers.of
  dsimp only
  simp (disch := decide) only [List.lookup_append, hnumeric, hlength, hlibrary, hfirst]
  cases c.find? [] "int" <;> simp [hpair]

/-- Safe markup is read as trusted text. -/
theorem get_safeHtml {c c' : Catalog} {t : TypeId} (hloaded : c.Loaded)
    (h : c.lookup? (Library.safehtml "SafeHtml") = some t)
    (h' : c'.Names (Library.safehtml "SafeHtml") t) :
    (Parsers.of c).get c' [some t] = .safeHtml (.string (c.find? [] "string")) t := by
  have hkey : typesKey c' [some t] = Library.safehtml "SafeHtml" := (typesKey_one _ _).trans h'.key
  have hown : libraryParser c (Library.safehtml "SafeHtml")
      (.safeHtml (.string (c.find? [] "string"))) =
      [(Library.safehtml "SafeHtml", .safeHtml (.string (c.find? [] "string")) t)] := by
    unfold libraryParser
    rw [h]
  unfold Parsers.get
  rw [hkey, lookup_of_safe hloaded (.inl rfl), hown]
  rfl

/-- Addresses have a parser of their own. -/
theorem get_safeUri {c c' : Catalog} {t : TypeId} (hloaded : c.Loaded)
    (h : c.lookup? (Library.safehtml "SafeUri") = some t)
    (h' : c'.Names (Library.safehtml "SafeUri") t) :
    (Parsers.of c).get c' [some t] = .safeUri (.string (c.find? [] "string")) t := by
  have hkey : typesKey c' [some t] = Library.safehtml "SafeUri" := (typesKey_one _ _).trans h'.key
  have hother : ∀ parser, (libraryParser c (Library.safehtml "SafeHtml") parser).lookup
      (Library.safehtml "SafeUri") = none := lookup_libraryParser (by decide)
  have hown : libraryParser c (Library.safehtml "SafeUri")
      (.safeUri (.string (c.find? [] "string"))) =
      [(Library.safehtml "SafeUri", .safeUri (.string (c.find? [] "string")) t)] := by
    unfold libraryParser
    rw [h]
  unfold Parsers.get
  rw [hkey, lookup_of_safe hloaded (.inr rfl), List.lookup_append, hother, hown]
  rfl

end Attribute.Parsers

/-! ## Reading a value -/

theorem Markup.Document.takeRequired_of_peek {d : Document} {e : Nat} {base value : Text}
    (h : d.peek e base = some value) : ∃ d', (takeRequired e base).runOn d = (.ok value, d') := by
  unfold peek at h
  obtain ⟨⟨i, a⟩, hfound, rfl⟩ := Option.map_eq_some_iff.mp h
  have htake : (takeRaw e base).runOn d = (.ok (some a.value), d.useAttribute e i) := by
    show (Except.ok (d.take? e [] base).1, (d.take? e [] base).2) = _
    unfold take?
    rw [hfound]
  refine ⟨d.useAttribute e i, ?_⟩
  unfold takeRequired
  rw [Work.runOn_bind, htake]
  rfl

namespace Session

variable {s s' : Session} {e : Nat}

/-- A required attribute is read by the parser of its types. -/
theorem takeRequired_ok {name value expr : Text} {types : List (Option TypeId)}
    (hpeek : s.document.peek e name = some value)
    (h : (takeRequired e name types).runOn s = (.ok expr, s')) :
    ∃ document d, (Attribute.parse (s.parsers.get s.catalog types) e value).runOn
        { s.toDraft with document } = (.ok expr, d) ∧ s' = { s with toDraft := d } := by
  obtain ⟨document, htake⟩ := Document.takeRequired_of_peek hpeek
  unfold takeRequired at h
  obtain ⟨_, _, hget, h⟩ := Work.bind_ok h
  cases hget
  obtain ⟨d, hd, rfl⟩ := lift_ok h
  unfold Attribute.takeRequired at hd
  obtain ⟨v, d₁, hfirst, hd⟩ := Work.bind_ok hd
  change (((Document.takeRequired e name).runOn s.document).1,
    { s.toDraft with document := ((Document.takeRequired e name).runOn s.document).2 }) = _
    at hfirst
  rw [htake] at hfirst
  cases hfirst
  obtain ⟨_, _, hget, hd⟩ := Work.bind_ok hd
  cases hget
  dsimp only at hd
  split at hd
  · cases hd
  · exact ⟨document, d, hd, rfl⟩

/-- Work on the document that changes nothing changes nothing in the session. -/
theorem lift_same_ok {α : Type} {w : Work Document α} [hsame : Leads Eq w] {a : α}
    (h : (liftM w : Work Session α).runOn s = (.ok a, s')) : s' = s := by
  change ((w.runOn s.document).1, { s with document := (w.runOn s.document).2 }) = _ at h
  rw [← hsame.leads s.document] at h
  exact (Prod.mk.inj h).2.symm

end Session

namespace Content

variable {s s' : Session} {e : Nat}

/-- The attributes of a binder element inside markup are rewritten before the element is read. -/
theorem interpret?_of_isBinder (build : Builder) (slot : Nat → Work Session Html)
    (attached stamped : Bool) (panel : Option FieldId) (h : s.document.isBinder e = true) :
    (interpret? build (.markup attached panel stamped) slot e).runOn s =
      (do
        rewriteAttributes e
        if s.document.isBinderTag e "msg" then
          some <$> message (.markup attached panel stamped) slot e
        else if s.document.isBinderTag e "text" then
          some <$> textValue (.markup attached panel stamped) e
        else if s.document.isBinderTag e "safehtml" then some <$> markupValue e
        else return none).runOn s := by
  have himported : s.document.isImported e = false := by
    by_contra himported
    rw [isBinder_of_isImported (by simpa using himported)] at h
    cases h
  have hbinder : ∀ {s₁}, (rewriteAttributes e).runOn s = (.ok (), s₁) →
      s₁.document.isBinder e = true := by
    intro s₁ hrewrite
    have hnames : SameNames s s₁ := Keeps.keeps hrewrite
    unfold Document.isBinder
    rw [hnames e]
    exact h
  unfold interpret?
  rw [Work.runOn_bind, show getDocument.runOn s = (.ok s.document, s) from rfl]
  simp only [himported]
  rw [← bind_assoc, show (declareAttributeMessages e _ >>= fun _ => computeAttributes e) =
    rewriteAttributes e from rfl, Work.runOn_bind, Work.runOn_bind]
  rcases hrewrite : (rewriteAttributes e).runOn s with ⟨_ | _, s₁⟩
  · rfl
  · dsimp only
    cases attached with
    | false => cases panel <;> rfl
    | true =>
      rw [if_pos rfl, Work.runOn_bind, runOn_bindField (.inr (hbinder hrewrite))]
      cases panel <;> rfl

theorem valueFrom_ok {value expr : Text} {type : Option TypeId}
    (hpeek : s.document.peek e "from" = some value)
    (h : (valueFrom e type).runOn s = (.ok expr, s')) :
    ∃ document d, (Attribute.parse (s.parsers.get s.catalog [type]) e value).runOn
        { s.toDraft with document } = (.ok expr, d) ∧ s' = { s with toDraft := d } := by
  unfold valueFrom at h
  obtain ⟨expr', s₁, hread, h⟩ := Work.bind_ok h
  obtain ⟨_, s₂, hattributes, h⟩ := Work.bind_ok h
  obtain ⟨_, s₃, hbody, h⟩ := Work.bind_ok h
  cases h
  obtain rfl := lift_same_ok hattributes
  obtain rfl := lift_same_ok hbody
  exact takeRequired_ok hpeek hread

/-! ## Values that were rewritten -/

variable {c : Catalog} {k : Nat} {m : Text}

/-- A text value is a literal by now, and that literal is escaped. -/
theorem textValue_ok {text : TypeId} {attached stamped : Bool} {panel : Option FieldId}
    (hsound : s.Sound) (hnames : s.catalog.Names "string" text)
    (hparsers : s.parsers = Attribute.Parsers.of c)
    (hpeek : s.document.peek e "from" = some (Marker.text k))
    (h : (textValue (.markup attached panel stamped) e).runOn s = (.ok m, s')) :
    ∃ k' package, m = Marker.text k' ∧
      s'.Splices k' (escapeCall package ("\"" ++ Marker.text k ++ "\"")) ∧
      ∀ known, s.imports.Known Library.safehtmlPackage known → known = package := by
  unfold textValue at h
  obtain ⟨type, _, htype, h⟩ := Work.bind_ok h
  cases htype
  obtain ⟨expr, s₁, hvalue, h⟩ := Work.bind_ok h
  obtain ⟨call, s₂, hescape, hsplice⟩ := Work.bind_ok h
  have hrun₁ : Run s s₁ := run_ok hvalue
  obtain ⟨document, d, hparse, rfl⟩ := valueFrom_ok hpeek hvalue
  rw [show s.catalog.find? [] "string" = some text from hnames.lookup, hparsers,
    Attribute.Parsers.get_string c hnames, Attribute.parse_string_text] at hparse
  cases hparse
  change (escaped _).runOn _ = _ at hescape
  have hrun₂ : Run _ s₂ := run_ok hescape
  obtain ⟨package, rfl, -, hpackage⟩ := escaped_ok hescape
  have hsound₂ := (hrun₁.trans hrun₂).reaches.sound hsound
  obtain ⟨k', rfl, hsplices⟩ := splices_of_splice hsound₂ hsplice
  exact ⟨k', package, rfl, hsplices, hpackage⟩

/-- A value of safe markup is a literal by now, which is trusted as it is. -/
theorem markupValue_ok {type : TypeId} (hsound : s.Sound) (hloaded : c.Loaded)
    (hknown : c.lookup? (Library.safehtml "SafeHtml") = some type)
    (hnames : s.catalog.Names (Library.safehtml "SafeHtml") type)
    (hparsers : s.parsers = Attribute.Parsers.of c)
    (hpeek : s.document.peek e "from" = some (Marker.text k))
    (h : (markupValue e).runOn s = (.ok m, s')) :
    ∃ k' maker, m = Marker.text k' ∧ '-'.toUInt8 ∉ maker ∧ "FromTrustedString" <:+ maker ∧
      s'.Splices k' (maker ++ "(" ++ ("\"" ++ Marker.text k ++ "\"") ++ ")" ++ ".String()") := by
  unfold markupValue at h
  obtain ⟨found, _, htype, h⟩ := Work.bind_ok h
  cases htype
  rw [show s.catalog.find? Library.safehtmlPackage "SafeHtml" = some type from hnames.lookup] at h
  dsimp only at h
  obtain ⟨expr, s₁, hvalue, hsplice⟩ := Work.bind_ok h
  have hrun₁ : Run s s₁ := run_ok hvalue
  obtain ⟨document, d, hparse, rfl⟩ := valueFrom_ok hpeek hvalue
  rw [hparsers, Attribute.Parsers.get_safeHtml hloaded hknown hnames,
    Attribute.parse_safeHtml_text] at hparse
  cases hparse
  obtain ⟨k', rfl, hsplices⟩ := splices_of_splice (hrun₁.reaches.sound hsound) hsplice
  exact ⟨k', _, rfl, hsound.imports.qualify _ (by decide), Imports.suffix_qualify _ _ _, hsplices⟩

/-- What markup shows for the value of a path: the path is read as text and escaped where the
attribute was rewritten, and `call` is made with the literal around that. -/
structure ShowsEscaped (s : Session) (e : Nat) (path : Text) (text : TypeId) (m : Text)
    (call : Text → Text → Text) (r : FieldReference) (package : Text) : Prop where
  element : r.element = e
  path : r.path = Text.trim path
  types : r.types = [some text]
  reference : r ∈ s.fields.references
  woven : ∀ s' d, Reaches s s' → Draft.settleReferences.runOn s'.toDraft = (.ok (), d) →
    ∃ n id expr adapted, Draft.Resolved d r n id expr adapted ∧
      ∀ w, d.markers.Expands m w ↔ ∃ v, d.markers.Expands adapted v ∧
        w = interrupted (call package (escapedLiteral package v))

/-- A call around the literal of a spliced reference. -/
theorem showsEscaped_of_splices {r : FieldReference} {n k' : Nat} {package path : Text}
    {text : TypeId} {call : Text → Text → Text} (hsound : s.Sound) (helement : r.element = e)
    (hpath : r.path = Text.trim path) (htypes : r.types = [some text])
    (hspliced : s.Spliced r n k package)
    (hsplices : s.Splices k' (call package ("\"" ++ Marker.text k ++ "\"")))
    (hcall : ∀ (m : Markers) arg w, m.Expands (interrupted (call package arg)) w ↔
      ∃ v, m.Expands arg v ∧ w = interrupted (call package v)) :
    ShowsEscaped s e path text (Marker.text k') call r package := by
  refine ⟨helement, hpath, htypes, hspliced.reference, fun s' d hlater hsettle => ?_⟩
  have hsound' := hlater.sound hsound
  obtain ⟨id, expr, adapted, hresolved, hliteral⟩ :=
    (hspliced.reaches hsound hlater).expands_quoted hsound' hsettle
  refine ⟨n, id, expr, adapted, hresolved, fun w => ?_⟩
  rw [(hsplices.reaches hsound hlater).expands hsound' hsettle, hcall]
  simp only [hliteral]
  constructor
  · rintro ⟨_, ⟨v, hv, rfl⟩, rfl⟩
    exact ⟨v, hv, rfl⟩
  · rintro ⟨v, hv, rfl⟩
    exact ⟨_, ⟨v, hv, rfl⟩, rfl⟩

/-- An element that stands for a value is written as that value, after its attributes were
rewritten. -/
theorem renderElement_value {build : Builder} {slot : Nat → Work Session Html}
    {attached stamped : Bool} {panel : Option FieldId} {html : Html} {value : Work Session Text}
    (hbinder : s.document.isBinder e = true) (hmsg : s.document.isBinderTag e "msg" = false)
    (hvalue : (if s.document.isBinderTag e "text" then
        some <$> textValue (.markup attached panel stamped) e
      else if s.document.isBinderTag e "safehtml" then some <$> markupValue e
      else return none) = some <$> value)
    (h : (renderElement build (.markup attached panel stamped) slot e).runOn s = (.ok html, s')) :
    ∃ m s₁, html = .raw m ∧ (rewriteAttributes e).runOn s = (.ok (), s₁) ∧
      value.runOn s₁ = (.ok m, s') := by
  unfold renderElement at h
  rw [Work.runOn_bind, interpret?_of_isBinder _ _ _ _ _ hbinder] at h
  simp only [hmsg, Bool.false_eq_true, if_false, hvalue] at h
  rw [Work.runOn_bind] at h
  rcases hrewrite : (rewriteAttributes e).runOn s with ⟨_ | _, s₁⟩
  · rw [hrewrite] at h
    cases h
  · rw [hrewrite] at h
    dsimp only at h
    rw [Work.runOn_map] at h
    rcases hrun : value.runOn s₁ with ⟨_ | m, s₂⟩
    · rw [hrun] at h
      cases h
    · rw [hrun] at h
      cases h
      exact ⟨m, s₁, rfl, rfl, hrun⟩

/-- A call that makes trusted markup of a text, and text again. -/
def trustCall (maker expr : Text) : Text := maker ++ "(" ++ expr ++ ")" ++ ".String()"

/-- The attribute of the element is the marker of an escaped reference by then. -/
theorem spliced_of_rewriteAttributes {text : TypeId} {i : Nat} {a : Attribute} {path : Text}
    (hsound : s.Sound) (hnames : s.catalog.Names "string" text)
    (htag : s.document.isBinderTag e "attribute" = false)
    (hfrom : s.document.find? e [] "from" = some (i, a))
    (hsplit : Segment.split a.value = [.reference path])
    (h : (rewriteAttributes e).runOn s = (.ok (), s')) :
    ∃ r n k package, r.element = e ∧ r.path = Text.trim path ∧ r.types = [some text] ∧
      s'.document.peek e "from" = some (Marker.text k) ∧ s'.Spliced r n k package := by
  obtain ⟨s₁, hrun, -, r, n, k, package, helement, hpath, htypes, hliteral, hspliced⟩ :=
    replaced_of_rewriteAttributes hsound htag hfrom hsplit h
  rw [show s₁.catalog.find? [] "string" = some text from (hrun.reaches.names hnames).lookup]
    at htypes
  refine ⟨r, n, k, package, helement, hpath, htypes, ?_, hspliced⟩
  unfold Document.peek
  rw [hliteral]
  rfl

/-- Whatever shows a value in markup shows what was escaped before: text is escaped a second time,
and safe markup must be text and is escaped at all. -/
theorem values_in_markup_are_rewritten {t : Template} {ms : List Manifest} {settings : Settings}
    {supply : Nat → Nat} {document : Document} {s s' : Session} {e i : Nat} {a : Attribute}
    {path : Text} {build : Builder} {slot : Nat → Work Session Html} {attached stamped : Bool}
    {panel : Option FieldId} {html : Html} (hsupply : Function.Injective supply)
    (hstart : Reaches
      (t.start (ms.foldl Catalog.loading Catalog.bare) settings supply document) s)
    (hfrom : s.document.find? e [] "from" = some (i, a))
    (hsplit : Segment.split a.value = [.reference path])
    (h : (renderElement build (.markup attached panel stamped) slot e).runOn s = (.ok html, s')) :
    ∃ text, s.catalog.find? [] "string" = some text ∧
      (s.document.isBinderTag e "text" = true →
        ∃ m r package, html = .raw m ∧ ShowsEscaped s' e path text m escapeCall r package) ∧
      (s.document.isBinderTag e "safehtml" = true → ∀ type,
        (ms.foldl Catalog.loading Catalog.bare).find? Library.safehtmlPackage "SafeHtml" =
          some type →
        ∃ m r package maker, html = .raw m ∧ Text.ofString "FromTrustedString" <:+ maker ∧
          ShowsEscaped s' e path text m (fun _ => trustCall maker) r package) := by
  have hsound := hstart.sound (Template.sound_start t _ settings hsupply document)
  have hparsers : s.parsers = Attribute.Parsers.of (ms.foldl Catalog.loading Catalog.bare) :=
    hstart.parsers
  obtain ⟨text, hstring⟩ := Catalog.names_string ms
  have hnames : s.catalog.Names "string" text := hstart.names hstring
  have hbinder : ∀ {base}, s.document.isBinderTag e base = true → s.document.isBinder e = true := by
    intro base htag
    unfold Document.isBinderTag at htag
    simp only [Bool.and_eq_true] at htag
    exact htag.1.2
  refine ⟨text, hnames.lookup, fun htag => ?_, fun htag type htype => ?_⟩
  · have hother := Document.isBinderTag_ne htag (show Text.ofString "text" ≠ "attribute" by decide)
    have hmsg := Document.isBinderTag_ne htag (show Text.ofString "text" ≠ "msg" by decide)
    obtain ⟨m, s₁, rfl, hrewrite, hvalue⟩ :=
      renderElement_value (hbinder htag) hmsg (if_pos htag) h
    have hrun₁ : Run s s₁ := run_ok hrewrite
    have hrun' : Run s₁ s' := run_ok hvalue
    have hsound₁ := hrun₁.reaches.sound hsound
    have hsound' := hrun'.reaches.sound hsound₁
    obtain ⟨r, n, k, package, helement, hpath, htypes, hpeek, hspliced⟩ :=
      spliced_of_rewriteAttributes hsound hnames hother hfrom hsplit hrewrite
    obtain ⟨k', package', rfl, hsplices, hpackage⟩ := textValue_ok hsound₁
      (hrun₁.reaches.names hnames) (hrun₁.reaches.parsers.trans hparsers) hpeek hvalue
    -- the package had its name already
    obtain rfl := hpackage package hspliced.package
    have hspliced' := hspliced.reaches hsound₁ hrun'.reaches
    refine ⟨_, r, package, rfl, ?_⟩
    exact showsEscaped_of_splices hsound' helement hpath htypes hspliced' hsplices fun m arg w =>
      Markers.expands_escapeCall (hsound'.imports.known hspliced'.package) arg w
  · have hother := Document.isBinderTag_ne htag (show Text.ofString "safehtml" ≠ "attribute" by decide)
    have hmsg := Document.isBinderTag_ne htag (show Text.ofString "safehtml" ≠ "msg" by decide)
    have htext := Document.isBinderTag_ne htag (show Text.ofString "safehtml" ≠ "text" by decide)
    obtain ⟨m, s₁, rfl, hrewrite, hvalue⟩ :=
      renderElement_value (hbinder htag) hmsg (by rw [htext, htag]; rfl) h
    have hrun₁ : Run s s₁ := run_ok hrewrite
    have hrun' : Run s₁ s' := run_ok hvalue
    have hsound₁ := hrun₁.reaches.sound hsound
    obtain ⟨r, n, k, package, helement, hpath, htypes, hpeek, hspliced⟩ :=
      spliced_of_rewriteAttributes hsound hnames hother hfrom hsplit hrewrite
    have hloaded := Catalog.loaded_loadings ms
    have htrusted : s.catalog.Names (Library.safehtml "SafeHtml") type :=
      hstart.names (hloaded.names htype)
    obtain ⟨k', maker, rfl, hmaker, hsuffix, hsplices⟩ := markupValue_ok hsound₁ hloaded htype
      (hrun₁.reaches.names htrusted) (hrun₁.reaches.parsers.trans hparsers) hpeek hvalue
    refine ⟨_, r, package, maker, rfl, hsuffix, ?_⟩
    exact showsEscaped_of_splices (hrun'.reaches.sound hsound₁) helement hpath htypes
      (hspliced.reaches hsound₁ hrun'.reaches) hsplices fun m arg w =>
      Markers.expands_call hmaker (by decide) arg w

end Content

/-! ## A note in a panel -/

namespace Template

/-- A library with notes, which have safe markup too. -/
def noteManifests : List Manifest :=
  sampleManifests ++
    [{ package := Library.safehtmlPackage, types := [{ name := "SafeHtml", kind := "interface" }] },
     { package := Library.uiPackage,
       types := [{ name := "Note", kind := "class",
                   methods := [{ name := "Text", returns := "string" },
                     { name := "Html", returns := Library.safehtml "SafeHtml" }],
                   constructors := [{ name := "NewNote" }] }] }]

/-- The catalog of that library. -/
def noteCatalog : Catalog := noteManifests.foldl Catalog.loading Catalog.bare

/-- A panel shows a value of a note. -/
def showing (tag path : Text) : Template :=
  { source := "<ui:UiBinder xmlns:ui=\"urn:ui:uibind\" xmlns:g=\"urn:import:uibind.dev/ui\">" ++
      "<ui:with field=\"s\" type=\"uibind.dev/ui.Note\"/><g:HTMLPanel><ui:" ++ tag ++
      " from=\"\x7b" ++ path ++ "\x7d\"/></g:HTMLPanel></ui:UiBinder>",
    url := "View.ui.xml" }

theorem showing_renders : ∃ document i a s html,
    Document.load (showing "text" "s.text").source (showing "text" "s.text").url = .ok document ∧
      document.isBinderTag 3 "text" = true ∧ document.find? 3 [] "from" = some (i, a) ∧
      Segment.split a.value = [.reference "s.text"] ∧
      (Content.renderElement (fun _ => throw .crash) (.markup false none false)
        (fun _ => throw .crash) 3).runOn ((showing "text" "s.text").start noteCatalog sampleSettings
          (· + 1) document) = (.ok html, s) := by
  have h : (showing "text" "s.text").succeeds
      (fun document => (Content.renderElement (fun _ => throw .crash) (.markup false none false)
        (fun _ => throw .crash) 3).runOn
          ((showing "text" "s.text").start noteCatalog sampleSettings (· + 1) document))
      (fun document _ _ => document.isBinderTag 3 "text" &&
        (document.find? 3 [] "from").any fun found =>
          Segment.split found.2.value == [.reference "s.text"]) = true := by
    decide +kernel
  obtain ⟨document, html, s, hload, hrender, htest⟩ := exists_of_succeeds h
  rw [Bool.and_eq_true, Option.any_eq_true] at htest
  obtain ⟨htag, ⟨i, a⟩, hfound, hsplit⟩ := htest
  exact ⟨document, i, a, s, html, hload, htag, hfound, eq_of_beq hsplit, hrender⟩

/-- The text of a note is escaped once more than a panel has to. -/
theorem showing_shows_escaped : ∃ document s html text m r package,
    Function.Injective (· + 1 : Nat → Nat) ∧ document.isBinderTag 3 "text" = true ∧
      (Content.renderElement (fun _ => throw .crash) (.markup false none false)
        (fun _ => throw .crash) 3).runOn ((showing "text" "s.text").start noteCatalog sampleSettings
          (· + 1) document) = (.ok html, s) ∧
      html = .raw m ∧
      Content.ShowsEscaped s 3 (Text.ofString "s.text") text m Content.escapeCall r package := by
  obtain ⟨document, i, a, s, html, -, htag, hfrom, hsplit, hrender⟩ := showing_renders
  have hsupply : Function.Injective (· + 1 : Nat → Nat) := fun _ _ h => Nat.succ.inj h
  obtain ⟨text, -, htext, -⟩ := Content.values_in_markup_are_rewritten hsupply
    (Reaches.refl ((showing "text" "s.text").start noteCatalog sampleSettings (· + 1) document))
    hfrom hsplit hrender
  obtain ⟨m, r, package, hraw, hshows⟩ := htext htag
  exact ⟨document, s, html, text, m, r, package, hsupply, htag, hrender, hraw, hshows⟩

/-- Text is escaped twice, and safe markup is refused, or is escaped if it is text. -/
theorem markup_escapes_what_is_escaped :
    wovenField (showing "text" "s.text") noteCatalog "f_HTMLPanel1" =
        some (Text.ofString "ui.NewHTMLPanel(\"\" + safehtml.HTMLEscape(\"\" + " ++
          "safehtml.HTMLEscape(s.Text()) + \"\") + \"\")", []) ∧
      wovenField (showing "safehtml" "s.html") noteCatalog "f_HTMLPanel1" = none ∧
      wovenField (showing "safehtml" "s.text") noteCatalog "f_HTMLPanel1" =
        some (Text.ofString "ui.NewHTMLPanel(\"\" + safehtml.FromTrustedString(\"\" + " ++
          "safehtml.HTMLEscape(s.Text()) + \"\").String() + \"\")", []) := by
  decide +kernel

end Template

end ViewBinder
