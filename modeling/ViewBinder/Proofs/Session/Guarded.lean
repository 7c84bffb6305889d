-- Guarded sessions. A session is guarded if its draft is and if whatever it reads attributes and makes
-- fields by has types. The pieces that elements and content are put together from keep it guarded
-- and do not crash.
import ViewBinder.Proofs.Attribute.Parser
import ViewBinder.Proofs.Draft.Guarded
import ViewBinder.Session

namespace ViewBinder

open Markup (Document)
open Work (Safe SafeAt)

/-! ## Attributes -/

/-- Whatever the parser expects references to be, it is there. -/
def AttributeParser.Typed : AttributeParser → Prop
  | .strict types => AllGiven types
  | .boolean type => Given type
  | .numeric _ => True
  | .boxed value _ => value.Typed
  | .string type => Given type
  | .intPair value => value.Typed
  | .enumeration _ => True
  | .constant _ _ => True
  | .length number _ => number.Typed
  | .safeHtml text _ => text.Typed
  | .safeUri text _ => text.Typed

namespace Attribute

variable {c : Catalog}

/-! ## Parsers of a catalog -/

/-- All parsers of a table refer to types that are there. -/
def Parsers.Typed (ps : Parsers) : Prop := ∀ entry ∈ ps, entry.2.Typed

theorem typed_of (hc : c.Ready) : (Parsers.of c).Typed := by
  have htext : AttributeParser.Typed (.string (c.find? [] "string")) :=
    ⟨hc.primitives "string" (by decide)⟩
  have hbool : AttributeParser.Typed (.boolean (c.find? [] "bool")) :=
    ⟨hc.primitives "bool" (by decide)⟩
  exact forall_mem_of hbool htext (fun _ _ _ _ _ _ => ⟨trivial, trivial⟩) (fun _ _ => hbool)
    (fun _ _ => trivial) (fun _ _ _ _ => trivial) (fun _ _ _ _ => trivial) (fun _ _ => htext)
    (fun _ _ => htext)

theorem typed_get {ps : Parsers} (hps : ps.Typed) {types : List (Option TypeId)}
    (htypes : AllGiven types) : (ps.get c types).Typed := by
  unfold Parsers.get
  split
  · rename_i parser hlookup
    obtain ⟨before, after, hentries, -⟩ := List.lookup_eq_some_iff.mp hlookup
    exact hps (_, parser) (hentries ▸ List.mem_append_right _ List.mem_cons_self)
  · split
    · split
      · trivial
      · exact htypes
    · exact htypes

/-! ## Reading -/

variable {D : Document} {B : Draft → Prop} {α : Type}

instance (e : Nat) (value : Text) (types : List (Option TypeId)) :
    Safe (Draft.Guarded D c) B (failParse e value types : Work Draft α) := by
  unfold failParse
  infer_instance

instance (e : Nat) (type : Option TypeId) :
    Safe (Draft.Guarded D c) B (failEmpty e type : Work Draft α) := by
  unfold failEmpty
  infer_instance

instance (e : Nat) (value : Text) (types : List (Option TypeId)) [AllGiven types]
    (literal : Text → Text) (reference : Text → Work Draft Text) (glue : Text)
    [∀ t, Safe (Draft.Guarded D c) B (reference t)] :
    Safe (Draft.Guarded D c) B (convert e value types literal reference glue) := by
  unfold convert
  refine Safe.bind' (Safe.mapMMem fun segment _ => ?_) fun _ => inferInstance
  split <;> infer_instance

instance (e : Nat) (value : Text) (wrap : Text → Text) (types : List (Option TypeId))
    [AllGiven types] : Safe (Draft.Guarded D c) B (singleReference e value wrap types) := by
  unfold singleReference
  infer_instance

theorem safe_parse {parser : AttributeParser} (h : parser.Typed) (e : Nat) (value : Text) :
    Safe (Draft.Guarded D c) B (parse parser e value) := by
  induction parser generalizing value with
  | strict types | boolean type | string type =>
    have := h
    unfold AttributeParser.Typed at this
    unfold parse
    infer_instance
  | numeric type | enumeration type | constant type names =>
    unfold parse
    refine Safe.bind' inferInstance fun d => ?_
    dsimp only
    repeat' (first | infer_instance | split)
  | boxed inner _ ih | intPair inner ih | length inner _ ih | safeHtml inner _ ih
  | safeUri inner _ ih =>
    have := ih h
    unfold parse
    refine Safe.bind' inferInstance fun d => ?_
    dsimp only
    repeat' (first | infer_instance | split)

variable {ps : Parsers} (types : List (Option TypeId)) [htypes : AllGiven types]

theorem safe_take? (hps : ps.Typed) (e : Nat) (name : Text) :
    Safe (Draft.Guarded D c) B (take? ps e name types) := by
  have hparse := fun (d : Draft) value =>
    safe_parse (D := D) (c := c) (B := B) (typed_get (c := d.catalog) hps htypes) e value
  unfold take?
  refine Safe.bind' inferInstance fun found => ?_
  split <;> infer_instance

theorem safe_takeDefault (hps : ps.Typed) (e : Nat) (name otherwise : Text) :
    Safe (Draft.Guarded D c) B (takeDefault ps e name otherwise types) := by
  have := safe_take? (D := D) (c := c) (B := B) types hps e name
  unfold takeDefault
  infer_instance

theorem safe_takeRequired (hps : ps.Typed) (e : Nat) (name : Text) :
    Safe (Draft.Guarded D c) B (takeRequired ps e name types) := by
  have hparse := fun (c' : Catalog) value =>
    safe_parse (D := D) (c := c) (B := B) (typed_get (c := c') hps htypes) e value
  unfold takeRequired
  infer_instance

end Attribute

/-! ## Types that are asked for -/

/-- Work on a template asks for the type by its key, and does not expect it to be missing. -/
class Expected (key : Text) : Prop where
  expected : key ∈ primitiveNames ∨ key ∈ Catalog.attributeTypes

theorem Catalog.Ready.found {c : Catalog} (hc : c.Ready) (key : Text) [h : Expected key] :
    ∃ t, c.lookup? key = some t :=
  Option.isSome_iff_exists.mp (h.expected.elim (hc.primitives key) (hc.attributes key))

instance : Expected (keyOf [] "string") := ⟨by decide⟩

instance : Expected (keyOf [] "bool") := ⟨by decide⟩

instance : Expected (keyOf [] "int") := ⟨by decide⟩

instance : Expected (keyOf [] "float64") := ⟨by decide⟩

instance : Expected (keyOf Library.uiPackage "Unit") := ⟨by decide⟩

instance : Expected (keyOf Library.uiPackage "HorizontalAlignmentConstant") := ⟨by decide⟩

instance : Expected (keyOf Library.uiPackage "VerticalAlignmentConstant") := ⟨by decide⟩

instance : Expected (keyOf Library.resourcesPackage "ImageResource") := ⟨by decide⟩

namespace Session

/-- The draft is guarded, and parsers and the owner refer to types that are there. -/
structure Guarded (D : Document) (c : Catalog) (s : Session) : Prop where
  draft : s.toDraft.Guarded D c
  parsers : s.parsers.Typed
  owner : ∀ traits ∈ s.ownerTraits, traits.Typed

variable {D : Document} {c : Catalog} {B : Session → Prop} {α β : Type}

/-! ## Work on parts -/

instance {w : Work Draft α} [h : Safe (Draft.Guarded D c) (fun _ => False) w] :
    Safe (Guarded D c) B (liftM w : Work Session α) where
  safe s hs := ⟨{ hs with draft := (h.safe s.toDraft hs.draft).1 },
    fun hcrash => ((h.safe s.toDraft hs.draft).2 hcrash).elim⟩

instance {w : Work Document α} [h : Safe D.SameTree (fun _ => False) w] :
    Safe (Guarded D c) B (liftM w : Work Session α) :=
  inferInstanceAs (Safe (Guarded D c) B (liftM (liftM w : Work Draft α) : Work Session α))

instance (source : Text) (place : Option Location) (value : Text) :
    Safe (Guarded D c) B (liftM (Markers.allocate source place value) : Work Session Text) :=
  inferInstanceAs (Safe (Guarded D c) B
    (liftM (liftM (Markers.allocate source place value) : Work Draft Text) : Work Session Text))

/-- What follows a step gets what the step gives. -/
theorem safe_orFailAt {place : Option Location} {step : Except Problem α} {k : α → Work Session β}
    (hk : ∀ a, step = .ok a → Safe (Guarded D c) B (k a)) :
    Safe (Guarded D c) B ((liftM (Draft.orFailAt place step) : Work Session α) >>= k) := by
  cases step with
  | error p => exact ⟨fun s hs => ⟨hs, fun h => by cases h⟩⟩
  | ok a => exact ⟨fun s hs => (hk a rfl).safe s hs⟩

/-- Parts of a session that nothing here depends on. -/
theorem Guarded.withOthers {s : Session} (h : Guarded D c s) (sections : Sections)
    (trailing : List Text) (ids : Nat) (splices : List (Text × Text)) :
    Guarded D c { s with sections, trailing, ids, splices } := { h with }

theorem Guarded.withDocument {s : Session} (h : Guarded D c s) {document : Document}
    (hdocument : s.document.SameTree document) : Guarded D c { s with document } :=
  { h with draft := { h.draft with document := h.draft.document.trans hdocument } }

theorem Guarded.withFields {s : Session} (h : Guarded D c s) {fields : FieldTable}
    (hfields : fields.Typed) : Guarded D c { s with fields } :=
  { h with draft := h.draft.withFields hfields }

instance (e : Nat) (p : Document → Problem) : Safe (Guarded D c) B (failOn e p : Work Session α) := by
  unfold failOn
  infer_instance

instance : Safe (Guarded D c) B getDocument := by
  unfold getDocument
  infer_instance

/-! ## Types -/

instance : Safe (Guarded D c) B getCatalog := by
  unfold getCatalog
  infer_instance

/-- The catalog that is read leaves nothing open. -/
theorem safe_getCatalog {k : Catalog → Work Session α}
    (hk : ∀ c', c'.Ready → Safe (Guarded D c) B (k c')) :
    Safe (Guarded D c) B (getCatalog >>= k) := by
  refine Safe.after inferInstance (fun {s c' s'} hs hrun => ?_) hk
  cases hrun
  exact hs.draft.catalog

/-- The catalog that is read is the one that counts from then on. -/
theorem safe_fromCatalog {k : Catalog → Work Session α}
    (hk : ∀ c', c'.Ready → c.Retains c' → Safe (Guarded D c') B (k c')) :
    Safe (Guarded D c) B (getCatalog >>= k) where
  safe s hs := by
    have hrest : SafeAt (Guarded D s.catalog) B (k s.catalog) s :=
      (hk s.catalog hs.draft.catalog hs.draft.retains).safe s { hs with draft := hs.draft.from }
    exact ⟨{ hrest.1 with draft := hrest.1.draft.since hs.draft.retains }, hrest.2⟩

/-- A type that is expected is there. -/
theorem safe_found {package name : Text} [Expected (keyOf package name)]
    {k : Option TypeId → Work Session α} (hk : ∀ t : TypeId, Safe (Guarded D c) B (k (some t))) :
    Safe (Guarded D c) B ((do return (← getCatalog).find? package name) >>= k) := by
  refine Safe.after (Q := fun type => ∃ t, type = some t) inferInstance ?_ ?_
  · intro s type s' hs hrun
    cases hrun
    exact hs.draft.catalog.found _
  · rintro _ ⟨t, rfl⟩
    exact hk t

instance (name : Text) : Safe (Guarded D c) B (primitive name) := by
  unfold primitive
  infer_instance

instance (priority := high) (name : Text) [Expected (keyOf [] name)]
    {k : Option TypeId → Work Session α} [hk : ∀ t : TypeId, Safe (Guarded D c) B (k (some t))] :
    Safe (Guarded D c) B (primitive name >>= k) := safe_found hk

instance (name : Text) : Safe (Guarded D c) B (uiType name) := by
  unfold uiType
  infer_instance

instance (priority := high) (name : Text) [Expected (keyOf Library.uiPackage name)]
    {k : Option TypeId → Work Session α} [hk : ∀ t : TypeId, Safe (Guarded D c) B (k (some t))] :
    Safe (Guarded D c) B (uiType name >>= k) := safe_found hk

instance (name : Text) : Safe (Guarded D c) B (resourceType? name) := by
  unfold resourceType?
  infer_instance

instance (priority := high) (name : Text) [Expected (keyOf Library.resourcesPackage name)]
    {k : Option TypeId → Work Session α} [hk : ∀ t : TypeId, Safe (Guarded D c) B (k (some t))] :
    Safe (Guarded D c) B (resourceType? name >>= k) := safe_found hk

instance : Safe (Guarded D c) B safeHtmlType := by
  unfold safeHtmlType
  infer_instance

instance (name : Text) : Safe (Guarded D c) B (uiFunction name) := by
  unfold uiFunction
  infer_instance

instance (name : Text) : Safe (Guarded D c) B (safeHtmlFunction name) := by
  unfold safeHtmlFunction
  infer_instance

instance (e : Nat) (type : TypeId) (params : List (Option TypeId)) :
    Safe (Guarded D c) B (Session.constructor e type params) := by
  unfold Session.constructor
  refine Safe.bind' inferInstance fun c' => ?_
  split <;> infer_instance

/-! ## Fields -/

instance (f : FieldId) : Safe (Guarded D c) B (nameOf f) := by
  unfold nameOf
  infer_instance

instance (f : FieldId) : Safe (Guarded D c) B (isMade f) := by
  unfold isMade
  infer_instance

instance (f : FieldId) (method : Text) (args : List Text) :
    Safe (Guarded D c) B (call f method args) := by
  unfold call
  infer_instance

instance (type : Option TypeId) [Given type] (name initializer : Text) :
    Safe (Guarded D c) B (bundleField type name initializer) := by
  unfold bundleField
  infer_instance

instance : Safe (Guarded D c) B resourceBundle := by
  unfold resourceBundle
  refine Safe.read fun s hs => ?_
  obtain ⟨t, -, htype, -⟩ := hs.draft.bundle
  have : Given s.bundle.type := ⟨by rw [htype]; rfl⟩
  infer_instance

instance (place : Option Location) (m : Message) :
    Safe (Guarded D c) B (declareMessage place m) := by
  unfold declareMessage
  refine Safe.bind' inferInstance fun method => Safe.read fun s hs => ?_
  obtain ⟨t, -, htype, -⟩ := hs.draft.messages
  have : Given s.messages.type := ⟨by rw [htype]; rfl⟩
  infer_instance

instance : Safe (Guarded D c) B declareId := by
  unfold declareId
  refine Safe.bind' (Safe.modify fun s hs => hs.withOthers _ _ _ _) fun _ => ?_
  infer_instance

instance (type : Option TypeId) (holder : Text) :
    Safe (Guarded D c) B (elementById type holder) := by
  unfold elementById
  refine Safe.bind' inferInstance fun function => ?_
  split <;> infer_instance

/-! ## Sections and splices -/

theorem safe_attached (expr : Text) {w : Work Session α}
    (hbad : ∀ s, B s → B { s with sections := s.sections.leave }) (h : Safe (Guarded D c) B w) :
    Safe (Guarded D c) B (attached expr w) := by
  unfold attached
  refine Safe.bind' (Safe.modify fun s hs => hs.withOthers _ _ _ _) fun _ => ?_
  exact h.andThenAlways (fun s hs => hs.withOthers _ _ _ _) hbad

instance (statement : Text) : Safe (Guarded D c) B (addAttached statement) :=
  Safe.modify fun _ hs => hs.withOthers _ _ _ _

instance (statement : Text) : Safe (Guarded D c) B (addDetached statement) :=
  Safe.modify fun _ hs => hs.withOthers _ _ _ _

instance (e : Nat) (expr : Text) : Safe (Guarded D c) B (splice e expr) := by
  unfold splice
  refine Safe.bind' inferInstance fun d => Safe.bind' inferInstance fun marker => ?_
  exact Safe.bind' (Safe.modify fun s hs => hs.withOthers _ _ _ _) fun _ => inferInstance

instance (content : Text) : Safe (Guarded D c) B (spliced content) := by
  unfold spliced
  infer_instance

theorem safe_withSplices {w : Work Session α}
    (hbad : ∀ s splices, B s → B { s with splices }) (h : Safe (Guarded D c) B w) :
    Safe (Guarded D c) B (withSplices w) := by
  unfold withSplices
  refine Safe.bind' inferInstance fun s => ?_
  refine Safe.bind' (Safe.modify fun s hs => hs.withOthers _ _ _ _) fun _ => ?_
  exact h.andThenAlways (fun s hs => hs.withOthers _ _ _ _) fun _ => hbad _ _

/-! ## Attributes -/

variable {types : List (Option TypeId)} [htypes : AllGiven types]

instance (e : Nat) (name : Text) : Safe (Guarded D c) B (take? e name types) := by
  unfold take?
  refine Safe.read fun s hs => ?_
  have := Attribute.safe_take? (D := D) (c := c) (B := fun _ => False) types hs.parsers e name
  infer_instance

instance (e : Nat) (name otherwise : Text) :
    Safe (Guarded D c) B (takeDefault e name otherwise types) := by
  unfold takeDefault
  refine Safe.read fun s hs => ?_
  have := Attribute.safe_takeDefault (D := D) (c := c) (B := fun _ => False) types
    hs.parsers e name otherwise
  infer_instance

instance (e : Nat) (name : Text) : Safe (Guarded D c) B (takeRequired e name types) := by
  unfold takeRequired
  refine Safe.read fun s hs => ?_
  have := Attribute.safe_takeRequired (D := D) (c := c) (B := fun _ => False) types
    hs.parsers e name
  infer_instance

instance (e : Nat) (value : Text) : Safe (Guarded D c) B (readValue e value types) := by
  unfold readValue
  refine Safe.read fun s hs => ?_
  have htyped := Attribute.typed_get (c := s.catalog) hs.parsers htypes
  have := Attribute.safe_parse (D := D) (c := c) (B := fun _ => False) htyped e value
  infer_instance

end Session

end ViewBinder
