-- References have the types they are used at. A table of parsers is searched by the key of the
-- type, so in a regular catalog it is the parser made for the type; but the key of a pair of types is
-- a text like any other, and a type that has it for its own key is read by the parser of the pair. A
-- parser records a reference and may convert what it stands for; settling the references fits that to
-- the type that was recorded. Both together write an expression of the type that was asked for,
-- however the type is read.
import ViewBinder.Proofs.Attribute.Single
import ViewBinder.Proofs.Catalog.Regular
import ViewBinder.Proofs.Field.Typing
import ViewBinder.Proofs.Marker.Weave
import ViewBinder.Proofs.Session.Marked

namespace ViewBinder.Attribute

open Draft (settleReferences)
open ViewBinder.Expr (HasType Converts)

/-- The key under which lengths are read: a number and a unit. -/
def lengthKey : Text := "float64," ++ Library.ui "Unit"

/-! ## Entries -/

/-- What stands in a table of parsers under a key: the parser of the type that has the key, or a
parser of pairs. -/
inductive Parsers.Entry (c : Catalog) : Text × AttributeParser → Prop
  | number {name : Text} {t : TypeId} : name ∈ numericNames → c.lookup? name = some t →
      Entry c (name, .numeric t)
  | other {key : Text} {parser : AttributeParser} {t : TypeId} : ','.toUInt8 ∉ key →
      key ∉ numericNames → c.lookup? key = some t → parser.wanted = [some t] → parser.Plain →
      parser.converts = false → Entry c (key, parser)
  | ints {int : TypeId} : Entry c ("int,int", .intPair (.numeric int))
  | length {float unit : TypeId} : c.lookup? "float64" = some float →
      c.lookup? (Library.ui "Unit") = some unit →
      Entry c (lengthKey, .length (.numeric float) unit)

variable {c C : Catalog} {t : TypeId}

theorem typesKey_length (hc : c.Regular) {float unit : TypeId}
    (hfloat : c.lookup? "float64" = some float)
    (hunit : c.lookup? (Library.ui "Unit") = some unit) :
    typesKey c [some float, some unit] = lengthKey := by
  have hfirst : c.key (some float) = "float64" := (hc.known hfloat).2
  have hsecond : c.key (some unit) = Library.ui "Unit" := (hc.known hunit).2
  unfold typesKey
  rw [List.map_cons, List.map_singleton, hfirst, hsecond]
  rfl

/-- In the parsers of a regular catalog there is nothing else. -/
theorem entry_of (hc : c.Regular) : ∀ entry ∈ Parsers.of c, Parsers.Entry c entry := by
  obtain ⟨bool, hbool⟩ := Option.isSome_iff_exists.mp (hc.basic "bool" (by decide)).1
  obtain ⟨text, htext⟩ := Option.isSome_iff_exists.mp (hc.basic "string" (by decide)).1
  have hnumbers : ∀ name ∈ numericNames, ','.toUInt8 ∉ "*" ++ name ∧
      "*" ++ name ∉ numericNames := by
    decide
  have htables : ∀ table ∈ constantTables, ','.toUInt8 ∉ table.1 ∧ table.1 ∉ numericNames ∧
      ∀ entry ∈ withShortNames table.2, entry.1.head? ≠ some Segment.openBrace := by
    decide
  apply forall_mem_of
  · exact .other (by decide) (by decide) hbool (congrArg (fun t => [t]) hbool) trivial rfl
  · exact .other (by decide) (by decide) htext (congrArg (fun t => [t]) htext) trivial rfl
  · intro name hname plain boxed hplain hboxed
    obtain ⟨hcomma, hother⟩ := hnumbers name hname
    exact ⟨.number hname hplain, .other hcomma hother hboxed rfl trivial rfl⟩
  · exact fun t ht => .other (by decide) (by decide) ht rfl trivial rfl
  · exact fun int _ => .ints
  · intro float unit hfloat hunit
    rw [typesKey_length hc hfloat hunit]
    exact .length hfloat hunit
  · intro table htable t ht
    obtain ⟨hcomma, hother, hnames⟩ := htables table htable
    exact .other hcomma hother ht rfl hnames rfl
  · exact fun t ht => .other (by decide) (by decide) ht rfl trivial rfl
  · exact fun t ht => .other (by decide) (by decide) ht rfl trivial rfl

/-- Numbers have parsers, so have pairs of whole numbers, and lengths if there are units. -/
theorem exists_entry (hc : c.Regular) {key : Text} (h : key ∈ numericNames ∨ key = "int,int" ∨
      key = lengthKey ∧ (c.lookup? (Library.ui "Unit")).isSome) :
    ∃ parser, (key, parser) ∈ Parsers.of c := by
  unfold Parsers.of
  simp only [List.mem_append]
  rcases h with hname | rfl | ⟨rfl, hunit⟩
  · obtain ⟨hplain, hboxed⟩ := hc.basic key (List.mem_of_mem_drop hname)
    obtain ⟨plain, hplain⟩ := Option.isSome_iff_exists.mp hplain
    obtain ⟨boxed, hboxed⟩ := Option.isSome_iff_exists.mp hboxed
    have hmem : (key, .numeric plain) ∈ numericParsers c key := by
      have hplain : c.find? [] key = some plain := hplain
      have hboxed : c.find? [] ("*" ++ key) = some boxed := hboxed
      unfold numericParsers
      rw [hplain, hboxed]
      exact List.mem_cons_self
    have hall : (key, .numeric plain) ∈ numericNames.flatMap (numericParsers c) :=
      List.mem_flatMap.mpr ⟨key, hname, hmem⟩
    exact ⟨.numeric plain, by simp only [hall, or_true, true_or]⟩
  · obtain ⟨int, hint⟩ := Option.isSome_iff_exists.mp (hc.basic "int" (by decide)).1
    have hfound : c.find? [] "int" = some int := hint
    rw [hfound]
    exact ⟨.intPair (.numeric int), by simp⟩
  · obtain ⟨unit, hunit⟩ := Option.isSome_iff_exists.mp hunit
    obtain ⟨float, hfloat⟩ := Option.isSome_iff_exists.mp (hc.basic "float64" (by decide)).1
    have hmem : (lengthKey, .length (.numeric float) unit) ∈ lengthParser c := by
      have hfound : c.find? [] "float64" = some float := hfloat
      unfold lengthParser
      rw [hfound, hunit]
      dsimp only
      rw [typesKey_length hc hfloat hunit]
      exact List.mem_singleton_self _
    exact ⟨.length (.numeric float) unit, by simp only [hmem, or_true, true_or]⟩

/-! ## The parser of one type -/

/-- The type has the key under which lengths are read. -/
def IsTakenForLength (c C : Catalog) (t : TypeId) : Prop :=
  C.key (some t) = lengthKey ∧ (c.lookup? (Library.ui "Unit")).isSome

/-- The parser reads values of the type, and it converts what is to be a number. -/
structure ReadsType (C : Catalog) (t : TypeId) (parser : AttributeParser) : Prop where
  wanted : parser.wanted = [some t]
  plain : parser.Plain
  converts : C.isNumeric (some t) = true → parser.converts = true

theorem ReadsType.one {parser : AttributeParser} (h : ReadsType C t parser) :
    parser.readsPair = false := by
  have hwanted := h.wanted
  cases parser <;> first | rfl | cases hwanted

/-- How values of a type are read: by a parser that reads just that, or, if lengths have the key of
the type, by the parser of lengths. -/
inductive ReadBy (c C : Catalog) (t : TypeId) : AttributeParser → Prop
  | own {parser : AttributeParser} : ¬ IsTakenForLength c C t → ReadsType C t parser →
      ReadBy c C t parser
  | ints {int : TypeId} : ReadBy c C t (.intPair (.numeric int))
  | length {float unit : TypeId} : IsTakenForLength c C t → c.lookup? "float64" = some float →
      c.lookup? (Library.ui "Unit") = some unit → ReadBy c C t (.length (.numeric float) unit)

/-- What stands under the key of a type reads it. -/
theorem Parsers.Entry.readBy (hC : C.Regular) (hknown : c.KnownIn C) (ht : t < C.types.size)
    {parser : AttributeParser} (hentry : Parsers.Entry c ((C.decl t).key, parser)) :
    ReadBy c C t parser := by
  have hsame : ∀ s, c.lookup? (C.decl t).key = some s → s = t := by
    intro s hs
    obtain ⟨hin, hkey⟩ := hknown _ _ hs
    exact hC.unique s hin t ht hkey
  have hcomma : ','.toUInt8 ∈ lengthKey := by decide
  have hnumber : lengthKey ∉ numericNames := by decide
  generalize hk : (C.decl t).key = key at hentry hsame
  cases hentry with
  | number hname hfound =>
    have hlone : ¬ IsTakenForLength c C t := fun h => hnumber (h.1.symm.trans hk ▸ hname)
    obtain rfl := hsame _ hfound
    exact .own hlone ⟨rfl, trivial, fun _ => rfl⟩
  | other hlone hname hfound hwanted hplain hconverts =>
    have hlone : ¬ IsTakenForLength c C t := fun h => hlone (hk.symm.trans h.1 ▸ hcomma)
    obtain rfl := hsame _ hfound
    refine .own hlone ⟨hwanted, hplain, fun hnumber => ?_⟩
    exact absurd (hk ▸ hC.key_mem_numbers hnumber) hname
  | ints => exact .ints
  | length hfloat hunit => exact .length ⟨hk, hunit ▸ rfl⟩ hfloat hunit

/-- A type under whose key nothing stands is no number. -/
theorem readBy_unlisted (hc : c.Regular) (hC : C.Regular)
    (hnone : ∀ parser, ((C.decl t).key, parser) ∉ Parsers.of c) {parser : AttributeParser}
    (hwanted : parser.wanted = [some t]) (hplain : parser.Plain) : ReadBy c C t parser := by
  have hlone : ¬ IsTakenForLength c C t := fun h => by
    obtain ⟨parser, hmem⟩ := exists_entry hc (Or.inr (Or.inr h))
    exact hnone parser hmem
  refine .own hlone ⟨hwanted, hplain, fun hnumber => ?_⟩
  obtain ⟨parser, hmem⟩ := exists_entry hc (Or.inl (hC.key_mem_numbers hnumber))
  exact absurd hmem (hnone parser)

theorem get_one (hc : c.Regular) (hC : C.Regular) (hknown : c.KnownIn C)
    (ht : t < C.types.size) : ReadBy c C t ((Parsers.of c).get C [some t]) := by
  have hkey : typesKey C [some t] = (C.decl t).key := typesKey_one C (some t)
  unfold Parsers.get
  rw [hkey]
  cases hlookup : (Parsers.of c).lookup (C.decl t).key with
  | none =>
    have hnone : ∀ parser, ((C.decl t).key, parser) ∉ Parsers.of c := by
      intro parser hmem
      have hne := List.lookup_eq_none_iff.mp hlookup _ hmem
      simp at hne
    dsimp only
    split
    · exact readBy_unlisted hc hC hnone rfl trivial
    · exact readBy_unlisted hc hC hnone rfl trivial
  | some parser =>
    obtain ⟨before, after, hentries, -⟩ := List.lookup_eq_some_iff.mp hlookup
    have hmem : ((C.decl t).key, parser) ∈ Parsers.of c :=
      hentries ▸ List.mem_append_right _ List.mem_cons_self
    exact (entry_of hc _ hmem).readBy hC hknown ht

/-! ## One marker -/

variable {d d' : Draft} {e : Nat} {path : Text}

/-- The draft with one more reference. -/
def referred (d : Draft) (e : Nat) (path : Text) (types : List (Option TypeId)) : Draft :=
  ((Draft.refer e path types).runOn d).2

/-- What is recorded of a reference: its path, the types expected and the marker it got. -/
def recorded (d : Draft) (e : Nat) (path : Text) (types : List (Option TypeId)) : FieldReference :=
  ⟨e, Text.trim path, types, Marker.text (d.markers.supply d.markers.entries.length)⟩

theorem refer_ok {d₁ : Draft} {types : List (Option TypeId)} {marker : Text}
    (h : (Draft.refer e path types).runOn d = (.ok marker, d₁)) :
    marker = (recorded d e path types).marker ∧ d₁ = referred d e path types := by
  unfold referred
  rw [h]
  cases h
  exact ⟨rfl, rfl⟩

theorem sameScope_referred (types : List (Option TypeId)) :
    d.SameScope (referred d e path types) := Draft.sameScope_addReference d _ _

theorem mem_referred (types : List (Option TypeId)) :
    recorded d e path types ∈ (referred d e path types).fields.references := by
  show _ ∈ (d.fields.addReference _).references
  unfold FieldTable.addReference
  rw [FieldTable.references_depend]
  exact List.mem_append_right _ List.mem_cons_self

/-- The marker of a reference to one type, once it is settled, stands for an expression that
converts to the type; what was imported since does not matter. -/
theorem marker_expands (hd : d.catalog.Regular) (hmarked : d.Marked)
    (hsupply : Function.Injective d.markers.supply) (im : Imports)
    (hsettle : settleReferences.runOn { referred d e path [some t] with imports := im } =
      (.ok (), d')) :
    d'.markers.Fixed ∧ ∃ x type,
      HasType d ((Text.trim path).splitOn '.'.toUInt8) x type ∧ Converts d.catalog type t ∧
      ∀ w, d'.markers.Expands (recorded d e path [some t]).marker w ↔
        d'.markers.Expands (x.text d) w := by
  have hmarked₁ : (referred d e path [some t]).Marked :=
    (Draft.Step.refer e path [some t]).marked hmarked
  have hapart : Draft.Apart (referred d e path [some t]).fields.references :=
    hmarked₁.apart hsupply
  obtain ⟨hsettles, -, hresolved⟩ := Draft.settleReferences_ok
    (d := { referred d e path [some t] with imports := im }) hapart hsettle
  obtain ⟨n, id, text, adapted, hresolved⟩ := hresolved _ (mem_referred [some t])
  -- nothing that was imported since is looked at
  have halike : d'.Alike { d' with imports := d.imports } :=
    ⟨rfl, rfl, rfl, fun _ => rfl, fun _ => rfl, fun _ => rfl, fun _ => rfl, rfl⟩
  have hscope : d.SameScope { d' with imports := d.imports } :=
    (sameScope_referred [some t]).trans
      ⟨hsettles.catalog, rfl, hsettles.size, hsettles.name, hsettles.type⟩
  have hregular : d'.catalog.Regular := hscope.catalog ▸ hd
  obtain ⟨x, type, htype, rfl, hconverts⟩ := Draft.hasType_resolved
    (d := { d' with imports := d.imports }) hregular (hresolved.alike halike rfl) rfl
  rw [hscope.text] at hresolved
  obtain ⟨entry, hfind, hknown⟩ := hresolved.meaning
  rw [Marker.id?_text hresolved.marker] at hfind
  have hexpands := Markers.expands_meaning hfind hknown
  exact ⟨hsettles.fixed hmarked₁.fixed, x, type, hscope.hasType htype,
    hscope.catalog ▸ hconverts, hexpands⟩

/-- A conversion of a marker is expanded as the conversion of what the marker stands for. -/
theorem converted_expands {m : Markers} {marker value : Text}
    (h : ∀ w, m.Expands marker w ↔ m.Expands value w) (name rest w : Text) :
    m.Expands (name ++ "(" ++ marker ++ ")" ++ rest) w ↔
      m.Expands (name ++ "(" ++ value ++ ")" ++ rest) w := by
  have hreplace := Markers.expands_replace (a := '('.toUInt8) (b := ')'.toUInt8) (by decide)
    (by decide) h name rest w
  have hwritten : ∀ inner : Text, name ++ "(" ++ inner ++ ")" ++ rest =
      name ++ '('.toUInt8 :: (inner ++ ')'.toUInt8 :: rest) := by
    intro inner
    simp only [List.append_assoc]
    rfl
  rw [hwritten, hwritten]
  exact hreplace

/-! ## References of one type -/

/-- What is written for a reference by the parser of a type has a type that can be used there. -/
theorem written_hasType (hd : d.catalog.Regular) (hmarked : d.Marked)
    (hsupply : Function.Injective d.markers.supply) (hsmall : d'.markers.Small)
    {parser : AttributeParser} (hreads : ReadsType d.catalog t parser)
    (hsettle : settleReferences.runOn (referred d e path [some t]) = (.ok (), d')) :
    ∃ x type, HasType d ((Text.trim path).splitOn '.'.toUInt8) x type ∧
      d.catalog.isAssignable type (some t) = true ∧
      d'.markers.StandsFor (parser.written d.catalog (recorded d e path [some t]).marker)
        (x.text d) := by
  obtain ⟨hfixed, x, type, htype, hconverts, hexpands⟩ :=
    marker_expands hd hmarked hsupply (referred d e path [some t]).imports hsettle
  by_cases hcast : parser.converts = true
  · -- only numbers are converted, and to the type itself
    cases parser with
    | numeric number =>
      obtain rfl : number = t := Option.some.inj (List.cons.inj hreads.wanted).1
      refine ⟨.convert number x, some number, .convert htype hconverts,
        Draft.isAssignable_of_key rfl, Markers.standsFor_of_expands hfixed hsmall fun w => ?_⟩
      have hconverted := converted_expands hexpands (d.catalog.decl number).name [] w
      simp only [List.append_nil] at hconverted
      exact hconverted
    | _ => cases hcast
  · rw [Bool.not_eq_true] at hcast
    have hassignable : d.catalog.isAssignable type (some t) = true := by
      rcases hconverts with hassignable | ⟨hnumber, -⟩
      · exact hassignable
      · rw [hreads.converts hnumber] at hcast
        cases hcast
    rw [AttributeParser.written_eq hcast]
    exact ⟨x, type, htype, hassignable, Markers.standsFor_of_expands hfixed hsmall hexpands⟩

/-- Reads a value of one type and settles what it refers to. -/
def readSettled (ps : Parsers) (e : Nat) (value : Text) (t : TypeId) : Work Draft Text := do
  let expr ← parse (ps.get (← get).catalog [some t]) e value
  settleReferences
  return expr

/-- A value that is one reference, read as a value of a type in a regular catalog, becomes an
expression of a type that can be used there, unless the type has the key of lengths. Then it becomes
two expressions, a number and the unit of pixels. -/
theorem reference_has_type_unless_taken_for_length {c : Catalog} {value expr : Text}
    (hc : c.Regular) (hd : d.catalog.Regular) (hknown : c.KnownIn d.catalog)
    (ht : t < d.catalog.types.size) (hmarked : d.Marked)
    (hsupply : Function.Injective d.markers.supply) (hsmall : d'.markers.Small)
    (hvalue : Segment.split value = [.reference path])
    (h : (readSettled (Parsers.of c) e value t).runOn d = (.ok expr, d')) :
    (¬ IsTakenForLength c d.catalog t →
      ∃ x type, HasType d ((Text.trim path).splitOn '.'.toUInt8) x type ∧
        d.catalog.isAssignable type (some t) = true ∧ d'.markers.StandsFor expr (x.text d)) ∧
    (IsTakenForLength c d.catalog t →
      ∃ x float unit, c.lookup? "float64" = some float ∧
        c.lookup? (Library.ui "Unit") = some unit ∧
        HasType d ((Text.trim path).splitOn '.'.toUInt8) x (some float) ∧
        d'.markers.StandsFor expr
          (x.text d ++ ", " ++ (d.imports.qualify (d.catalog.decl unit) "UnitPX").1)) := by
  unfold readSettled at h
  obtain ⟨_, _, hget, h⟩ := Work.bind_ok h
  cases hget
  obtain ⟨parsed, d₁, hparse, h⟩ := Work.bind_ok h
  obtain ⟨_, d₂, hsettle, h⟩ := Work.bind_ok h
  cases h
  have hread := get_one hc hd hknown ht
  generalize (Parsers.of c).get d.catalog [some t] = parser at hread hparse
  cases hread with
  | ints => exact absurd hparse (parse_intPair_ne_ok hvalue)
  | @length float unit hlength hfloat hunit =>
    refine ⟨fun hlone => absurd hlength hlone, fun _ => ?_⟩
    obtain ⟨marker, d₃, pixels, hrefer, hpixels, rfl⟩ := parse_length_ok hvalue hparse
    obtain ⟨rfl, rfl⟩ := refer_ok hrefer
    cases hpixels
    obtain ⟨hfixed, x, type, htype, hconverts, hexpands⟩ :=
      marker_expands hd hmarked hsupply _ hsettle
    refine ⟨.convert float x, float, unit, hfloat, hunit, .convert htype hconverts,
      Markers.standsFor_of_expands hfixed hsmall fun w => ?_⟩
    have hconverted := converted_expands hexpands (d.catalog.decl float).name
      (", " ++ (d.imports.qualify (d.catalog.decl unit) "UnitPX").1) w
    simp only [← List.append_assoc] at hconverted
    exact hconverted
  | own hlone hreads =>
    refine ⟨fun _ => ?_, fun hlength => absurd hlength hlone⟩
    rcases parse_ok hvalue hreads.one hreads.plain hparse with
      ⟨s, k, hparser, hk, -, hconstant⟩ | ⟨marker, hrefer, rfl⟩
    · have hwanted := hreads.wanted
      rw [hparser] at hwanted
      obtain rfl : s = t := Option.some.inj (List.cons.inj hwanted).1
      cases hconstant
      exact ⟨.constant s k, some s, .constant hk, Draft.isAssignable_of_key rfl,
        Markers.standsFor_self hsmall _⟩
    · rw [hreads.wanted] at hrefer
      obtain ⟨rfl, rfl⟩ := refer_ok hrefer
      exact written_hasType hd hmarked hsupply hsmall hreads hsettle

/-! ## A type that is taken for lengths -/

/-- Units of lengths, and a package in whose path a comma stands where it stands between types. -/
def lengthManifests : List Manifest :=
  [{ package := "uibind.dev/ui", types := [{ name := "Unit", kind := "enum" }] },
   { package := "float64,uibind.dev/ui", types := [{ name := "Unit", kind := "class" }] }]

/-- The catalog of these. -/
def lengthCatalog : Catalog := lengthManifests.foldl Catalog.loading Catalog.bare

/-- A draft with one field, a number that may be missing. -/
def numberDraft (c : Catalog) : Draft :=
  { document := ⟨⟨[], []⟩, #[]⟩, catalog := c, imports := { self := [] },
    fields :=
      { fields :=
          #[{ name := "a", declared := "a", type := c.find? [] "*int", precedence := .plain,
              element := none }] } }

theorem marked_numberDraft (c : Catalog) : (numberDraft c).Marked :=
  ⟨rfl, (fun _ he => nomatch he), List.Sublist.refl _⟩

/-- The field read as a value of the type becomes this. -/
def isReadAs (t : TypeId) (woven : Text) : Bool :=
  match (readSettled (Parsers.of lengthCatalog) 0 "\x7ba\x7d" t).runOn
      (numberDraft lengthCatalog) with
  | (.ok expr, d) => d.markers.entries.all (·.1 ≤ Marker.maxId) &&
      ((Markers.weave expr).runOn d.markers).1.toOption == some woven
  | _ => false

theorem exists_of_isReadAs {woven : Text} (h : isReadAs t woven = true) : ∃ expr d',
    (readSettled (Parsers.of lengthCatalog) 0 "\x7ba\x7d" t).runOn
        (numberDraft lengthCatalog) = (.ok expr, d') ∧
      d'.markers.Small ∧ d'.markers.Weaves expr woven := by
  unfold isReadAs at h
  split at h
  · rename_i expr d' hrun
    rw [Bool.and_eq_true, beq_iff_eq] at h
    refine ⟨expr, d', hrun, fun entry hentry => ?_, _, Prod.ext (ok_of_toOption h.2) rfl⟩
    exact of_decide_eq_true (List.all_eq_true.mp h.1 entry hentry)
  · cases h

/-- Read as another number, the field is dereferenced and converted. -/
theorem reference_of_numberDraft_has_type : ∃ float expr d',
    lengthCatalog.lookup? "float64" = some float ∧
      (readSettled (Parsers.of lengthCatalog) 0 "\x7ba\x7d" float).runOn
        (numberDraft lengthCatalog) = (.ok expr, d') ∧
      d'.markers.Weaves expr "float64(*a)" ∧
      ∃ x type, HasType (numberDraft lengthCatalog) ["a"] x type ∧
        lengthCatalog.isAssignable type (some float) = true ∧
        d'.markers.StandsFor expr (x.text (numberDraft lengthCatalog)) := by
  have hregular : lengthCatalog.Regular := Catalog.regular_loadings lengthManifests
  have hfloat : lengthCatalog.lookup? "float64" = some 26 := by decide
  have hother : ¬ IsTakenForLength lengthCatalog lengthCatalog 26 := fun h =>
    absurd ((hregular.known hfloat).2.symm.trans h.1) (by decide)
  have hread : isReadAs 26 "float64(*a)" = true := by decide
  obtain ⟨expr, d', hrun, hsmall, hwoven⟩ := exists_of_isReadAs hread
  have hsupply : Function.Injective (numberDraft lengthCatalog).markers.supply :=
    fun _ _ h => Nat.succ.inj h
  have hvalue : Segment.split "\x7ba\x7d" = [.reference "a"] := by decide
  have hpath : (Text.trim "a").splitOn '.'.toUInt8 = [Text.ofString "a"] := by decide
  have hsound := reference_has_type_unless_taken_for_length hregular hregular hregular.knownIn
    (hregular.known hfloat).1 (marked_numberDraft _) hsupply hsmall hvalue hrun
  rw [hpath] at hsound
  exact ⟨26, expr, d', hfloat, hrun, hwoven, hsound.1 hother⟩

/-- Nothing but the type itself can be used where the type with the key of lengths is expected. -/
theorem eq_of_isAssignable_length {s : TypeId}
    (h : lengthCatalog.isAssignable (some s) (some 30) = true) : s = 30 := by
  have hinside : ∀ s < lengthCatalog.types.size,
      lengthCatalog.isAssignable (some s) (some 30) = true → s = 30 := by
    decide
  by_cases hs : s < lengthCatalog.types.size
  · exact hinside s hs h
  · have hout := Nat.not_lt.mp hs
    have hkey : (Catalog.noType.key == (lengthCatalog.decl 30).key) = false := by decide
    have hany : lengthCatalog.isAny 30 = false := by decide
    have hlone := Catalog.hierarchy_eq_singleton (lengthCatalog.parents_noType hout)
    simp [Catalog.isAssignable, hlone, Catalog.decl_eq_noType hout, hkey, hany] at h

/-- The field is read as what it is. -/
theorem type_of_reads {x : Expr} {type : Option TypeId}
    (h : Expr.Reads (numberDraft lengthCatalog) ["a"] x type) :
    type = lengthCatalog.find? [] "*int" := by
  generalize hpath : [Text.ofString "a"] = path at h
  cases h with
  | field hfind =>
    have hzero : (numberDraft lengthCatalog).fields.find? "a" = some 0 := by decide
    rw [← (List.cons.inj hpath).1, hzero] at hfind
    cases hfind
    rfl
  | call hreads _ =>
    rcases List.append_eq_singleton_iff.mp hpath.symm with ⟨rfl, -⟩ | ⟨-, hnil⟩
    · exact absurd rfl hreads.ne_nil
    · cases hnil

/-- Nothing that begins with the field has a type that can be used there. -/
theorem not_isAssignable_length {x : Expr} {type : Option TypeId}
    (h : HasType (numberDraft lengthCatalog) ["a"] x type) :
    lengthCatalog.isAssignable type (some 30) = false := by
  have hregular : lengthCatalog.Regular := Catalog.regular_loadings lengthManifests
  have hkind : (lengthCatalog.decl 30).kind = .object := by decide
  rw [← Bool.not_eq_true]
  induction h with
  | read hreads =>
    rw [type_of_reads hreads]
    decide
  | deref _ hboxed _ =>
    obtain ⟨p, -, hp, hprimitive⟩ := hregular.unboxed hboxed
    show lengthCatalog.isAssignable (lengthCatalog.unboxed _) _ ≠ true
    rw [hp]
    intro h
    rw [eq_of_isAssignable_length h, hkind] at hprimitive
    cases hprimitive
  | convert _ hconverts ih =>
    intro h
    rw [eq_of_isAssignable_length h] at hconverts
    rcases hconverts with hsame | ⟨hnumber, -⟩
    · exact ih hsame
    · exact absurd hnumber (by decide)
  | box _ hboxed _ =>
    intro h
    rw [eq_of_isAssignable_length h] at hboxed
    exact absurd hboxed (by decide)
  | constant hk =>
    intro h
    have hnone : (lengthCatalog.decl 30).constants = [] := by decide
    rw [eq_of_isAssignable_length h] at hk
    exact List.not_mem_nil (hnone ▸ hk)

/-- Read as a value of the type with the key of lengths, the field becomes two expressions, while no
expression that reads it has a type that can be used there. -/
theorem reference_taken_for_length_has_no_type : ∃ t expr d',
    lengthCatalog.Regular ∧ lengthCatalog.lookup? lengthKey = some t ∧
      (readSettled (Parsers.of lengthCatalog) 0 "\x7ba\x7d" t).runOn
        (numberDraft lengthCatalog) = (.ok expr, d') ∧
      d'.markers.Weaves expr "float64(*a), ui.UnitPX" ∧
      ∀ x type, HasType (numberDraft lengthCatalog) ["a"] x type →
        lengthCatalog.isAssignable type (some t) = false := by
  have hread : isReadAs 30 "float64(*a), ui.UnitPX" = true := by decide
  obtain ⟨expr, d', hrun, -, hwoven⟩ := exists_of_isReadAs hread
  have hregular : lengthCatalog.Regular := Catalog.regular_loadings lengthManifests
  exact ⟨30, expr, d', hregular, by decide, hrun, hwoven,
    fun _ _ => not_isAssignable_length⟩

end ViewBinder.Attribute
