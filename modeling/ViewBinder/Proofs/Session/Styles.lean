-- Styles and the names of their classes. A style is declared with a class list, new names, accessors
-- and methods of a type that is generated for it; all of them agree, and they do so until the end of
-- the run. So a reference to a class gives the name under which the class stands in the stylesheet.
import Mathlib.Data.List.Nodup
import ViewBinder.Field.Reference
import ViewBinder.Proofs.Attribute.Parser
import ViewBinder.Proofs.Catalog.Hierarchy
import ViewBinder.Proofs.Resource.Stylesheet
import ViewBinder.Proofs.Session.Run
import ViewBinder.Proofs.Text.Quoted

namespace ViewBinder

open Work (Keeps Leads)

/-! ## Names that are written as they are -/

namespace Text

theorem isNameByte_ascii {b : UInt8} (h : Stylesheet.isNameByte b = true) : b < 0x80 := by
  have hall : ∀ n < 256, Stylesheet.isNameByte n.toUInt8 = true → n.toUInt8 < 0x80 := by
    decide +kernel
  have hb := hall b.toNat b.toNat_lt
  rw [Nat.toUInt8_eq, UInt8.ofNat_toNat] at hb
  exact hb h

theorem isPlainByte_of_isNameByte {b : UInt8} (h : Stylesheet.isNameByte b = true) :
    isPlainByte b = true := by
  have hall : ∀ n < 256, Stylesheet.isNameByte n.toUInt8 = true → isPlainByte n.toUInt8 = true := by
    decide +kernel
  have hb := hall b.toNat b.toNat_lt
  rw [Nat.toUInt8_eq, UInt8.ofNat_toNat] at hb
  exact hb h

end Text

namespace Resource

theorem isNameByte_base36 (size n : Nat) : ∀ b ∈ base36 size n, Stylesheet.isNameByte b = true := by
  have hdigit : ∀ k < 36, Stylesheet.isNameByte (digit36 k) = true := by decide
  induction size generalizing n with
  | zero => exact nofun
  | succ size ih =>
    intro b hb
    unfold base36 at hb
    split at hb
    · rename_i hsmall
      rw [List.mem_singleton.mp hb]
      exact hdigit n hsmall
    · rcases List.mem_append.mp hb with hfront | hlast
      · exact ih _ b hfront
      · rw [List.mem_singleton.mp hlast]
        exact hdigit _ (Nat.mod_lt n (by decide))

/-- A fingerprint could stand in the name of a class. -/
theorem isNameByte_fingerprint (t : Text) : (fingerprint t).all Stylesheet.isNameByte = true := by
  have hfirst : ∀ b ∈ Text.ofString "G", Stylesheet.isNameByte b = true := forall_of_all (by decide)
  rw [List.all_eq_true]
  intro b hb
  rcases List.mem_append.mp hb with hlead | hrest
  · exact hfirst b hlead
  · exact isNameByte_base36 _ _ b hrest

end Resource

/-! ## Classes -/

namespace Bundle

/-- What is bundled for the class of a name. -/
def styleClass (lead name : Text) : StyleClass := ⟨name, Text.exported name, lead ++ "-" ++ name⟩

theorem bundleClasses_ok {lead field : Text} {done classes : List StyleClass} {names : List Text}
    (h : bundleClasses lead field done names = .ok classes) :
    classes = done ++ names.map (styleClass lead) := by
  induction names generalizing done with
  | nil =>
    cases h
    exact (List.append_nil _).symm
  | cons name rest ih =>
    unfold bundleClasses at h
    dsimp only at h
    split at h
    · cases h
    · split at h
      · cases h
      · rw [ih h, List.append_assoc]
        rfl

/-- A class has its new name as the program holds it, without escapes. -/
theorem quote_styleClass {lead name : Text} (hlead : lead.all Stylesheet.isNameByte = true)
    (hname : name.all Stylesheet.isNameByte = true) :
    Text.quote (styleClass lead name).renamed = "\"" ++ (styleClass lead name).renamed ++ "\"" := by
  refine Text.quote_plain (List.all_eq_true.mpr fun b hb => Text.isPlainByte_of_isNameByte ?_)
  have hdash : ∀ b ∈ Text.ofString "-", Stylesheet.isNameByte b = true := forall_of_all (by decide)
  rcases List.mem_append.mp hb with hfront | hlast
  · rcases List.mem_append.mp hfront with hb | hb
    · exact List.all_eq_true.mp hlead b hb
    · exact hdash b hb
  · exact List.all_eq_true.mp hname b hlast

end Bundle

namespace BundledStyle

variable {x : BundledStyle} {lead : Text}

/-- The text with every class name of a selector written as `name` has it. -/
def writtenWith (x : BundledStyle) (name : Text → Text) : Text :=
  (Stylesheet.pieces x.sheet.text).flatMap fun part =>
    match part with
    | .className c => "." ++ name c
    | .other t => t

/-- Each class of the stylesheet has an accessor and a new name of its own. The accessor gives the
name, and the name stands wherever a selector names the class. -/
structure Agrees (x : BundledStyle) : Prop where
  names : x.classes.map (·.name) = x.sheet.classes
  distinct : (x.classes.map (·.name)).Nodup
  accessor : ∀ k ∈ x.classes, k.accessor = Text.exported k.name
  accessors : (x.classes.map (·.accessor)).Nodup
  renamed : (x.classes.map (·.renamed)).Nodup
  body : ∀ k ∈ x.classes, ∀ package name,
    Bundle.renderMethod name k.accessor "string" ("\"" ++ k.renamed ++ "\"") ∈
      Bundle.renderStyle package name x
  css : ∀ written : Text → Text, (∀ k ∈ x.classes, written k.name = k.renamed) →
    x.css = Text.trim (x.writtenWith written)

theorem lookup_renaming {classes : List StyleClass} (h : (classes.map (·.name)).Nodup)
    {k : StyleClass} (hk : k ∈ classes) :
    (classes.map fun k => (k.name, k.renamed)).lookup k.name = some k.renamed := by
  induction classes with
  | nil => cases hk
  | cons first rest ih =>
    obtain ⟨hfirst, hrest⟩ := List.nodup_cons.mp h
    rcases List.mem_cons.mp hk with rfl | hlater
    · exact List.lookup_cons_self
    · have hother : (k.name == first.name) = false := by
        rw [beq_eq_false_iff_ne]
        exact fun hsame => hfirst (List.mem_map.mpr ⟨k, hlater, hsame⟩)
      rw [List.map_cons, List.lookup_cons, hother]
      exact ih hrest hlater

/-- In the stylesheet that is written every class has its new name. -/
theorem css_eq {written : Text → Text} (hnames : x.classes.map (·.name) = x.sheet.classes)
    (hdistinct : (x.classes.map (·.name)).Nodup)
    (hparsed : x.sheet.classes = Stylesheet.classesOf x.sheet.text)
    (hwritten : ∀ k ∈ x.classes, written k.name = k.renamed) :
    x.css = Text.trim (x.writtenWith written) := by
  unfold css writtenWith
  rw [Stylesheet.rename_eq]
  refine congrArg Text.trim (List.flatMap_congr fun part hpart => ?_)
  cases part with
  | className c =>
    have hmem : c ∈ x.classes.map (·.name) := by
      rw [hnames, hparsed]
      exact Stylesheet.mem_classesOf_iff.mpr hpart
    obtain ⟨k, hk, rfl⟩ := List.mem_map.mp hmem
    show '.'.toUInt8 :: (x.renaming.lookup k.name).getD k.name = "." ++ written k.name
    unfold BundledStyle.renaming
    rw [lookup_renaming hdistinct hk, hwritten k hk]
    rfl
  | other t => rfl

theorem agrees_of_bundled {css : Text} (hsheet : x.sheet = Stylesheet.parse css)
    (hlead : lead.all Stylesheet.isNameByte = true)
    (hclasses : Bundle.bundleClasses lead x.style.field [] x.sheet.classes = .ok x.classes) :
    x.Agrees := by
  have hmade : x.classes = x.sheet.classes.map (Bundle.styleClass lead) :=
    Bundle.bundleClasses_ok hclasses
  have hparsed : x.sheet.classes = Stylesheet.classesOf x.sheet.text := by
    rw [hsheet]
    rfl
  have hnames : x.classes.map (·.name) = x.sheet.classes := by
    rw [hmade, List.map_map]
    exact List.map_id _
  have hnodup : x.sheet.classes.Nodup := hparsed ▸ nodup_eraseDups _
  have hdistinct : (x.classes.map (·.name)).Nodup := hnames ▸ hnodup
  have hfrom : ∀ k ∈ x.classes, ∃ c ∈ x.sheet.classes, Bundle.styleClass lead c = k :=
    fun k hk => List.mem_map.mp (hmade ▸ hk)
  refine ⟨hnames, hdistinct, fun k hk => ?_, ?_, ?_, fun k hk package name => ?_, fun written => ?_⟩
  · obtain ⟨c, -, rfl⟩ := hfrom k hk
    rfl
  · exact (List.nodup_append.mp (Bundle.bundleClasses_nodup hclasses (by decide))).2.1
  · rw [hmade, List.map_map]
    exact hnodup.map fun c c' hsame => List.append_cancel_left hsame
  · obtain ⟨c, hc, rfl⟩ := hfrom k hk
    have hname := (Stylesheet.name_of_mem_classesOf (hparsed ▸ hc)).2
    rw [← Bundle.quote_styleClass hlead hname]
    exact List.mem_append_right _ (List.mem_map.mpr ⟨_, hk, rfl⟩)
  · exact css_eq hnames hdistinct hparsed

end BundledStyle

/-! ## Accessors -/

theorem find?_of_nodup {ms : List Method} (h : (ms.map (·.name)).Nodup) {m : Method} (hm : m ∈ ms) :
    ms.find? (·.name == m.name) = some m := by
  induction ms with
  | nil => cases hm
  | cons first rest ih =>
    obtain ⟨hfirst, hrest⟩ := List.nodup_cons.mp h
    rcases List.mem_cons.mp hm with rfl | hlater
    · exact List.find?_cons_of_pos (beq_self_eq_true m.name)
    · rw [List.find?_cons_of_neg, ih hrest hlater]
      intro hsame
      exact hfirst (List.mem_map.mpr ⟨m, hlater, (eq_of_beq hsame).symm⟩)

/-- An accessor that a type has itself is the one that is found. -/
theorem Catalog.getter?_of_mem {c : Catalog} {t : TypeId} {property : Text} {m : Method}
    (hnodup : ((c.decl t).methods.map (·.name)).Nodup) (hm : m ∈ (c.decl t).methods)
    (hname : m.name = Text.exported property) (hparams : m.params = [])
    (hreturns : m.returns.isSome = true) : c.getter? (some t) property = some m := by
  have hmethod : c.method? (some t) (Text.exported property) = some m := by
    obtain ⟨rest, hhierarchy⟩ := c.hierarchy_eq_cons t
    show (c.hierarchy t).findSome? _ = some m
    rw [hhierarchy, List.findSome?_cons]
    unfold declaredMethod?
    rw [← hname, find?_of_nodup hnodup hm]
  unfold getter?
  simp only [List.findSome?_cons, hmethod, Option.filter_some, hparams, hreturns]
  rfl

/-! ## Types that stay -/

/-- The types of the bundle and of the messages are in the table. -/
structure Draft.Housed (d : Draft) : Prop where
  bundle : ∀ t, d.bundle.type = some t → t < d.catalog.types.size
  messages : ∀ t, d.messages.type = some t → t < d.catalog.types.size

/-- The types of a draft that was opened are in the table. -/
theorem Draft.housed_open (d : Draft) (b : Bundle) (package packageName name : Text) :
    ((do openBundle b; openMessages package packageName name : Work Draft Unit).runOn d).2.Housed := by
  have hrun : ((do openBundle b; openMessages package packageName name : Work Draft Unit).runOn d) =
      (openMessages package packageName name).runOn ((openBundle b).runOn d).2 := rfl
  rw [hrun]
  unfold openMessages openBundle
  rw [Work.runOn_modify, Work.runOn_modify]
  refine ⟨fun t ht => ?_, fun t ht => ?_⟩
  · cases ht
    simp only [Catalog.size_push]
    exact Nat.lt_succ_of_lt (Nat.lt_succ_self _)
  · cases ht
    simp only [Catalog.size_push]
    exact Nat.lt_succ_self _

theorem Draft.TypesStay.of_same {d d' : Draft} (hcatalog : d'.catalog = d.catalog)
    (hbundle : d'.bundle = d.bundle) (hmessages : d'.messages = d.messages) : TypesStay d d' where
  size := Nat.le_of_eq (congrArg (·.types.size) hcatalog.symm)
  bundle := congrArg (·.type) hbundle
  messages := congrArg (·.type) hmessages
  decl t _ _ _ := congrArg (·.decl t) hcatalog

/-- All through a run types stay as they are, but for those of the bundle and of the messages. -/
theorem Session.Run.typesStay {s s' : Session} (h : Run s s') :
    Draft.TypesStay s.toDraft s'.toDraft := by
  induction h with
  | trans _ _ ih ih' => exact IsTrans.trans _ _ _ ih ih'
  | draft hcalm => exact hcalm.typesStay
  | resource hdeclares => exact hdeclares.types
  | attached _ _ ih => exact ⟨ih.size, ih.bundle, ih.messages, ih.decl⟩
  | declare _ _ _ _ ih => exact ⟨ih.size, ih.bundle, ih.messages, ih.decl⟩
  | use _ _ ih => exact ⟨ih.size, ih.bundle, ih.messages, ih.decl⟩
  | _ => exact ⟨Nat.le_refl _, rfl, rfl, fun _ _ _ _ => rfl⟩

/-! ## Declaring a style -/

namespace Draft

/-- The accessors of a style's type: those of every style, and one for each class. -/
def styleMethods (d : Draft) (type : TypeId) (classes : List StyleClass) : List Method :=
  ⟨"EnsureInjected", [], d.catalog.find? [] "bool", some type⟩ ::
    ⟨"Text", [], d.catalog.find? [] "string", some type⟩ ::
      classes.map fun k => ⟨k.accessor, [], d.catalog.find? [] "string", some type⟩

theorem generateStyleType_methods {field : Text} {interfaces : List TypeId}
    {classes : List StyleClass} {d d' : Draft} {t : TypeId}
    (h : (generateStyleType field interfaces classes).runOn d = (.ok t, d')) :
    t = d.catalog.types.size ∧ (d'.catalog.decl t).methods = d.styleMethods t classes := by
  unfold generateStyleType at h
  rw [Work.runOn_modifyGet] at h
  cases h
  exact ⟨rfl, congrArg TypeDecl.methods (Catalog.decl_push_size _ _)⟩

/-- A type that is made up for a resource has no key. -/
theorem lookup?_resourceType {name : Text} {d d' : Draft} {t : TypeId}
    (h : (resourceType name).runOn d = (.ok t, d')) (key : Text) :
    d'.catalog.lookup? key = d.catalog.lookup? key := by
  unfold resourceType at h
  rw [Work.runOn_modifyGet] at h
  split at h
  · cases h
    rfl
  · cases h
    rfl

/-- A style that fulfils no interface is bundled with its text and classes, and its type, which is
new, has an accessor for each class. -/
theorem declareStyle_ok {place : Option Location} {style : Style} (hplain : style.type = none)
    {d d' : Draft} (hhoused : d.Housed) {type : TypeId} {method : Text}
    (h : (declareStyle place style).runOn d = (.ok (type, method), d')) :
    ∃ css classes, d.bundle.styleText style = .ok css ∧
      Bundle.bundleClasses (d.bundle.classLead style.field) style.field []
        (Stylesheet.parse css).classes = .ok classes ∧
      d'.bundle.styles = d.bundle.styles ++ [⟨style, method, Stylesheet.parse css, classes, type⟩] ∧
      d.catalog.types.size ≤ type ∧ type < d'.catalog.types.size ∧
      (d'.catalog.decl type).name = d.bundle.styleTypeName style.field ∧
      (d'.catalog.decl type).methods = d.styleMethods type classes := by
  unfold declareStyle at h
  obtain ⟨claimed, d₁, hclaim, h⟩ := Work.bind_ok h
  obtain ⟨-, -, rfl⟩ := claimMethod_ok hclaim
  obtain ⟨_, _, hget, h⟩ := Work.bind_ok h
  cases hget
  obtain ⟨css, _, hread, h⟩ := Work.bind_ok h
  obtain ⟨htext, rfl⟩ := orFailAt_ok hread
  obtain ⟨classes, _, hbundled, h⟩ := Work.bind_ok h
  obtain ⟨hclasses, rfl⟩ := orFailAt_ok hbundled
  obtain ⟨resource, d₂, hresource, h⟩ := Work.bind_ok h
  simp only [hplain] at h
  obtain ⟨generated, d₃, htype, h⟩ := Work.bind_ok h
  obtain ⟨_, _, hmodify, h⟩ := Work.bind_ok h
  cases hmodify
  obtain ⟨_, d₄, hmethod, hanswer⟩ := Work.bind_ok h
  cases hanswer
  obtain ⟨hnew, hmethods⟩ := generateStyleType_methods htype
  obtain ⟨hbeside, hlt, hname⟩ := generateStyleType_ok htype
  have hresourced := Keeps.keeps (R := Beside) hresource
  have hfirst : TypesStay d d₃ := IsTrans.trans _ _ _ (Keeps.keeps (R := TypesStay) hclaim)
    (IsTrans.trans _ _ _ (Keeps.keeps (R := TypesStay) hresource)
      (Keeps.keeps (R := TypesStay) htype))
  have hlast : TypesStay _ d' := Keeps.keeps (R := TypesStay) hmethod
  have hbundle : d₃.bundle = { d.bundle with methods := method :: d.bundle.methods } :=
    hbeside.bundle.trans hresourced.bundle
  have hsize : d.catalog.types.size ≤ d₂.catalog.types.size :=
    (Keeps.keeps (R := TypesStay) hresource).size
  have hdecl : d'.catalog.decl generated = d₃.catalog.decl generated := by
    refine hlast.decl generated hlt (fun hsame => ?_) fun hsame => ?_
    · rw [hfirst.bundle] at hsame
      exact absurd (hhoused.bundle _ hsame) (Nat.not_lt.mpr (hnew ▸ hsize))
    · rw [hfirst.messages] at hsame
      exact absurd (hhoused.messages _ hsame) (Nat.not_lt.mpr (hnew ▸ hsize))
  refine ⟨css, classes, htext, hclasses, ?_, hnew ▸ hsize, Nat.lt_of_lt_of_le hlt hlast.size, ?_, ?_⟩
  · rw [(Keeps.keeps (R := Beside) hmethod).bundle]
    simp only [hbundle]
    rfl
  · show (d'.catalog.decl generated).name = _
    rw [hdecl, hname, hresourced.bundle]
    rfl
  · show (d'.catalog.decl generated).methods = d.styleMethods generated classes
    rw [hdecl, hmethods]
    unfold styleMethods Catalog.find?
    simp only [lookup?_resourceType hresource]

/-- The names of a style's accessors are distinct, as those of its classes are. -/
theorem nodup_styleMethods {d : Draft} {type : TypeId} {classes : List StyleClass}
    (h : (Bundle.reservedAccessors ++ classes.map (·.accessor)).Nodup) :
    ((d.styleMethods type classes).map (·.name)).Nodup := by
  unfold styleMethods
  simpa [Bundle.reservedAccessors, List.map_map, Function.comp_def] using h

/-- A path of a field and an accessor leads from the field through the accessor. -/
theorem target_getter {d : Draft} {r : FieldReference} {field property : Text} {id : FieldId}
    {m : Method} (hfield : '.'.toUInt8 ∉ field) (hproperty : '.'.toUInt8 ∉ property)
    (hpath : r.path = field ++ "." ++ property) (hfind : d.fields.find? field = some id)
    (hgetter : d.catalog.getter? (d.fields.field id).type property = some m) :
    d.target r = .ok (id, m.returns, (d.fields.field id).name ++ "." ++ m.name ++ "()") := by
  have hsegments : r.segments = [field, property] := by
    unfold FieldReference.segments
    rw [hpath, List.append_assoc, ← Text.splitOn_of_notMem hproperty]
    exact Text.splitOn_append hfield property
  unfold target FieldReference.fieldName
  simp only [hsegments, List.headD_cons, hfind, List.drop_one, List.tail_cons, follow, hgetter]
  rfl

end Draft

/-! ## References to classes -/

/-- A class may be named in an attribute value behind a field unless it starts with a dash. -/
theorem Segment.isLegalPath_class {field name : Text} (hfield : '.'.toUInt8 ∉ field)
    (hne : name ≠ []) (hname : name.all Stylesheet.isNameByte = true) :
    isLegalPath (field ++ "." ++ name) = (isLegalPath field && !Text.startsWith name "-") := by
  have hdot : '.'.toUInt8 ∉ name := by
    intro hmem
    exact absurd (List.all_eq_true.mp hname _ hmem) (by decide)
  have hsplit : Text.splitOn '.'.toUInt8 (field ++ "." ++ name) = [field, name] := by
    rw [List.append_assoc, ← Text.splitOn_of_notMem hdot]
    exact Text.splitOn_append hfield name
  have hfull : (field ++ Text.ofString "." ++ name).isEmpty = false := by
    simpa using fun _ _ => hne
  have hlast : (Text.isIdentifier name || isDashedName name) = !Text.startsWith name "-" := by
    cases hdash : Text.startsWith name "-" with
    | false =>
      have hdashed : isDashedName name = true := by
        unfold isDashedName
        rw [hdash, List.isEmpty_eq_false_iff.mpr hne]
        exact hname
      rw [hdashed, Bool.or_true]
      rfl
    | true =>
      obtain ⟨rest, rfl⟩ := List.isPrefixOf_iff_prefix.mp hdash
      have hrunes := Text.runes_ascii _ fun b hb =>
        Text.isNameByte_ascii (List.all_eq_true.mp hname b hb)
      have hother : Text.isIdentifier ("-" ++ rest) = false := by
        have hletter : Text.isLetter '-'.toUInt8.toNat = false := by decide +kernel
        unfold Text.isIdentifier
        rw [hrunes]
        show ((Text.isLetter '-'.toUInt8.toNat || false) && _ && _) = false
        rw [hletter]
        rfl
      unfold isDashedName
      rw [hother, hdash]
      simp
  have hfirst : isLegalPath field = (Text.isIdentifier field || isDashedName field) := by
    unfold isLegalPath
    rw [Text.splitOn_of_notMem hfield]
    cases field with
    | nil => rfl
    | cons b rest => simp
  unfold isLegalPath at hfirst ⊢
  rw [hsplit, hfull, hfirst]
  simp [hlast]

namespace Session

/-! ## A session that declares styles -/

/-- A session that begins on the smallest catalog. -/
def emptySession : Session where
  document := { file := { content := [], url := "View.ui.xml" } }
  catalog := Catalog.bare
  imports := { self := "example.com/app" }
  parsers := Attribute.Parsers.of Catalog.bare

/-- The session once resources and messages may be declared. -/
def openSession : Session :=
  { emptySession with toDraft := ((do
      Draft.openBundle { package := "example.com/app", packageName := "app", lead := "View" }
      Draft.openMessages "example.com/app" "app" "ViewMessages" : Work Draft Unit).runOn
    emptySession.toDraft).2 }

theorem housed_openSession : openSession.Housed :=
  Draft.housed_open _ _ "example.com/app" "app" "ViewMessages"

end Session

end ViewBinder
