-- Doubled braces. A value without references is text wherever it ends up, and splitting reads a
-- doubled brace of it as one. Setters of texts and of safe markup get the text that is read; an
-- address and an attribute of markup are the value as it was written.
import ViewBinder.Proofs.Element.Setters
import ViewBinder.Proofs.Template.Containers
import ViewBinder.Proofs.Template.Directives
import ViewBinder.Proofs.Template.Dressing
import ViewBinder.Proofs.Template.Escaping

namespace ViewBinder

open Markup (Document Attribute)
open Session
open Work (Keeps Leads)

namespace Content

variable {s s' : Session} {e i : Nat} {a : Attribute}

/-! ## Attributes that nothing is spliced into -/

/-- No attribute of the element is declared to be a message. -/
def Unannounced (e : Nat) (d : Document) : Prop :=
  ∀ child ∈ d.childElements e, d.isBinderTag child "attribute" = false

/-- An attribute without references stays as it is when references are spliced in. -/
theorem find?_of_computeAttributes {base : Text} {u : Unit}
    (hfound : s.document.find? e [] base = some (i, a))
    (hplain : Segment.hasReference a.value = false)
    (h : (computeAttributes e).runOn s = (.ok u, s')) :
    s'.document.find? e [] base = some (i, a) := by
  rw [computeAttributes_eq] at h
  obtain ⟨text, _, htext, h⟩ := Work.bind_ok h
  cases htext
  obtain ⟨d, _, hget, h⟩ := Work.bind_ok h
  cases hget
  obtain ⟨_, s₁, hloop, h⟩ := Work.bind_ok h
  cases h
  obtain ⟨hmem, -⟩ := Document.mem_remaining_of_find? hfound
  have hspares : Session.Spares e base (i, a) s s' := by
    refine (Keeps.forInMem fun x hx _ => ⟨fun {s₁ step s₂} hturn hfound₁ => ?_⟩).keeps hloop
    obtain ⟨j, b⟩ := x
    obtain ⟨-, hturn⟩ := computeAttribute_ok hturn
    split at hturn
    · rename_i htouched
      obtain ⟨value, s₃, hconvert, rfl⟩ := hturn
      have hsame : s₃.document = s₁.document := Keeps.keeps (R := SameDocument) hconvert
      have hne : i ≠ j := by
        rintro rfl
        rw [Document.remaining_inj hx hmem, hplain, Bool.and_false] at htouched
        cases htouched
      show (s₃.document.replaceAttribute e j value).find? e [] base = _
      rw [Document.find?_replaceAttribute, hsame, hfound₁]
      simp [hne]
    · rw [hturn]
      exact Std.Refl.refl s₁.document
  exact Eq.trans (hspares hfound) hfound

theorem spares_takeBinder {base : Text} (name : Text) :
    Leads (Document.Spares e base) (Document.takeBinder e name) := by
  have htake : ∀ uri : Text, uri ≠ [] →
      Leads (Document.Spares e base) (Document.takeIn e uri name) := fun uri huri =>
    ⟨fun d => Document.spares_take?_ne (fun hnil => absurd hnil huri) d⟩
  unfold Document.takeBinder
  refine Leads.bind' (htake _ (by decide)) fun found => ?_
  split
  · infer_instance
  · exact htake _ (by decide)

/-- The id that a field gets is no attribute that the element had. -/
theorem find?_of_bindField {base : Text} {u : Unit}
    (hfound : s.document.find? e [] base = some (i, a))
    (h : (bindField e).runOn s = (.ok u, s')) :
    s'.document.find? e [] base = some (i, a) := by
  unfold bindField at h
  obtain ⟨_, _, hget, h⟩ := Work.bind_ok h
  cases hget
  split at h
  · cases h
    exact hfound
  · obtain ⟨found, s₁, htake, h⟩ := Work.bind_ok h
    have hspares : s.document.Spares e base s₁.document :=
      (spares_takeBinder "field").keeps.keeps (document_ok htake)
    have hfound₁ : s₁.document.find? e [] base = some (i, a) := Eq.trans hspares hfound
    cases found with
    | none =>
      cases h
      exact hfound₁
    | some name =>
      obtain ⟨_, _, hget, h⟩ := Work.bind_ok h
      cases hget
      dsimp only at h
      split at h
      · obtain ⟨_, _, hfail, _⟩ := Work.bind_ok h
        cases hfail
      · rename_i hfree
        have hid : Text.ofString "id" ≠ base := by
          rintro rfl
          unfold Document.has at hfree
          rw [hfound₁] at hfree
          exact hfree rfl
        obtain ⟨_, _, hcatalog, h⟩ := Work.bind_ok h
        cases hcatalog
        obtain ⟨f, s₂, hregister, h⟩ := Work.bind_ok h
        obtain ⟨holder, s₃, hdeclare, h⟩ := Work.bind_ok h
        obtain ⟨marker, s₄, hsplice, h⟩ := Work.bind_ok h
        obtain ⟨_, s₅, hset, h⟩ := Work.bind_ok h
        have hbefore : SameDocument s₁ s₄ := IsTrans.trans _ _ _ (Keeps.keeps hregister)
          (IsTrans.trans _ _ _ (Keeps.keeps hdeclare) (Keeps.keeps hsplice))
        have hafter : SameDocument s₅ s' := Keeps.keeps h
        rw [show s'.document = s₅.document from hafter]
        cases hset
        show (s₄.document.setAttribute e "id" marker).find? e [] base = _
        rw [show s₄.document = s₁.document from hbefore, Document.find?_setAttribute_ne hid]
        exact hfound₁

/-! ## Elements of markup -/

/-- Nothing stands for an element of markup but itself. -/
theorem standIn?_of_markup {build : Builder} {slot : Nat → Work Session Html} {kind : ContentKind}
    {d : Document} (hbinder : d.isBinder e = false) (himported : d.isImported e = false)
    (panel : Option FieldId) (stamped : Bool) :
    standIn? build kind slot e d panel stamped = pure none := by
  have htag : ∀ base, d.isBinderTag e base = false := by
    intro base
    unfold Document.isBinderTag
    rw [hbinder, Bool.and_false, Bool.false_and]
  unfold standIn?
  simp only [htag, himported]
  cases panel <;> rfl

/-- An attribute of an element of markup that refers to nothing is written with its value as it
is. -/
theorem mem_attributes_of_renderElement {build : Builder} {slot : Nat → Work Session Html}
    {attached stamped : Bool} {panel : Option FieldId} {base : Text} {html : Html}
    (hbinder : s.document.isBinder e = false) (himported : s.document.isImported e = false)
    (hnone : Unannounced e s.document) (hfound : s.document.find? e [] base = some (i, a))
    (hplain : Segment.hasReference a.value = false)
    (h : (renderElement build (.markup attached panel stamped) slot e).runOn s = (.ok html, s')) :
    ∃ name attributes children,
      html = .element name attributes children ∧ (base, a.value) ∈ attributes := by
  obtain ⟨answer, s₃, hinterpret, -⟩ := Work.bind_ok h
  have hstands := hinterpret
  rw [interpret?_markup] at hstands
  obtain ⟨_, _, hget, hstands⟩ := Work.bind_ok hstands
  cases hget
  obtain ⟨_, s₁, hmessages, hstands⟩ := Work.bind_ok hstands
  rw [runOn_declareAttributeMessages_of_none hnone] at hmessages
  cases hmessages
  obtain ⟨_, s₂, hcompute, hstands⟩ := Work.bind_ok hstands
  have hfound₂ := find?_of_computeAttributes hfound hplain hcompute
  rw [standIn?_of_markup hbinder himported] at hstands
  obtain ⟨hfound₃, rfl⟩ : s₃.document.find? e [] base = some (i, a) ∧ answer = none := by
    dsimp only at hstands
    split at hstands
    · obtain ⟨_, s₄, hbind, hlast⟩ := Work.bind_ok hstands
      cases hlast
      exact ⟨find?_of_bindField hfound₂ hbind, rfl⟩
    · cases hstands
      exact ⟨hfound₂, rfl⟩
  obtain ⟨-, -, helement⟩ := markupElement_of_renderElement hinterpret h
  unfold markupElement at helement
  obtain ⟨_, s₄, hname, helement⟩ := Work.bind_ok helement
  obtain ⟨_, _, hget, helement⟩ := Work.bind_ok helement
  cases hget
  obtain ⟨written, s₅, hwritten, helement⟩ := Work.bind_ok helement
  obtain ⟨children, s₆, hchildren, helement⟩ := Work.bind_ok helement
  obtain ⟨_, _, hget, helement⟩ := Work.bind_ok helement
  cases hget
  cases helement
  have hsame : SameDocument s₃ s₄ := Keeps.keeps hname
  refine ⟨_, written, children, rfl, ?_⟩
  rw [markupAttributes_written hwritten, show s₄.document = s₃.document from hsame]
  obtain ⟨hmem, -, rfl⟩ := Document.mem_remaining_of_find? hfound₃
  exact List.mem_map.mpr ⟨_, hmem, rfl⟩

end Content

/-! ## What a value is in the program -/

open Element (Sets)

/-- A value without references is passed as the text of its segments to setters of texts and of safe
markup. An address is made of the value as it is, and markup gets it as it is; that is the text of
its segments only if its first brace is not doubled. -/
theorem braces_of_addresses_and_markup_stay_doubled {t : Template} {ms : List Manifest}
    {settings : Settings} {supply : Nat → Nat} {document : Document} {s : Session} {e i : Nat}
    {a : Attribute}
    (hstart : Reaches (t.start (ms.foldl Catalog.loading Catalog.bare) settings supply document) s)
    (hplain : Segment.hasReference a.value = false) :
    (∀ (f : FieldId) (type : TypeId) (setter : Method) (p : TypeId), f < s.fields.fields.size →
      s.catalog.setters type a.name.base = [setter] → setter.params.map (·.type) = [some p] →
      ((ms.foldl Catalog.loading Catalog.bare).find? [] "string" = some p →
        Sets s e f type i a setter (Text.quote (Segment.literalText a.value))) ∧
      ((ms.foldl Catalog.loading Catalog.bare).find? Library.safehtmlPackage "SafeHtml" = some p →
        Sets s e f type i a setter
          ((s.imports.qualify (s.catalog.decl p) "FromTrustedString").1 ++ "(" ++
            Text.quote (Segment.literalText a.value) ++ ")")) ∧
      ((ms.foldl Catalog.loading Catalog.bare).find? Library.safehtmlPackage "SafeUri" = some p →
        Sets s e f type i a setter
          ((s.imports.qualify (s.catalog.decl p) "URIFromConstant").1 ++ "(" ++
            Text.quote a.value ++ ")"))) ∧
    (∀ (build : Builder) (slot : Nat → Work Session Html) (attached stamped : Bool)
      (panel : Option FieldId) (html : Html) (s' : Session),
      s.document.isBinder e = false → s.document.isImported e = false →
      Content.Unannounced e s.document → s.document.find? e [] a.name.base = some (i, a) →
      (Content.renderElement build (.markup attached panel stamped) slot e).runOn s =
        (.ok html, s') →
      ∃ name attributes children,
        html = .element name attributes children ∧ (a.name.base, a.value) ∈ attributes) ∧
    (Segment.literalText a.value = a.value ↔ ¬ ∃ front back, Segment.openBrace ∉ front ∧
      a.value = front ++ Segment.openBrace :: Segment.openBrace :: back) := by
  have hloaded := Catalog.loaded_loadings ms
  have hparsers : s.parsers = Attribute.Parsers.of (ms.foldl Catalog.loading Catalog.bare) :=
    hstart.parsers
  have hnames : ∀ {key : Text} {p : TypeId},
      (ms.foldl Catalog.loading Catalog.bare).lookup? key = some p → s.catalog.Names key p :=
    fun h => hstart.names (hloaded.names h)
  refine ⟨fun f type setter p hf hsetters hparams => ⟨fun hp => ?_, fun hp => ?_, fun hp => ?_⟩, ?_,
    Segment.literalText_eq_self_iff hplain⟩
  · refine Element.sets_of_parse hf hsetters ?_
    rw [hparams, hparsers, Attribute.Parsers.get_string _ (hnames hp)]
    exact ⟨_, Attribute.parse_string_plain hplain _ e _, rfl⟩
  · refine Element.sets_of_parse hf hsetters ?_
    rw [hparams, hparsers, Attribute.Parsers.get_safeHtml hloaded hp (hnames hp)]
    exact ⟨_, Attribute.parse_safeHtml_plain hplain _ p e _, rfl⟩
  · refine Element.sets_of_parse hf hsetters ?_
    rw [hparams, hparsers, Attribute.Parsers.get_safeUri hloaded hp (hnames hp)]
    exact ⟨_, Attribute.parse_safeUri_plain hplain _ p e _, rfl⟩
  · intro build slot attached stamped panel html s' hbinder himported hnone hfound h
    exact Content.mem_attributes_of_renderElement hbinder himported hnone hfound hplain h

namespace Template

/-- The types of frames, and what each sets its address by. -/
def frames : List (Text × Text × Text) :=
  [("TextFrame", [], "string"), ("MarkupFrame", Library.safehtmlPackage, "SafeHtml"),
   ("Frame", Library.safehtmlPackage, "SafeUri")]

/-- A library with frames, whose address is a text, safe markup or safe as it is. -/
def frameManifests : List Manifest :=
  sampleManifests ++
    [{ package := Library.safehtmlPackage,
       types := [{ name := "SafeHtml", kind := "class" }, { name := "SafeUri", kind := "class" }] },
     { package := Library.uiPackage,
       types := frames.map fun frame =>
         { name := frame.1, kind := "class", interfaces := [Library.ui "IsWidget"],
           methods := [{ name := "SetUrl", params := [⟨"url", keyOf frame.2.1 frame.2.2⟩] }],
           constructors := [{ name := "New" ++ frame.1 }] } }]

/-- The catalog of that library. -/
def frameCatalog : Catalog := frameManifests.foldl Catalog.loading Catalog.bare

/-- A template of one element. -/
def templateOf (element : Text) : Template :=
  { source := "<ui:UiBinder xmlns:ui=\"urn:ui:uibind\" xmlns:g=\"urn:import:uibind.dev/ui\">" ++
      element ++ "</ui:UiBinder>",
    url := "View.ui.xml" }

/-- An element of markup with a doubled brace. -/
def bracedMarkup : Template := templateOf "<g:HTMLPanel><i url=\"a\x7b\x7bb\"/></g:HTMLPanel>"

/-- A frame with a doubled brace. -/
def bracedFrame (tag : Text) : Template := templateOf ("<g:" ++ tag ++ " url=\"a\x7b\x7bb\"/>")

/-- The catalog finds the type of a frame and the type of its address, which the only setter
takes. -/
def setsAddress (s : Session) (frame : Text × Text × Text) : Bool :=
  match s.catalog.find? Library.uiPackage frame.1, frameCatalog.find? frame.2.1 frame.2.2 with
  | some type, some p =>
    (s.catalog.setters type "url").map (fun m => m.params.map (·.type)) == [[some p]]
  | _, _ => false

theorem exists_of_setsAddress {s : Session} {frame : Text × Text × Text}
    (h : setsAddress s frame = true) : ∃ type setter p,
      frameCatalog.find? frame.2.1 frame.2.2 = some p ∧
      s.catalog.setters (some type) "url" = [setter] ∧ setter.params.map (·.type) = [some p] := by
  unfold setsAddress at h
  split at h
  · rename_i type p htype hp
    rw [beq_iff_eq, List.map_eq_singleton_iff] at h
    obtain ⟨setter, hsetters, hparams⟩ := h
    exact ⟨type, setter, p, hp, hsetters, hparams⟩
  · cases h

/-- The element in the panel can be written, and its attribute has a doubled brace; each frame could
be set by that attribute. -/
def bracedMarkupTest (s : Session) : Bool :=
  (!s.document.isBinder 2 && !s.document.isImported 2 && (s.document.childElements 2).isEmpty &&
    (s.document.find? 2 [] "url").any fun found =>
      found.2.value == Text.ofString "a\x7b\x7bb") &&
  (((Content.renderElement (fun _ => throw .crash) (.markup false none false)
      (fun _ => throw .crash) 2).runOn s).1.toOption.isSome &&
    frames.all (setsAddress s))

/-- A doubled brace is one for a text and for safe markup, and two for an address and in markup. -/
theorem braces_of_bracedMarkup : ∃ document s f i a,
    Reaches (bracedMarkup.start frameCatalog sampleSettings (· + 1) document) s ∧
      a.value = Text.ofString "a\x7b\x7bb" ∧ Segment.hasReference a.value = false ∧
      Segment.literalText a.value = Text.ofString "a\x7bb" ∧
      (∃ type setter, Sets s 2 f type i a setter (Text.quote (Segment.literalText a.value))) ∧
      (∃ type setter maker, Sets s 2 f type i a setter
        (maker ++ "(" ++ Text.quote (Segment.literalText a.value) ++ ")")) ∧
      (∃ type setter maker, Sets s 2 f type i a setter (maker ++ "(" ++ Text.quote a.value ++ ")")) ∧
      ∃ html s' name attributes children,
        (Content.renderElement (fun _ => throw .crash) (.markup false none false)
          (fun _ => throw .crash) 2).runOn s = (.ok html, s') ∧
        html = .element name attributes children ∧ (a.name.base, a.value) ∈ attributes := by
  have h : bracedMarkup.succeeds (fun document =>
      (liftM (Draft.register .plain none "f") : Work Session FieldId).runOn
        (bracedMarkup.start frameCatalog sampleSettings (· + 1) document))
      (fun _ _ s => bracedMarkupTest s) = true := by
    decide +kernel
  obtain ⟨document, f, s, -, hrun, htest⟩ := exists_of_succeeds h
  obtain ⟨hreaches, -, hf, -⟩ := hasName_register hrun
  unfold bracedMarkupTest at htest
  simp only [Bool.and_eq_true, Bool.not_eq_true', List.isEmpty_iff, Option.any_eq_true, beq_iff_eq,
    List.all_eq_true] at htest
  obtain ⟨⟨⟨⟨hbinder, himported⟩, hchildren⟩, ⟨i, a⟩, hfound, hvalue⟩, hrender, hframes⟩ := htest
  dsimp only at hvalue
  have hplain : Segment.hasReference a.value = false := by
    rw [hvalue]
    decide
  have hbase : a.name.base = "url" := (Document.mem_remaining_of_find? hfound).2.2
  obtain ⟨hsetters, hmarkup, -⟩ :=
    braces_of_addresses_and_markup_stay_doubled (e := 2) (i := i) hreaches hplain
  have hframe : ∀ frame ∈ frames, ∃ type setter p,
      frameCatalog.find? frame.2.1 frame.2.2 = some p ∧ _ := fun frame hmem =>
    (exists_of_setsAddress (hframes frame hmem)).imp fun type ⟨setter, p, hp, hset, hparams⟩ =>
      ⟨setter, p, hp, hsetters f type setter p hf (hbase ▸ hset) hparams⟩
  obtain ⟨html, hhtml⟩ := Option.isSome_iff_exists.mp hrender
  refine ⟨document, s, f, i, a, hreaches, hvalue, hplain, ?_, ?_, ?_, ?_, ?_⟩
  · rw [hvalue]
    decide
  · obtain ⟨type, setter, p, hp, hsets, -, -⟩ := hframe ("TextFrame", [], "string") (by decide)
    exact ⟨type, setter, hsets hp⟩
  · obtain ⟨type, setter, p, hp, -, hsets, -⟩ :=
      hframe ("MarkupFrame", Library.safehtmlPackage, "SafeHtml") (by decide)
    exact ⟨type, setter, _, hsets hp⟩
  · obtain ⟨type, setter, p, hp, -, -, hsets⟩ :=
      hframe ("Frame", Library.safehtmlPackage, "SafeUri") (by decide)
    exact ⟨type, setter, _, hsets hp⟩
  · have hnone : Content.Unannounced 2 s.document := by
      intro child hchild
      rw [hchildren] at hchild
      cases hchild
    rcases hrun : (Content.renderElement (fun _ => throw .crash) (.markup false none false)
      (fun _ => throw .crash) 2).runOn s with ⟨_ | html', s'⟩
    · rw [hrun] at hhtml
      cases hhtml
    · obtain ⟨name, attributes, children, hshape, hmem⟩ :=
        hmarkup _ _ _ _ _ _ _ hbinder himported hnone (hbase ▸ hfound) hrun
      exact ⟨html', s', name, attributes, children, hrun, hshape, hmem⟩

/-- The same value is one text in a setter of texts and of safe markup, and another one in an
address and in markup. -/
theorem bracedFrame_keeps_its_braces :
    Segment.hasReference "a\x7b\x7bb" = false ∧
      Segment.literalText "a\x7b\x7bb" = Text.ofString "a\x7bb" ∧
      (wovenField (bracedFrame "TextFrame") frameCatalog "f_TextFrame1").map (·.2) =
        some [Text.ofString "f_TextFrame1.SetUrl(\"a\x7bb\")"] ∧
      (wovenField (bracedFrame "MarkupFrame") frameCatalog "f_MarkupFrame1").map (·.2) =
        some [Text.ofString "f_MarkupFrame1.SetUrl(safehtml.FromTrustedString(\"a\x7bb\"))"] ∧
      (wovenField (bracedFrame "Frame") frameCatalog "f_Frame1").map (·.2) =
        some [Text.ofString "f_Frame1.SetUrl(safehtml.URIFromConstant(\"a\x7b\x7bb\"))"] ∧
      (wovenField bracedMarkup frameCatalog "f_HTMLPanel1").map (·.1) =
        some (Text.ofString "ui.NewHTMLPanel(\"<i url=\\\"a\x7b\x7bb\\\"></i>\")") := by
  decide +kernel

end Template

end ViewBinder
