-- Arguments of calls. A value for a setter is read by the parser of the keys of all parameters
-- together. Two such keys have parsers that make two arguments of a value; all other parsers make one,
-- however many parameters the setter has. The direction of a cell is no argument of a call but a part
-- of the pattern for it, so a percent sign in it is not kept.
import ViewBinder.Proofs.Attribute.Arguments
import ViewBinder.Proofs.Element.Setters
import ViewBinder.Proofs.Program.Pattern
import ViewBinder.Proofs.Template.Phases

namespace ViewBinder

open Markup (Document Attribute)
open Attribute (IsReadAsPair Parsers)
open Work (Keeps)

section Session

variable {t : Template} {ms : List Manifest} {settings : Settings} {supply : Nat → Nat}
  {document : Document} {s : Session}

/-- In a session of a template names of packages are words. -/
theorem within_of_reaches
    (hstart : Session.Reaches
      (t.start (ms.foldl Catalog.loading Catalog.bare) settings supply document) s)
    (document : Document) : Attribute.Within s.catalog { s.toDraft with document } :=
  ⟨rfl, hstart.imports (P := Imports.Named) (fun _ path preferred h => h.add path preferred) nofun⟩

/-- The keys of the catalog that a session began with lead to the same types later. -/
theorem knownIn_of_reaches
    (hstart : Session.Reaches
      (t.start (ms.foldl Catalog.loading Catalog.bare) settings supply document) s) :
    (ms.foldl Catalog.loading Catalog.bare).KnownIn s.catalog := fun _ _ hfound =>
  let hnames := hstart.names ((Catalog.loaded_loadings ms).names hfound)
  ⟨hnames.inside, hnames.key⟩

/-- What an attribute sets is set by one call of the setter. If constants of enumerations are written
as names are, the call has two arguments if the keys of the parameters are those of a pair, and one
argument otherwise; so there is one for each parameter exactly if there are as many parameters. -/
theorem setter_gets_one_argument_or_a_pair {s' : Session} {e i : Nat} {f : FieldId} {type : TypeId}
    {a : Attribute}
    (hstart : Session.Reaches
      (t.start (ms.foldl Catalog.loading Catalog.bare) settings supply document) s)
    (h : (Element.setProperty e f type i a).runOn s = (.ok true, s')) :
    ∃ setter expr d, s.catalog.setters type a.name.base = [setter] ∧
      s' = Element.addingStatement s d f
        (Element.setterCall (d.fields.field f).name setter expr) ∧
      ((∀ p, setter.params.map (·.type) = [some p] → ∀ k ∈ (s.catalog.decl p).constants,
          Code.IsArgument k.ident) →
        (IsReadAsPair (ms.foldl Catalog.loading Catalog.bare) s.catalog
            (setter.params.map (·.type)) →
          (Code.arguments expr).length = 2 ∧
            ((Code.arguments expr).length = setter.params.length ↔ setter.params.length = 2)) ∧
        (¬ IsReadAsPair (ms.foldl Catalog.loading Catalog.bare) s.catalog
            (setter.params.map (·.type)) →
          (Code.arguments expr).length = 1 ∧
            ((Code.arguments expr).length = setter.params.length ↔ setter.params.length = 1))) := by
  obtain ⟨setter, expr, d, hsetters, hparse, hadded⟩ := Element.setProperty_ok_iff.mp h
  refine ⟨setter, expr, d, hsetters, hadded, fun hconstants => ?_⟩
  rw [show s.parsers = Parsers.of (ms.foldl Catalog.loading Catalog.bare) from hstart.parsers]
    at hparse
  have hregular := Catalog.regular_loadings ms
  have hspelt := Attribute.isSpelt_get (Eq.refl (ms.foldl Catalog.loading Catalog.bare))
    (knownIn_of_reaches hstart) hstart.catalog hconstants
  have hwithin := within_of_reaches hstart (s.document.useAttribute e i)
  constructor
  · intro hpair
    have htwo := (Attribute.readsPair_get hregular).mpr hpair
    have hlists := ((Attribute.gives_two hspelt htwo e a.value).answer hwithin hparse).2
    rw [hlists.length_arguments]
    exact ⟨rfl, eq_comm⟩
  · intro hother
    have hone := Bool.eq_false_iff.mpr (mt (Attribute.readsPair_get hregular).mp hother)
    have hlists := ((Attribute.gives_one hspelt hone e a.value).answer hwithin hparse).2.lists
    rw [hlists.length_arguments]
    exact ⟨rfl, eq_comm⟩

end Session

/-! ## A box with two sizes -/

namespace Template

variable {s : Session}

/-- A library with boxes, which are sized by two numbers or by two texts. -/
def boxManifests : List Manifest :=
  sampleManifests ++
    [{ package := Library.uiPackage,
       types :=
         [{ name := "Box", kind := "class", interfaces := [Library.ui "IsWidget"],
            methods :=
              [{ name := "SetPixelSize", params := [⟨"width", "int"⟩, ⟨"height", "int"⟩] },
               { name := "SetSize", params := [⟨"width", "string"⟩, ⟨"height", "string"⟩] }],
            constructors := [{ name := "NewBox" }] }] }]

/-- The catalog of that library. -/
def boxCatalog : Catalog := boxManifests.foldl Catalog.loading Catalog.bare

/-- A box with a size of each kind. -/
def sizedBox : Template :=
  { source := "<ui:UiBinder xmlns:ui=\"urn:ui:uibind\" xmlns:g=\"urn:import:uibind.dev/ui\">" ++
      "<ui:with field=\"s\" type=\"uibind.dev/ui.Label\"/>" ++
      "<g:Box pixelSize=\"1,2\" size=\"\x7bs.text\x7d\"/></ui:UiBinder>",
    url := "View.ui.xml" }

/-- The first attribute of the name is set, by a setter of two parameters that have the key. -/
def setsSize (s : Session) (base key : Text) : Bool :=
  match s.document.find? 2 [] base, s.catalog.find? Library.uiPackage "Box" with
  | some (i, a), some type =>
    ((Element.setProperty 2 0 type i a).runOn s).1.toOption == some true &&
      (s.catalog.setters type a.name.base).map (fun m =>
        (m.params.length, Attribute.typesKey s.catalog (m.params.map (·.type)))) == [(2, key)]
  | _, _ => false

/-- So it is set by such a setter. -/
theorem exists_of_setsSize {base key : Text} (h : setsSize s base key = true) : ∃ type i a s',
    (Element.setProperty 2 0 type i a).runOn s = (.ok true, s') ∧
      ∀ setter, s.catalog.setters (some type) a.name.base = [setter] →
        setter.params.length = 2 ∧
        Attribute.typesKey s.catalog (setter.params.map (·.type)) = key := by
  unfold setsSize at h
  split at h
  · rename_i i a type _ _
    rw [Bool.and_eq_true, beq_iff_eq, beq_iff_eq] at h
    obtain ⟨hrun, hsetters⟩ := h
    rcases hresult : (Element.setProperty 2 0 type i a).runOn s with ⟨answer, s'⟩
    rw [hresult] at hrun
    obtain rfl := ok_of_toOption hrun
    refine ⟨type, i, a, s', hresult, fun setter hsetter => ?_⟩
    rw [hsetter, List.map_singleton, List.cons.injEq] at hsetters
    exact Prod.mk.inj hsetters.1
  · cases h

/-- The box gets two arguments for its size in pixels, and one for the two parameters of its size. -/
theorem arguments_of_sizedBox : ∃ document, ∃ s : Session,
    s = sizedBox.start boxCatalog sampleSettings (· + 1) document ∧
      (∃ type i a s' setter expr,
        (Element.setProperty 2 0 type i a).runOn s = (.ok true, s') ∧
          s.catalog.setters (some type) a.name.base = [setter] ∧
          (Code.arguments expr).length = setter.params.length) ∧
      ∃ type i a s' setter expr,
        (Element.setProperty 2 0 type i a).runOn s = (.ok true, s') ∧
          s.catalog.setters (some type) a.name.base = [setter] ∧
          (Code.arguments expr).length = 1 ∧ setter.params.length = 2 := by
  have h : sizedBox.succeeds (fun document =>
      (.ok (), sizedBox.start boxCatalog sampleSettings (· + 1) document)) (fun _ _ s =>
        setsSize s "pixelSize" "int,int" && setsSize s "size" "string,string") = true := by
    decide +kernel
  obtain ⟨document, _, s, -, hrun, htest⟩ := exists_of_succeeds h
  have hstart : sizedBox.start boxCatalog sampleSettings (· + 1) document = s :=
    (Prod.mk.inj hrun).2
  have hreaches : Session.Reaches (sizedBox.start (boxManifests.foldl Catalog.loading Catalog.bare)
      sampleSettings (· + 1) document) s := hstart ▸ Session.Reaches.refl _
  have hno : ∀ {setter : Method}, setter.params.length = 2 →
      ∀ p, setter.params.map (·.type) ≠ [some p] := by
    intro setter htwo p hp
    have hlength := congrArg List.length hp
    rw [List.length_map, htwo] at hlength
    cases hlength
  rw [Bool.and_eq_true] at htest
  refine ⟨document, s, hstart.symm, ?_, ?_⟩
  · obtain ⟨type, i, a, s', hset, hsetter⟩ := exists_of_setsSize htest.1
    obtain ⟨setter, expr, d, hsetters, -, hcount⟩ :=
      setter_gets_one_argument_or_a_pair hreaches hset
    obtain ⟨htwo, hkey⟩ := hsetter setter hsetters
    refine ⟨type, i, a, s', setter, expr, hset, hsetters, ?_⟩
    exact ((hcount fun p hp => absurd hp (hno htwo p)).1 (Or.inl hkey)).2.mpr htwo
  · obtain ⟨type, i, a, s', hset, hsetter⟩ := exists_of_setsSize htest.2
    obtain ⟨setter, expr, d, hsetters, -, hcount⟩ :=
      setter_gets_one_argument_or_a_pair hreaches hset
    obtain ⟨htwo, hkey⟩ := hsetter setter hsetters
    refine ⟨type, i, a, s', setter, expr, hset, hsetters, ?_, htwo⟩
    refine ((hcount fun p hp => absurd hp (hno htwo p)).2 ?_).1
    -- two texts are no pair
    unfold IsReadAsPair
    rw [hkey]
    rintro (hints | ⟨hlength, -⟩)
    · exact absurd hints (by decide)
    · exact absurd hlength (by decide)

/-- The statement for the size of the box has one argument, and its setter has two parameters. -/
theorem size_of_sizedBox_is_one_argument :
    wovenField sizedBox boxCatalog "f_Box1" = some (Text.ofString "ui.NewBox()",
        [Text.ofString "f_Box1.SetPixelSize(1, 2)", Text.ofString "f_Box1.SetSize(s.Text())"]) ∧
      (Code.arguments "1, 2").length = 2 ∧ (Code.arguments "s.Text()").length = 1 ∧
      (boxCatalog.find? Library.uiPackage "Box").map (fun type =>
        (boxCatalog.setters (some type) "size").map (·.params.length)) = some [2] := by
  decide +kernel

end Template

/-! ## Cells with a direction -/

namespace Element

open Session

variable {build : Builder} {s s' : Session} {f : FieldId}

/-- Calls one after the other are all that is added to a field. -/
theorem calls_ok (widget : Text) (given : List (Text × Text)) (hf : f < s.fields.fields.size)
    (h : (forIn given PUnit.unit fun (p : Text × Text) _ => do
      call f p.1 [widget, p.2]
      pure (ForInStep.yield PUnit.unit) : Work Session PUnit).runOn s = (.ok PUnit.unit, s')) :
    (s'.fields.field f).statements = (s.fields.field f).statements ++
      given.map fun p => callText ((s.fields.field f).name ++ "." ++ p.1) [widget, p.2] := by
  induction given generalizing s with
  | nil =>
    cases h
    rw [List.map_nil, List.append_nil]
  | cons p rest ih =>
    rw [List.forIn_cons] at h
    obtain ⟨_, s₁, hcall, hrest⟩ := Work.bind_ok h
    obtain ⟨_, s₂, hadd, hyield⟩ := Work.bind_ok hcall
    cases hadd
    cases hyield
    rw [ih (by simpa using hf) hrest]
    simp only [FieldTable.field_change_self hf, Field.withStatement, List.map_cons, callText,
      List.append_assoc, List.singleton_append]

/-- The first statement that the panel gets with the widget of a cell is the pattern, filled in with
the panel and the widget. -/
theorem cell_ok [∀ e, Keeps (Runs false []) (build e)] {tag : Nat} {pattern : Text}
    (hf : f < s.fields.fields.size) (h : (cell build f tag pattern).runOn s = (.ok (), s')) :
    ∃ (s₁ : Session) (g : FieldId) (s₂ : Session) (given : List (Text × Text)),
      Run s s₁ ∧ (onlyWidget build tag).runOn s₁ = (.ok g, s₂) ∧
      (s'.fields.field f).statements = (s₂.fields.field f).statements ++
        Pattern.fill pattern [(s₂.fields.field f).name, (s₂.fields.field g).name] ::
          given.map fun p =>
            callText ((s₂.fields.field f).name ++ "." ++ p.1) [(s₂.fields.field g).name, p.2] := by
  unfold cell at h
  obtain ⟨given, s₁, hgiven, h⟩ := Work.bind_ok h
  have hread : Run s s₁ := by
    refine (Keeps.mapM' fun _ => ?_ : Keeps (Runs false []) _).keeps hgiven (ready_any s)
    repeat' (first | infer_instance | split | refine Keeps.bind' inferInstance fun _ => ?_)
  obtain ⟨_, s₂, hempty, h⟩ := Work.bind_ok h
  have hrun : Run s s₂ :=
    hread.trans (Keeps.keeps (R := Runs false []) hempty (ready_any s₁))
  obtain ⟨g, s₃, hwidget, h⟩ := Work.bind_ok h
  have hbuilt : Run s₂ s₃ := Keeps.keeps (R := Runs false []) hwidget (ready_any s₂)
  have hf₃ : f < s₃.fields.fields.size :=
    Nat.lt_of_lt_of_le hf (hrun.trans hbuilt).fields.extends.size
  obtain ⟨name, s₄, huse, h⟩ := Work.bind_ok h
  have huse : name = (s₃.fields.field g).name ∧
      s₄ = { s₃ with fields := s₃.fields.change g ({ · with used := true }) } := by
    cases huse
    exact ⟨s₃.fields.field_change_apply g g _ (·.name) fun _ => rfl, rfl⟩
  obtain ⟨rfl, rfl⟩ := huse
  obtain ⟨_, _, hname, h⟩ := Work.bind_ok h
  cases hname
  obtain ⟨_, s₅, hadd, h⟩ := Work.bind_ok h
  obtain ⟨_, s₆, hcalls, hend⟩ := Work.bind_ok h
  cases hend
  have hsame : ∀ {α : Type} (p : Field → α), (∀ x, p { x with used := true } = p x) →
      p ((s₃.fields.change g ({ · with used := true })).field f) = p (s₃.fields.field f) :=
    fun p hp => s₃.fields.field_change_apply g f _ p hp
  cases hadd
  have hf₄ : f < (s₃.fields.change g ({ · with used := true })).fields.size := by
    simpa using hf₃
  refine ⟨s₂, g, s₃, given.filterMap id, hrun, hwidget, ?_⟩
  rw [calls_ok _ _ (by simpa using hf₃) hcalls]
  simp only [FieldTable.field_change_self hf₄, Field.withStatement, List.append_assoc,
    List.singleton_append]
  rw [hsame (·.name) fun _ => rfl, hsame (·.statements) fun _ => rfl]

/-- Names of fields are made of the characters of names. -/
theorem isNamed_field {t : FieldTable} (h : t.WellFormed) (id : FieldId) :
    Pattern.IsNamed (t.field id).name := by
  by_cases hid : id < t.fields.size
  · exact (h.plain id hid).part
  · have hnone : (t.field id).name = [] := by
      unfold FieldTable.field
      rw [Array.getElem?_eq_none (Nat.le_of_not_lt hid)]
      rfl
    rw [hnone]
    exact nofun

end Element

section Session

variable {t : Template} {c : Catalog} {settings : Settings} {supply : Nat → Nat}
  {document : Document} {s s' : Session} {f : FieldId}

/-- A cell with a direction adds its widget by a pattern into which the expression of the direction is
written, so the expression reaches the call as it is exactly if no percent sign stands in it. The
attributes of the cell follow, and their expressions always do. -/
theorem direction_is_kept_iff_no_percent_sign {fuel e child : Nat} {type : TypeId}
    (hstart : Session.Reaches (t.start c settings supply document) s)
    (hf : f < s.fields.fields.size)
    (h : (Element.dockCell (Element.buildWithin fuel) e f type child).runOn s = (.ok (), s')) :
    ∃ (method : Method) (widget direction : Param) (x : Text) (s₁ s₂ : Session) (g : FieldId)
      (s₃ : Session) (statement : Text) (given : List (Text × Text)),
      s.catalog.method? type "AddAt" = some method ∧ method.params = [widget, direction] ∧
      (Session.takeRequired child "direction" [direction.type]).runOn s = (.ok x, s₁) ∧
      Session.Run s₁ s₂ ∧
      (Element.onlyWidget (Element.buildWithin fuel) child).runOn s₂ = (.ok g, s₃) ∧
      (s'.fields.field f).statements = (s₃.fields.field f).statements ++ statement ::
        given.map (fun p => Element.callText ((s.fields.field f).name ++ "." ++ p.1)
          [(s₃.fields.field g).name, p.2]) ∧
      statement = Pattern.fill ("%s.AddAt(%s, " ++ x ++ ")")
        [(s.fields.field f).name, (s₃.fields.field g).name] ∧
      (statement = Element.callText ((s.fields.field f).name ++ ".AddAt")
        [(s₃.fields.field g).name, x] ↔ '%'.toUInt8 ∉ x) := by
  unfold Element.dockCell at h
  obtain ⟨c, _, hget, h⟩ := Work.bind_ok h
  cases hget
  split at h
  · rename_i name widget direction returns static hmethod
    obtain ⟨x, s₁, hx, hcell⟩ := Work.bind_ok h
    have hread : Session.Run s s₁ := Keeps.keeps (R := Session.Runs false []) hx (Session.ready_any s)
    obtain ⟨s₂, g, s₃, given, hrun, hwidget, hadded⟩ :=
      Element.cell_ok (Nat.lt_of_lt_of_le hf hread.fields.extends.size) hcell
    have hbuilt : Session.Run s₂ s₃ :=
      Keeps.keeps (R := Session.Runs false []) hwidget (Session.ready_any s₂)
    have hwhole := (hread.trans hrun).trans hbuilt
    have hname : (s₃.fields.field f).name = (s.fields.field f).name :=
      (hwhole.fields.extends.field f hf).name
    have hstarted := hstart.fields.wellFormed FieldTable.wellFormed_empty
    have hformed := hwhole.fields.wellFormed hstarted
    rw [hname] at hadded
    refine ⟨_, widget, direction, x, s₁, s₂, g, s₃, _, given, hmethod, rfl, hx, hrun, hwidget, hadded,
      rfl, ?_⟩
    have hpattern : Text.ofString "%s.AddAt(%s, " =
        Text.ofString "%s." ++ Text.ofString "AddAt" ++ Text.ofString "(%s, " := rfl
    have hcall : ∀ panel child : Text, Element.callText (panel ++ ".AddAt") [child, x] =
        panel ++ "." ++ "AddAt" ++ "(" ++ child ++ ", " ++ x ++ ")" := by
      intro panel child
      have hname : Text.ofString ".AddAt" = Text.ofString "." ++ Text.ofString "AddAt" := rfl
      simp only [Element.callText, Text.join, List.intercalate_cons_cons,
        List.intercalate_singleton, hname, List.append_assoc]
    rw [hpattern, hcall]
    exact Pattern.fill_call_iff (by decide) (Element.isNamed_field hstarted f)
      (Element.isNamed_field hformed g) x
  · cases h

end Session

/-! ## A label in a cell with a direction -/

namespace Template

/-- A library with a panel of cells that takes any text for a direction. -/
def spreadManifests : List Manifest :=
  sampleManifests ++
    [{ package := Library.uiPackage,
       types :=
         [{ name := "CellPanel", kind := "class",
            interfaces := [Library.ui "IsWidget", Library.ui "HasWidgets"] },
          { name := "Spread", kind := "class", super := Library.ui "CellPanel",
            methods :=
              [{ name := "AddAt",
                 params := [⟨"widget", Library.ui "IsWidget"⟩, ⟨"direction", "string"⟩] }],
            constructors := [{ name := "NewSpread" }] }] }]

/-- The catalog of that library. -/
def spreadCatalog : Catalog := spreadManifests.foldl Catalog.loading Catalog.bare

/-- A label in a cell with a direction. -/
def dockedLabel (direction : Text) : Template :=
  { source := "<ui:UiBinder xmlns:ui=\"urn:ui:uibind\" xmlns:g=\"urn:import:uibind.dev/ui\">" ++
      "<g:Spread><g:Dock direction=\"" ++ direction ++
      "\"><g:Label/></g:Dock></g:Spread></ui:UiBinder>",
    url := "View.ui.xml" }

/-- The session of the label in which the panel has been declared. -/
def spreadDeclared (direction : Text) (document : Document) :
    Except Failure FieldId × Session :=
  Work.runOn (Draft.register .plain none "spread" : Work Session FieldId)
    ((dockedLabel direction).start spreadCatalog sampleSettings (· + 1) document)

/-- The direction is read as the expression, and the cell is added to the panel. -/
def docksLabel (expr : Text) (f : FieldId) (s : Session) : Bool :=
  match s.catalog.find? Library.uiPackage "Spread" with
  | some type =>
    match s.catalog.method? type "AddAt" with
    | some ⟨_, [_, direction], _, _⟩ =>
      ((Session.takeRequired 2 "direction" [direction.type]).runOn s).1.toOption == some expr &&
        ((Element.dockCell (Element.buildWithin 1) 1 f type 2).runOn s).1.toOption.isSome
    | _ => false
  | none => false

/-- So the cell can be added, and its direction is that expression. -/
theorem exists_of_docksLabel {expr : Text} {f : FieldId} {s : Session}
    (h : docksLabel expr f s = true) : ∃ type s',
      (Element.dockCell (Element.buildWithin 1) 1 f type 2).runOn s = (.ok (), s') ∧
      ∀ method widget direction x s₁, s.catalog.method? type "AddAt" = some method →
        method.params = [widget, direction] →
        (Session.takeRequired 2 "direction" [direction.type]).runOn s = (.ok x, s₁) → x = expr := by
  unfold docksLabel at h
  split at h
  · rename_i type _
    split at h
    · rename_i name widget direction returns static hmethod
      rw [Bool.and_eq_true, beq_iff_eq] at h
      obtain ⟨hread, hadded⟩ := h
      rcases hrun : (Element.dockCell (Element.buildWithin 1) 1 f type 2).runOn s with ⟨answer, s'⟩
      rw [hrun] at hadded
      obtain ⟨⟨⟩, hanswer⟩ := Option.isSome_iff_exists.mp hadded
      obtain rfl := ok_of_toOption hanswer
      refine ⟨type, s', hrun, fun method widget' direction' x s₁ hsame hparams hx => ?_⟩
      rw [hmethod] at hsame
      obtain rfl := Option.some.inj hsame
      cases hparams
      rw [hx] at hread
      exact Option.some.inj hread
    · cases h
  · cases h

/-- The panel gets its label with a direction that is no pattern. -/
theorem plain_direction_of_dockedLabel : ∃ document, ∃ s s' : Session, ∃ f type widget,
    spreadDeclared "north" document = (.ok f, s) ∧
      (Element.dockCell (Element.buildWithin 1) 1 f type 2).runOn s = (.ok (), s') ∧
      Element.callText ((s.fields.field f).name ++ ".AddAt") [widget, "\"north\""] ∈
        (s'.fields.field f).statements := by
  have htest : (dockedLabel "north").succeeds (spreadDeclared "north")
      (fun _ f s => decide (f < s.fields.fields.size) && docksLabel "\"north\"" f s) = true := by
    decide +kernel
  obtain ⟨document, f, s, -, hrun, hdocks⟩ := exists_of_succeeds htest
  rw [Bool.and_eq_true, decide_eq_true_eq] at hdocks
  obtain ⟨type, s', hcell, hread⟩ := exists_of_docksLabel hdocks.2
  have hreaches : Session.Reaches
      ((dockedLabel "north").start spreadCatalog sampleSettings (· + 1) document) s := by
    obtain ⟨fields, hregister, rfl⟩ := Session.register_ok hrun
    exact (Session.Step.declare hregister).reaches
  obtain ⟨method, widget, direction, x, s₁, s₂, g, s₃, statement, given, hmethod, hparams, hx, -, -,
    hadded, -, hkept⟩ := direction_is_kept_iff_no_percent_sign hreaches hdocks.1 hcell
  obtain rfl := hread _ _ _ _ _ hmethod hparams hx
  refine ⟨document, s, s', f, type, (s₃.fields.field g).name, hrun, hcell, ?_⟩
  rw [hadded, ← hkept.mpr (by decide)]
  exact List.mem_append_right _ List.mem_cons_self

/-- A percent sign asks for an argument that is not there, so the call is broken. -/
theorem percent_sign_of_dockedLabel_breaks_its_call :
    (dockedLabel "50%").succeeds (spreadDeclared "50%")
      (fun _ f s => docksLabel "\"50%\"" f s) = true ∧
    wovenField (dockedLabel "50%") spreadCatalog "f_Spread1" = some (Text.ofString "ui.NewSpread()",
      [Text.ofString "f_Spread1.AddAt(f_Label2, \"50%!\"(MISSING))"]) ∧
    Text.ofString "f_Spread1.AddAt(f_Label2, \"50%!\"(MISSING))" ≠
      Element.callText "f_Spread1.AddAt" ["f_Label2", "\"50%\""] := by
  decide +kernel

end Template

end ViewBinder
