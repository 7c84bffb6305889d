-- The phases of a program. A field is assigned to in the first phase if it has an expression that
-- makes it, and while its markup is attached if it has none; statements of the first phase that
-- refer to a field of the other kind read it before it is there. The second phase is made of sections,
-- which are well bracketed however elements are nested and whatever fails.
import ViewBinder.Proofs.Template.Stages

namespace ViewBinder

open Markup (Document)
open Session (Run)
open Work (Keeps Leads)

/-! ## Compiling -/

namespace Template

/-- What is known when a template was compiled: of its fields, of its references, and of the program
made of them. -/
structure Done (compiled : Compiled) (s : Session) : Prop where
  wellFormed : s.fields.WellFormed
  settled : ∀ id < s.fields.fields.size, (s.fields.field id).initializer.isSome ∨
    ∃ part ∈ s.sections.finished, ∃ expr,
      (s.fields.field id).name ++ " = " ++ expr ∈ part.statements
  resolved : ∀ r ∈ s.fields.references, ∃ n id expr adapted,
    Draft.Resolved s.toDraft r n id expr adapted
  construct : ∃ order, s.fields.constructionOrder = .ok order ∧
    compiled.program.construct = (order.map s.fields.field).flatMap Assembly.constructLines
  attach : ∃ function, compiled.program.attach = s.sections.render function
  woven : ∃ text, s.markers.Expands compiled.program.render text

theorem compileDocument_done {t : Template} {c : Catalog} {settings : Settings}
    {supply : Nat → Nat} (hsupply : Function.Injective supply) {document : Document}
    {compiled : Compiled} {s : Session}
    (h : (t.compileDocument settings).runOn (t.start c settings supply document) =
      (.ok compiled, s)) : Done compiled s := by
  obtain ⟨built, root, hstages⟩ := compileDocument_stages hsupply h
  obtain ⟨order, horder, hconstruct, -⟩ := hstages.assembled.order
  exact ⟨hstages.wellFormed, fun id hid => hstages.settled hid, hstages.finishes.resolved,
    ⟨order, horder, hconstruct⟩, hstages.assembled.attach, hstages.woven⟩

end Template

/-! ## Assignments -/

/-- A statement of a finished section is one of the lines of the sections. -/
theorem Sections.mem_render {s : Sections} {part : Section} {line : Text} (hpart : part ∈ s.finished)
    (hline : line ∈ part.statements) (attach : Text) : line ∈ s.render attach := by
  obtain ⟨i, hi, heq⟩ := List.mem_iff_getElem.mp hpart
  unfold Sections.render
  refine List.mem_flatMap.mpr ⟨(part, i), ?_, ?_⟩
  · rw [List.mem_zipIdx_iff_getElem?, List.getElem?_eq_getElem hi, heq]
  · unfold Sections.block
    exact List.mem_cons_of_mem _ (List.mem_append_left _ hline)

/-- Some statement assigns to a local. -/
def Assigns (statements : List Text) (name : Text) : Prop :=
  ∃ expr, name ++ " = " ++ expr ∈ statements

namespace Template.Done

variable {compiled : Compiled} {s : Session}

/-- The first phase assigns to a field the expression that makes it, and nothing else. -/
theorem mem_construct_iff (h : Done compiled s) {id : FieldId} (hid : id < s.fields.fields.size)
    {expr : Text} :
    (s.fields.field id).name ++ " = " ++ expr ∈ compiled.program.construct ↔
      (s.fields.field id).initializer = some expr := by
  obtain ⟨order, horder, hconstruct⟩ := h.construct
  have hperm := (FieldTable.constructionOrder_spec horder).2
  rw [hconstruct]
  constructor
  · intro hline
    obtain ⟨f, hf, hline⟩ := List.mem_flatMap.mp hline
    obtain ⟨other, hother, rfl⟩ := List.mem_map.mp hf
    have hlt := List.mem_range.mp (hperm.mem_iff.mp hother)
    have hname := (h.wellFormed.plain id hid).part
    have hname' := (h.wellFormed.plain other hlt).part
    have hblank : Text.isNamePart ' '.toUInt8.toNat = false := by decide
    have hdot : Text.isNamePart '.'.toUInt8.toNat = false := by decide
    unfold Assembly.constructLines at hline
    split at hline
    · rename_i made hmade
      rcases List.mem_cons.mp hline with hfirst | hstatement
      · -- the line that makes the other field, so it is the field
        have hsplit := hfirst
        rw [List.append_assoc, List.append_assoc] at hsplit
        obtain ⟨hsame, -⟩ := Text.append_inj_of_part hname hname' hblank hblank hsplit
        obtain rfl := h.wellFormed.unique id hid other hlt hsame
        rw [hmade, List.append_cancel_left hfirst]
      · obtain ⟨rest, hcall⟩ := h.wellFormed.calls other hlt _ hstatement
        rw [List.append_assoc, List.append_assoc] at hcall
        obtain ⟨-, hbyte⟩ := Text.append_inj_of_part hname hname' hblank hdot hcall
        exact absurd hbyte (by decide)
    · cases hline
  · intro hmade
    refine List.mem_flatMap.mpr ⟨s.fields.field id, ?_, ?_⟩
    · exact List.mem_map_of_mem (hperm.mem_iff.mpr (List.mem_range.mpr hid))
    · unfold Assembly.constructLines
      rw [hmade]
      exact List.mem_cons_self

/-- The first phase assigns to a field if there is an expression that makes it, and only then. -/
theorem assigns_construct_iff (h : Done compiled s) {id : FieldId}
    (hid : id < s.fields.fields.size) :
    Assigns compiled.program.construct (s.fields.field id).name ↔
      (s.fields.field id).initializer.isSome := by
  unfold Assigns
  simp only [h.mem_construct_iff hid, Option.isSome_iff_exists]

/-- A field without such an expression is assigned to while its markup is attached. -/
theorem assigns_attach (h : Done compiled s) {id : FieldId} (hid : id < s.fields.fields.size)
    (hlate : (s.fields.field id).initializer = none) :
    Assigns compiled.program.attach (s.fields.field id).name := by
  obtain ⟨function, hattach⟩ := h.attach
  rcases h.settled id hid with hmade | ⟨part, hpart, expr, hline⟩
  · rw [hlate] at hmade
    cases hmade
  · exact ⟨expr, hattach ▸ Sections.mem_render hpart hline function⟩

end Template.Done

/-! ## Reading fields -/

namespace Draft

/-- Accessors come behind the expression they start from. -/
theorem follow_expr {d : Draft} {r : FieldReference} {segments : List Text}
    {type found : Option TypeId} {expr result : Text}
    (h : d.follow r segments type expr = .ok (found, result)) :
    result = expr ∨ ∃ rest, result = expr ++ '.'.toUInt8 :: rest := by
  induction segments generalizing type expr with
  | nil =>
    cases h
    exact Or.inl rfl
  | cons segment segments ih =>
    unfold follow at h
    split at h
    · rename_i getter _
      have hbehind : expr ++ Text.ofString "." ++ getter.name ++ Text.ofString "()" =
          expr ++ '.'.toUInt8 :: (getter.name ++ Text.ofString "()") := by
        rw [List.append_assoc, List.append_assoc]
        rfl
      rcases ih h with rfl | ⟨rest, rfl⟩
      · exact Or.inr ⟨_, hbehind⟩
      · refine Or.inr ⟨getter.name ++ Text.ofString "()" ++ '.'.toUInt8 :: rest, ?_⟩
        rw [hbehind, List.append_assoc]
        rfl
    · cases h

/-- A reference leads from a field of the table to an expression that begins with its name. -/
theorem target_ok {d : Draft} {r : FieldReference} {id : FieldId} {type : Option TypeId}
    {expr : Text} (h : d.target r = .ok (id, type, expr)) :
    id < d.fields.fields.size ∧ (expr = (d.fields.field id).name ∨
      ∃ rest, expr = (d.fields.field id).name ++ '.'.toUInt8 :: rest) := by
  unfold target at h
  split at h
  · cases h
  · rename_i other hfind
    have hlt := (FieldTable.byName?_eq_some hfind).1
    dsimp only at h
    cases hfollow : d.follow r (r.segments.drop 1) (d.fields.field other).type
        (d.fields.field other).name with
    | error p =>
      rw [hfollow] at h
      cases h
    | ok found =>
      rw [hfollow] at h
      cases h
      exact ⟨hlt, follow_expr hfollow⟩

end Draft

namespace Markers

variable {m : Markers}

/-- What the expression of a reference stands for begins with the name of the field. -/
theorem expands_access {name expr w : Text} (hname : Text.IsPlainName name)
    (hexpr : expr = name ∨ ∃ rest, expr = name ++ '.'.toUInt8 :: rest) (h : m.Expands expr w) :
    name <+: w := by
  have hdash : '-'.toUInt8 ∉ name := fun hmem => absurd (hname.part _ hmem) (by decide)
  have hself : m.Expands name name := expands_of_noDash hdash
  rcases hexpr with rfl | ⟨rest, rfl⟩
  · exact ExpandsTo.unique h hself ▸ List.prefix_refl _
  · obtain ⟨v, u, hv, -, rfl⟩ := (expands_append_break (by decide) _ _ _).mp h
    rw [ExpandsTo.unique hv hself]
    exact List.prefix_append _ _

/-- What an adapted expression stands for holds what the expression stands for. -/
theorem expands_adapted {c : Catalog} {wanted actual : Option TypeId} {expr adapted w : Text}
    (hadapt : Draft.adapt? c wanted actual expr = some adapted) (h : m.Expands adapted w) :
    ∃ v, m.Expands expr v ∧ v <:+: w := by
  have hstar : m.Expands (Text.ofString "*" ++ expr) w → ∃ v, m.Expands expr v ∧ v <:+: w := by
    intro h
    obtain ⟨v, u, -, hu, rfl⟩ := (expands_append_break (b := '*'.toUInt8) (by decide) [] _ _).mp h
    exact ⟨u, hu, ((List.suffix_cons _ _).trans (List.suffix_append _ _)).isInfix⟩
  cases Draft.adapts_of_adapt? hadapt with
  | same _ => exact ⟨w, h, List.infix_refl _⟩
  | deref _ => exact hstar h
  | box _ _ =>
    have hbox : Program.box (c.simpleName wanted) expr =
        (Text.ofString "func() " ++ c.simpleName wanted ++ Text.ofString " \x7b v :=") ++
          ' '.toUInt8 :: (expr ++ ';'.toUInt8 :: Text.ofString " return &v \x7d()") := by
      unfold Program.box
      simp only [List.append_assoc]
      rfl
    rw [hbox] at h
    obtain ⟨_, _, -, hinner, rfl⟩ := (expands_append_break (by decide) _ _ _).mp h
    obtain ⟨v, u, hv, -, rfl⟩ := (expands_append_break (by decide) _ _ _).mp hinner
    exact ⟨v, hv, (List.prefix_append v _).isInfix.trans
      ((List.suffix_cons _ _).trans (List.suffix_append _ _)).isInfix⟩

end Markers

/-- A statement reads a field: it holds the marker of a reference that starts from the field. -/
def Draft.Reads (d : Draft) (statement : Text) (id : FieldId) : Prop :=
  ∃ r ∈ d.fields.references, ∃ n type expr, Marker.id? r.marker = some n ∧
    d.markers.Reads n statement ∧ d.target r = .ok (id, type, expr)

namespace Template

/-- What a statement of the first phase reads stands in the finished program by its name. -/
theorem Done.reads {compiled : Compiled} {s : Session} (h : Done compiled s) {line : Text}
    (hline : line ∈ compiled.program.construct) {id : FieldId} (hreads : s.toDraft.Reads line id) :
    id < s.fields.fields.size ∧
      ∃ woven, s.markers.Expands line woven ∧ (s.fields.field id).name <:+: woven := by
  obtain ⟨r, hr, n, type, expr, hmarker, hread, htarget⟩ := hreads
  obtain ⟨hid, hexpr⟩ := Draft.target_ok htarget
  obtain ⟨text, htext⟩ := h.woven
  have hstatement : line ∈ compiled.program.statements := by
    unfold Program.statements
    simp only [List.append_assoc]
    exact List.mem_append_left _ hline
  obtain ⟨woven, hwoven, -⟩ := Markers.expands_statement htext hstatement
  refine ⟨hid, woven, hwoven, ?_⟩
  obtain ⟨n', id', expr', adapted, hmarker', ⟨type', htarget', hfit⟩, entry, hfind, hknown⟩ :=
    h.resolved r hr
  rw [hmarker] at hmarker'
  cases hmarker'
  rw [htarget] at htarget'
  cases htarget'
  obtain ⟨entry', value, v, hfind', hknown', hv, hinfix⟩ := hread.infix hwoven
  rw [hfind] at hfind'
  cases hfind'
  rw [hknown] at hknown'
  cases hknown'
  have hstart : ∃ u, s.markers.Expands expr u ∧ u <:+: v := by
    unfold Draft.fit at hfit
    split at hfit
    · cases hfit
      exact ⟨v, hv, List.infix_refl _⟩
    · split at hfit
      · rename_i found hfound
        cases hfit
        obtain ⟨wanted, -, hadapt⟩ := List.exists_of_findSome?_eq_some hfound
        exact Markers.expands_adapted hadapt hv
      · cases hfit
  obtain ⟨u, hu, huv⟩ := hstart
  have hname := Markers.expands_access (h.wellFormed.plain id hid) hexpr hu
  exact (hname.isInfix.trans huv).trans hinfix

/-- The statement comes before any that assigns to the local, and one that does follows. -/
def Before (statements : List Text) (line name : Text) : Prop :=
  ∃ front back, statements = front ++ line :: back ∧ ¬ Assigns (front ++ [line]) name ∧
    Assigns back name

/-- A statement of the first phase comes before what assigns to a field that no expression makes. -/
theorem Done.before {compiled : Compiled} {s : Session} (h : Done compiled s) {line : Text}
    (hline : line ∈ compiled.program.construct) {id : FieldId} (hid : id < s.fields.fields.size)
    (hlate : (s.fields.field id).initializer = none) :
    Before compiled.program.statements line (s.fields.field id).name := by
  have hnever : ¬ Assigns compiled.program.construct (s.fields.field id).name := by
    rw [h.assigns_construct_iff hid, hlate]
    exact Bool.false_ne_true
  obtain ⟨expr, hassigned⟩ := h.assigns_attach hid hlate
  obtain ⟨front, back, hconstruct⟩ := List.append_of_mem hline
  refine ⟨front, back ++ (compiled.program.attach ++ (compiled.program.detach ++
    compiled.program.trailing)), ?_, ?_, expr, ?_⟩
  · unfold Program.statements
    rw [hconstruct]
    simp only [List.append_assoc, List.cons_append]
  · rintro ⟨expr, hmem⟩
    refine hnever ⟨expr, ?_⟩
    rw [hconstruct, List.append_cons]
    exact List.mem_append_left _ hmem
  · exact List.mem_append_right _ (List.mem_append_left _ hassigned)

/-- Statements of the first phase read whatever they refer to: fields that the phase makes, and
fields that are assigned to only later, while their markup is attached. So the phase is in time with
its fields exactly when none of its statements refers to a field that no expression makes; one that
does comes before anything is assigned to the field. -/
theorem first_phase_reads_what_it_makes_iff {t : Template} {c : Catalog} {settings : Settings}
    {supply : Nat → Nat} {document : Document} {compiled : Compiled} {s : Session}
    (hsupply : Function.Injective supply)
    (h : (t.compileDocument settings).runOn (t.start c settings supply document) =
      (.ok compiled, s)) :
    (∀ line ∈ compiled.program.construct, ∀ id, s.toDraft.Reads line id →
      id < s.fields.fields.size ∧
        ∃ woven, s.markers.Expands line woven ∧ (s.fields.field id).name <:+: woven) ∧
    (∀ id < s.fields.fields.size, (s.fields.field id).initializer = none ↔
      ¬Assigns compiled.program.construct (s.fields.field id).name ∧
        Assigns compiled.program.attach (s.fields.field id).name) ∧
    ((∀ line ∈ compiled.program.construct, ∀ id, s.toDraft.Reads line id →
        Assigns compiled.program.construct (s.fields.field id).name) ↔
      ∀ line ∈ compiled.program.construct, ∀ id, s.toDraft.Reads line id →
        (s.fields.field id).initializer ≠ none) ∧
    ∀ line ∈ compiled.program.construct, ∀ id, s.toDraft.Reads line id →
      (s.fields.field id).initializer = none →
        Before compiled.program.statements line (s.fields.field id).name := by
  have hdone := compileDocument_done hsupply h
  refine ⟨fun line hline id hreads => hdone.reads hline hreads, fun id hid => ?_, ?_,
    fun line hline id hreads => hdone.before hline (hdone.reads hline hreads).1⟩
  · constructor
    · intro hlate
      refine ⟨fun hassigns => ?_, hdone.assigns_attach hid hlate⟩
      rw [hdone.assigns_construct_iff hid, hlate] at hassigns
      cases hassigns
    · rintro ⟨hnever, -⟩
      rwa [hdone.assigns_construct_iff hid, Option.not_isSome_iff_eq_none] at hnever
  · refine forall₄_congr fun line hline id hreads => ?_
    rw [hdone.assigns_construct_iff (hdone.reads hline hreads).1, Option.isSome_iff_ne_none]

/-! ## A field read too early -/

/-- A library of few types: labels, panels, and elements of markup. -/
def sampleManifests : List Manifest :=
  [{ package := Library.domPackage,
     types := [{ name := "Element", kind := "class",
                 methods := [{ name := "ID", returns := "string" }] }],
     domTags := [("", Library.dom "Element")] },
   { package := Library.uiPackage,
     types :=
       [{ name := "IsWidget", kind := "interface" }, { name := "HasWidgets", kind := "interface" },
        { name := "Label", kind := "class", interfaces := [Library.ui "IsWidget"],
          methods := [{ name := "Text", returns := "string" },
            { name := "SetText", params := [⟨"text", "string"⟩] }],
          constructors := [{ name := "NewLabel" }] },
        { name := "FlowPanel", kind := "class",
          interfaces := [Library.ui "IsWidget", Library.ui "HasWidgets"],
          constructors := [{ name := "NewFlowPanel" }] },
        { name := "HTMLPanel", kind := "class", interfaces := [Library.ui "IsWidget"],
          constructors := [{ name := "NewHTMLPanel", params := [⟨"html", "string"⟩] }] }] }]

/-- The catalog of that library. -/
def sampleCatalog : Catalog := sampleManifests.foldl Catalog.loading Catalog.bare

/-- Settings under which a program is left as it is written. -/
def sampleSettings : Settings := { format := false }

/-- What makes a field of a template, and its statements, as they stand in the program. -/
def wovenField (t : Template) (c : Catalog) (name : Text) : Option (Text × List Text) := do
  let document ← (Document.load t.source t.url).toOption
  let (answer, s) := (t.compileDocument sampleSettings).runOn
    (t.start c sampleSettings (· + 1) document)
  let _ ← answer.toOption
  let weave (text : Text) := ((Markers.weave text).runOn s.markers).1.toOption
  let f := s.fields.field (← s.fields.find? name)
  return (← weave (← f.initializer), ← f.statements.mapM weave)

/-- The document of a template loads, some work on it succeeds, and a test of what came of that
passes. -/
def succeeds (t : Template) (run : Document → Except Failure α × Session)
    (test : Document → α → Session → Bool) : Bool :=
  match Document.load t.source t.url with
  | .error _ => false
  | .ok document =>
    match run document with
    | (.error _, _) => false
    | (.ok a, s) => test document a s

theorem exists_of_succeeds {t : Template} {run : Document → Except Failure α × Session}
    {test : Document → α → Session → Bool} (h : t.succeeds run test = true) :
    ∃ document a s, Document.load t.source t.url = .ok document ∧
      run document = (.ok a, s) ∧ test document a s = true := by
  unfold succeeds at h
  split at h
  · cases h
  · rename_i document hload
    split at h
    · cases h
    · rename_i a s hrun
      exact ⟨document, a, s, hload, hrun, h⟩

/-- A label shows the id of an element that is found when the panel around it is attached. -/
def earlyLabel : Template :=
  { source := "<ui:UiBinder xmlns:ui=\"urn:ui:uibind\" xmlns:g=\"urn:import:uibind.dev/ui\">" ++
      "<g:FlowPanel><g:HTMLPanel><div ui:field=\"d\"/></g:HTMLPanel>" ++
      "<g:Label text=\"\x7bd.ID\x7d\"/></g:FlowPanel></ui:UiBinder>",
    url := "View.ui.xml" }

theorem earlyLabel_compiles : ∃ document compiled s,
    Document.load earlyLabel.source earlyLabel.url = .ok document ∧
      (earlyLabel.compileDocument sampleSettings).runOn
        (earlyLabel.start sampleCatalog sampleSettings (· + 1) document) = (.ok compiled, s) ∧
      compiled.program.construct.contains "f_Label3.SetText(--token--2--end-token--)" = true ∧
      (s.fields.references.any fun r => r.marker == "--token--2--end-token--" &&
        (s.toDraft.target r).toOption.map (·.1) == some 2) = true ∧
      (s.fields.field 2).initializer = none := by
  have h : earlyLabel.succeeds (fun document => (earlyLabel.compileDocument sampleSettings).runOn
      (earlyLabel.start sampleCatalog sampleSettings (· + 1) document))
      (fun _ compiled s =>
        compiled.program.construct.contains "f_Label3.SetText(--token--2--end-token--)" &&
          (s.fields.references.any fun r => r.marker == "--token--2--end-token--" &&
            (s.toDraft.target r).toOption.map (·.1) == some 2) &&
          (s.fields.field 2).initializer == none) = true := by
    decide +kernel
  obtain ⟨document, compiled, s, hload, hrun, htest⟩ := exists_of_succeeds h
  simp only [Bool.and_eq_true, beq_iff_eq] at htest
  exact ⟨document, compiled, s, hload, hrun, htest.1.1, htest.1.2, htest.2⟩

/-- The element of that template is assigned to while the panel is attached, and only then. -/
theorem first_phase_of_earlyLabel : ∃ document compiled s,
    Function.Injective (· + 1 : Nat → Nat) ∧
      (earlyLabel.compileDocument sampleSettings).runOn
        (earlyLabel.start sampleCatalog sampleSettings (· + 1) document) = (.ok compiled, s) ∧
      ∀ id < s.fields.fields.size, (s.fields.field id).initializer = none ↔
        ¬Assigns compiled.program.construct (s.fields.field id).name ∧
          Assigns compiled.program.attach (s.fields.field id).name := by
  obtain ⟨document, compiled, s, -, hrun, -⟩ := earlyLabel_compiles
  have hsupply : Function.Injective (· + 1 : Nat → Nat) := fun _ _ h => Nat.succ.inj h
  exact ⟨document, compiled, s, hsupply, hrun,
    (first_phase_reads_what_it_makes_iff hsupply hrun).2.1⟩

/-- The first phase of that template reads the element, which no expression makes. -/
theorem first_phase_reads_a_later_field : ∃ document compiled s,
    Document.load earlyLabel.source earlyLabel.url = .ok document ∧
      (earlyLabel.compileDocument sampleSettings).runOn
        (earlyLabel.start sampleCatalog sampleSettings (· + 1) document) = (.ok compiled, s) ∧
      ∃ line ∈ compiled.program.construct, ∃ id, s.toDraft.Reads line id ∧
        (s.fields.field id).initializer = none := by
  obtain ⟨document, compiled, s, hload, hrun, hline, href, hlate⟩ := earlyLabel_compiles
  refine ⟨document, compiled, s, hload, hrun, _, List.contains_iff_mem.mp hline, 2, ?_, hlate⟩
  obtain ⟨r, hr, hfound⟩ := List.any_eq_true.mp href
  simp only [Bool.and_eq_true, beq_iff_eq] at hfound
  obtain ⟨hmarker, htarget⟩ := hfound
  cases hlead : s.toDraft.target r with
  | error p =>
    rw [hlead] at htarget
    cases htarget
  | ok found =>
    obtain ⟨id, type, expr⟩ := found
    rw [hlead] at htarget
    cases htarget
    have hid : Marker.id? r.marker = some 2 := by
      rw [hmarker]
      decide
    have hpiece : .marker "2" ∈ Marker.pieces "f_Label3.SetText(--token--2--end-token--)" := by
      decide
    exact ⟨r, hr, 2, type, expr, hid, .here hpiece (by decide), hlead⟩

/-! ## Attach sections -/

/-- Sections are well bracketed. A run that leaves what it enters, and adds statements inside only, is
a nesting in one way, and is written down as blocks that are numbered from one on: one for each
section that got a statement, those inside of a section in front of it, each with the statements
that were added to it, so that every statement stands in one block, once. Whatever an element is,
and however building it ends, it adds such a run to the sections and leaves those that are open as
they are; and the sections of a template are such a run. -/
theorem sections_are_well_bracketed :
    (∀ acts, Sections.Balanced false acts → ∃ n : Nesting,
      (∀ m : Nesting, m.acts = acts ↔ m = n) ∧ n.lines = [] ∧
      (({} : Sections).after acts).unfinished = [] ∧
      (∀ attach : Text, (({} : Sections).after acts).render attach =
        (n.parts.filter fun part => !part.statements.isEmpty).zipIdx.flatMap fun entry =>
          ("attach" ++ Text.ofNat (entry.2 + 1) ++ " := " ++ attach ++ "(" ++ entry.1.expr ++ ")") ::
            (entry.1.statements ++ [("attach" ++ Text.ofNat (entry.2 + 1) ++ ".Detach()" : Text)])) ∧
      (n.parts.flatMap (·.statements)).Perm (Sections.added acts)) ∧
    (∀ (fuel e : Nat) (s : Session), ∃ acts, Sections.Balanced false acts ∧
      ((Element.buildWithin fuel e).runOn s).2.sections = s.sections.after acts ∧
      ((Element.buildWithin fuel e).runOn s).2.sections.unfinished = s.sections.unfinished) ∧
    ∀ (t : Template) (c : Catalog) (settings : Settings) (supply : Nat → Nat) (document : Document)
      (answer : Except Failure Compiled) (s : Session),
      (t.compileDocument settings).runOn (t.start c settings supply document) = (answer, s) →
      ∃ acts, Sections.Balanced false acts ∧ s.sections = ({} : Sections).after acts ∧
        ∀ compiled, answer = .ok compiled → Function.Injective supply →
          ∃ attach, compiled.program.attach = (({} : Sections).after acts).render attach := by
  refine ⟨fun acts h => ?_, fun fuel e s => ?_, fun t c settings supply document answer s h => ?_⟩
  · obtain ⟨n, hunique, hlines, hafter⟩ := h.exists_nesting
    refine ⟨n, hunique, hlines, h.unfinished {}, fun attach => ?_, ?_⟩
    · rw [hafter]
      rfl
    · have hperm := n.perm_added
      rwa [hlines, List.nil_append, (hunique n).mpr rfl] at hperm
  · have hconfined : Session.Confined false false s ((Element.buildWithin fuel e).runOn s).2 :=
      Leads.leads s
    obtain ⟨acts, hbalanced, hsections⟩ := hconfined.acts
    exact ⟨acts, hbalanced, hsections, hconfined.sections rfl⟩
  · have hconfined : Session.Confined false false (t.start c settings supply document) s := by
      have hleads : Session.Confined false false (t.start c settings supply document)
          ((t.compileDocument settings).runOn (t.start c settings supply document)).2 :=
        Leads.leads _
      rwa [h] at hleads
    obtain ⟨acts, hbalanced, hsections⟩ := hconfined.acts
    refine ⟨acts, hbalanced, hsections, fun compiled hanswer hsupply => ?_⟩
    obtain ⟨built, root, hstages⟩ := compileDocument_stages hsupply (hanswer ▸ h)
    obtain ⟨attach, hattach⟩ := hstages.assembled.attach
    have hsame : s.sections = ({} : Sections).after acts := hsections
    exact ⟨attach, hsame ▸ hattach⟩

/-- A section around two others, one of which stays empty. -/
def nestedActs : List Sections.Act :=
  [.enter "outer", .add "a", .enter "inner", .add "b", .leave, .enter "empty", .leave, .add "c",
    .leave]

/-- Two of these sections are written down, and so are those of a template. -/
theorem sections_of_nestedActs :
    (({} : Sections).after nestedActs).render "to" =
        [Text.ofString "attach1 := to(inner)", Text.ofString "b", Text.ofString "attach1.Detach()",
          Text.ofString "attach2 := to(outer)", Text.ofString "a", Text.ofString "c",
          Text.ofString "attach2.Detach()"] ∧
      (∃ n : Nesting, n.acts = nestedActs ∧ n.lines = []) ∧
      ∃ document compiled s acts attach,
        (earlyLabel.compileDocument sampleSettings).runOn
          (earlyLabel.start sampleCatalog sampleSettings (· + 1) document) = (.ok compiled, s) ∧
        Sections.Balanced false acts ∧
        compiled.program.attach = (({} : Sections).after acts).render attach := by
  obtain ⟨hruns, -, htemplates⟩ := sections_are_well_bracketed
  obtain ⟨n, hunique, hlines, -⟩ := hruns nestedActs (by decide)
  obtain ⟨document, compiled, s, -, hrun, -⟩ := earlyLabel_compiles
  obtain ⟨acts, hbalanced, -, hattached⟩ := htemplates _ _ _ _ _ _ _ hrun
  obtain ⟨attach, hattach⟩ := hattached compiled rfl fun _ _ h => Nat.succ.inj h
  exact ⟨by decide, ⟨n, (hunique n).mpr rfl, hlines⟩, document, compiled, s, acts, attach, hrun,
    hbalanced, hattach⟩

end Template

end ViewBinder
