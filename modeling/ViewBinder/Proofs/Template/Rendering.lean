-- Whole renderings. The markup of a panel and an element of markup are written as expressions of the
-- program. Every id that lines of the open section look up is one that the rendering made up itself,
-- and the expression shows it exactly once if the element with it is written, and never if not.
import ViewBinder.Proofs.Element.Consumption
import ViewBinder.Proofs.Template.Lookups
import ViewBinder.Proofs.Template.Phases

namespace ViewBinder

open Markup (Document)
open Session
open Work (Keeps Leads)

namespace Content

variable {s s' : Session} {t : Trace}

/-! ## Splices of their own -/

theorem withSplices_ok {w : Work Session α} {a : α} (h : (withSplices w).runOn s = (.ok a, s')) :
    ∃ s₁, w.runOn { s with splices := [] } = (.ok a, s₁) ∧ s' = { s₁ with splices := s.splices } := by
  unfold withSplices at h
  obtain ⟨_, _, hget, h⟩ := Work.bind_ok h
  cases hget
  rw [Work.runOn_bind, Work.runOn_modify] at h
  simp only [Work.runOn_andThenAlways] at h
  rcases hrun : w.runOn { s with splices := [] } with ⟨answer, s₁⟩
  rw [hrun] at h
  cases h
  exact ⟨s₁, rfl, rfl⟩

/-- Content with splices of its own leaves the splices around it alone. -/
theorem withSplices_writes {r : Nat → Prop} {w : Work Session Text} {content : Text}
    (slots : List Nat) (hsound : s.Sound) (hunmarked : Unmarked r s.document)
    (hw : ∀ {s₁ s₂ : Session} {content : Text}, Writing r s₁ → s₁.document = s.document →
      w.runOn s₁ = (.ok content, s₂) → ∃ t, Leaves s₁ s₂ t ∧ Weighs s₂ content t ∧
        ∀ l ∈ t.lookups, Lies s₁.document slots l.shown l.element)
    (h : (withSplices w).runOn s = (.ok content, s')) :
    ∃ t, Leaves s s' t ∧ Weighs s' content t ∧
      ∀ l ∈ t.lookups, Lies s.document slots l.shown l.element := by
  obtain ⟨s₁, hrun, rfl⟩ := withSplices_ok h
  have hopen : Reaches s { s with splices := [] } := (Step.aside s.ids [] s.trailing).reaches
  have hwriting : Writing r { s with splices := [] } := ⟨hopen.sound hsound, nofun, hunmarked⟩
  obtain ⟨t, hleaves, hweighs, hlies⟩ := hw hwriting rfl hrun
  have hclose : Reaches s₁ { s₁ with splices := s.splices } :=
    (Step.aside s₁.ids s.splices s₁.trailing).reaches
  have hwhole := hopen.trans (hleaves.reaches.trans hclose)
  refine ⟨t, ⟨hwhole, fun hgenuine => ?_, hleaves.lines, hleaves.holders, hleaves.distinct,
    hleaves.found, fun x hx => (hleaves.values x hx).later hclose⟩, hweighs.later hclose, hlies⟩
  exact hgenuine.reaches hsound hwhole rfl

/-! ## Panels and elements of markup -/

/-- What is written as an expression of the program: the slots of a panel, or an element. -/
inductive Rendering (build : Builder) (e : Nat) (d : Document) : Work Session Text → List Nat → Prop
  | panel (panel : FieldId) (stamped : Bool) :
      Rendering build e d (literal <$> inner build (.markup true (some panel) stamped) e)
        (d.node e).children
  | element : Rendering build e d (Text.quote <$> outer build (.markup true none false) e) [e]

/-- An expression mentions what the content in it mentions. -/
theorem Weighs.says_quote {content : Text} (h : Weighs s content t) :
    Says s (Text.quote content) t := fun m name hreading => (h m name hreading).mentions_quote

theorem Weighs.says_literal {content : Text} (h : Weighs s content t) :
    Says s (literal content) t := fun m name hreading => by
  unfold literal
  refine Markers.Tally.mentions_quote ?_
  rw [Marker.markersIn_trim]
  exact h m name hreading

variable {build : Builder} [∀ e, Keeps (Runs false []) (build e)]
  [∀ splicing attaching e, Leads (Confined splicing attaching) (build e)]
  [∀ e, Ensures (Document.Finished e) (build e)]

theorem rendering_ok {e : Nat} {work : Work Session Text} {slots : List Nat} {expr : Text}
    (hrendering : Rendering build e s.document work slots) (hsound : s.Sound)
    (hunmarked : Unmarked (Below s.document slots) s.document)
    (h : work.runOn s = (.ok expr, s')) :
    ∃ t, Leaves s s' t ∧ Says s' expr t ∧
      ∀ l ∈ t.lookups, Lies s.document slots l.shown l.element := by
  cases hrendering with
  | panel panel stamped =>
    obtain ⟨content, hcontent, rfl⟩ := Work.map_ok h
    unfold inner at hcontent
    obtain ⟨t, hleaves, hweighs, hlies⟩ := withSplices_writes (s.document.node e).children
      hsound hunmarked (fun {s₁ s₂ content} hwriting hdocument hok => by
        obtain ⟨_, _, hget, hok⟩ := Work.bind_ok hok
        cases hget
        obtain ⟨htmls, _, hslots, hlast⟩ := Work.bind_ok hok
        cases hlast
        have hchildren : ∀ n ∈ (s₁.document.node e).children,
            Below s.document (s.document.node e).children n := fun n hn => .here (hdocument ▸ hn)
        rw [← hdocument]
        exact renderSlots_ok (faithful_renderSlot true stamped (some panel) _) hchildren hwriting
          hslots) hcontent
    exact ⟨t, hleaves, hweighs.says_literal, hlies⟩
  | element =>
    obtain ⟨content, hcontent, rfl⟩ := Work.map_ok h
    unfold outer at hcontent
    obtain ⟨t, hleaves, hweighs, hlies⟩ := withSplices_writes [e] hsound hunmarked
      (fun {s₁ s₂ content} hwriting hdocument hok => by
        obtain ⟨_, _, hget, hok⟩ := Work.bind_ok hok
        cases hget
        obtain ⟨html, _, helement, hlast⟩ := Work.bind_ok hok
        cases hlast
        obtain ⟨t, hwrote, hlies⟩ :=
          renderElement_ok (faithful_renderSlot true false none _) (.here List.mem_cons_self)
            hwriting helement
        refine ⟨t, hwrote.leaves, fun m name hreading => ?_, hlies⟩
        have hweighs := hwrote.weighs m name hreading
        rwa [List.flatMap_singleton] at hweighs) hcontent
    exact ⟨t, hleaves, hweighs.says_quote, hlies⟩

/-- Ids are different, so the elements that are shown with an id are at most one. -/
theorem Trace.mentions_of_mem (hdistinct : (t.lookups.map (·.holder)).Nodup) {l : Lookup}
    (hl : l ∈ t.lookups) : t.mentions l.holder = if l.shown then 1 else 0 := by
  unfold mentions
  generalize t.lookups = lookups at hdistinct hl
  induction lookups with
  | nil => cases hl
  | cons first rest ih =>
    rw [List.map_cons, List.nodup_cons] at hdistinct
    obtain ⟨hnew, hrest⟩ := hdistinct
    rw [List.countP_cons]
    rcases List.mem_cons.mp hl with rfl | hl
    · have hnone : rest.countP (fun l' => l'.shown && l'.holder == l.holder) = 0 := by
        refine List.countP_eq_zero.mpr fun l' hl' => ?_
        have hne : l'.holder ≠ l.holder := fun hsame => hnew (hsame ▸ List.mem_map_of_mem hl')
        simp [hne]
      simp [hnone]
    · have hne : first.holder ≠ l.holder := fun hsame => hnew (hsame ▸ List.mem_map_of_mem hl)
      simp [ih hrest hl, hne]

/-- The lines that a rendering adds to the open section look elements up by ids of their own, each
held by a new field. In the expression that is written an id stands once if its element is shown, and
else not at all, as long as no value of the template mentions it: it is shown unless it lies in an
element that has no content or in a placeholder without a name. So where there are none of those,
every id that is looked up is in the expression. -/
theorem looked_up_ids_are_written {fuel e : Nat} {work : Work Session Text} {slots : List Nat}
    {expr : Text} (hrendering : Rendering (Element.buildWithin fuel) e s.document work slots)
    (hsound : s.Sound) (hunmarked : Unmarked (Below s.document slots) s.document)
    (h : work.runOn s = (.ok expr, s')) :
    ∃ t : Trace,
      s'.sections.unfinished =
        Sections.filled (t.lookups.map (·.line)) s.sections.unfinished ∧
      (t.lookups.map (·.holder)).Nodup ∧
      (∀ l ∈ t.lookups, IsHolder l.holder ∧ ¬ s.HasName l.holder ∧ s'.HasName l.holder ∧
        elementCall l.holder <:+: l.line ∧ Lies s.document slots l.shown l.element) ∧
      ((∀ p, Below s.document slots p → ¬ Shows s.document p false) →
        ∀ l ∈ t.lookups, l.shown = true) ∧
      (∀ x ∈ t.values, IsValue s' x) ∧
      ∀ l ∈ t.lookups, ∀ m, s'.Ends m → (∀ x ∈ t.values, m.Mentions l.holder x 0) →
        ∀ w, m.Expands expr w → (Code.names w).count l.holder = if l.shown then 1 else 0 := by
  obtain ⟨t, hleaves, hsays, hlies⟩ := rendering_ok hrendering hsound hunmarked h
  refine ⟨t, hleaves.lines, hleaves.distinct, fun l hl => ?_,
    fun hkept l hl => (hlies l hl).shown hkept, hleaves.values,
    fun l hl m hends hvalues w hw => ?_⟩
  · obtain ⟨hholder, hnew, hthere⟩ := hleaves.holders l hl
    exact ⟨hholder, hnew, hthere, hleaves.found l hl, hlies l hl⟩
  · obtain ⟨ns, hspells, hcount⟩ :=
      hsays m l.holder ⟨hends, (hleaves.holders l hl).1, hvalues⟩ w hw
    rw [hspells.names_eq, hcount, Trace.mentions_of_mem hleaves.distinct hl]

end Content

namespace Template

open Content

/-! ## A line break with content -/

/-- Of two elements in a panel one lies in a line break, which is written without it. -/
def lineBreak : Template :=
  { source := "<ui:UiBinder xmlns:ui=\"urn:ui:uibind\" xmlns:g=\"urn:import:uibind.dev/ui\">" ++
      "<g:HTMLPanel><i ui:field=\"y\"/><br><b ui:field=\"x\"/></br></g:HTMLPanel></ui:UiBinder>",
    url := "View.ui.xml" }

/-- A session in which a panel is attached and the template is read. -/
def startAttached (t : Template) (document : Document) : Session :=
  let start := t.start sampleCatalog sampleSettings (· + 1) document
  { start with sections := start.sections.enter "panel" }

/-- Two elements of that panel are looked up, one of them in what is shown. -/
theorem rendering_of_lineBreak : ∃ document expr s',
    Document.load lineBreak.source lineBreak.url = .ok document ∧
      Rendering (Element.buildWithin 0) 1 document
        (literal <$> inner (Element.buildWithin 0) (.markup true (some 0) false) 1)
        (document.node 1).children ∧
      (lineBreak.startAttached document).Sound ∧
      Unmarked (Below document (document.node 1).children) document ∧
      (literal <$> inner (Element.buildWithin 0) (.markup true (some 0) false) 1).runOn
        (lineBreak.startAttached document) = (.ok expr, s') ∧
      ∃ t : Trace, s'.sections.unfinished =
          Sections.filled (t.lookups.map (·.line)) [{ expr := "panel" }] ∧
        t.lookups.length = 2 ∧
        ∀ l ∈ t.lookups, Lies document (document.node 1).children l.shown l.element := by
  have h : lineBreak.succeeds (fun document =>
      (literal <$> inner (Element.buildWithin 0) (.markup true (some 0) false) 1).runOn
        (lineBreak.startAttached document))
      (fun document _ s' => document.nodes.all dashless &&
        (s'.sections.unfinished.map (·.statements.length) == [2])) = true := by
    decide +kernel
  obtain ⟨document, expr, s', hload, hrun, htest⟩ := exists_of_succeeds h
  simp only [Bool.and_eq_true, beq_iff_eq] at htest
  obtain ⟨hdashless, hlength⟩ := htest
  have hrendering : Rendering (Element.buildWithin 0) 1 document _ _ := .panel 0 false
  have hsound : (lineBreak.startAttached document).Sound :=
    (Step.sections _).reaches.sound
      (sound_start lineBreak _ _ (fun _ _ h => Nat.succ.inj h) document)
  have hunmarked : Unmarked (Below document (document.node 1).children) document :=
    unmarked_of_dashless hdashless
  obtain ⟨t, hlines, -, hlookups, -⟩ :=
    looked_up_ids_are_written hrendering hsound hunmarked hrun
  have hfilled : s'.sections.unfinished =
      Sections.filled (t.lookups.map (·.line)) [{ expr := "panel" }] := hlines
  refine ⟨document, expr, s', hload, hrendering, hsound, hunmarked, hrun, t, hfilled, ?_,
    fun l hl => (hlookups l hl).2.2.2.2⟩
  rw [hfilled] at hlength
  simpa [Sections.filled] using hlength

/-- The element in the line break is looked up by an id that the panel does not have. -/
theorem lineBreak_hides_an_id : ∃ document compiled s panel,
    Document.load lineBreak.source lineBreak.url = .ok document ∧
      (lineBreak.compileDocument sampleSettings).runOn
        (lineBreak.start sampleCatalog sampleSettings (· + 1) document) = (.ok compiled, s) ∧
      compiled.program.attach = ["attach1 := ui.AttachToDom(f_HTMLPanel1.Element())",
        "y = ui.ElementByID(domId1)", "x = ui.ElementByID(domId2)", "attach1.Detach()"] ∧
      wovenField lineBreak sampleCatalog "f_HTMLPanel1" = some (panel, []) ∧
      (Code.names panel).count (Text.ofString "domId1") = 1 ∧
      (Code.names panel).count (Text.ofString "domId2") = 0 := by
  have h : lineBreak.succeeds (fun document => (lineBreak.compileDocument sampleSettings).runOn
      (lineBreak.start sampleCatalog sampleSettings (· + 1) document))
      (fun _ compiled _ => compiled.program.attach ==
        ["attach1 := ui.AttachToDom(f_HTMLPanel1.Element())", "y = ui.ElementByID(domId1)",
          "x = ui.ElementByID(domId2)", "attach1.Detach()"]) = true := by
    decide +kernel
  obtain ⟨document, compiled, s, hload, hrun, htest⟩ := exists_of_succeeds h
  refine ⟨document, compiled, s,
    "ui.NewHTMLPanel(\"<i id=\\\"\" + domId1 + \"\\\"></i><br>\")", hload, hrun,
    beq_iff_eq.mp htest, ?_, ?_, ?_⟩
  all_goals decide +kernel

end Template

end ViewBinder
