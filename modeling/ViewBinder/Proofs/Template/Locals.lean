-- Locals that are read. The generated language refuses a local that nothing reads, so each is given
-- back, read by some statement, or discarded by a line of its own. Two kinds of locals count as read
-- although no statement may be left that reads them: those that a reference starts from, and the
-- local of the messages.
import ViewBinder.Proofs.Marker.Weave
import ViewBinder.Proofs.Template.Phases

namespace ViewBinder

open Markup (Document)

/-! ## References and their markers -/

namespace Draft

/-- An adapted expression shows what the expression shows. -/
theorem shows_adapted {c : Catalog} {wanted actual : Option TypeId} {name expr adapted : Text}
    (hadapt : adapt? c wanted actual expr = some adapted) (h : Text.Shows name expr) :
    Text.Shows name adapted := by
  have hstar : Text.Shows name (Text.ofString "*" ++ expr) := by
    have hfront : Text.Opens ([] ++ Text.ofString "*") := Text.opens_end rfl []
    have hwithin := h.within hfront (Or.inl rfl)
    rwa [List.append_nil] at hwithin
  cases adapts_of_adapt? hadapt with
  | same _ => exact h
  | deref _ => exact hstar
  | box _ _ =>
    have hrest : Text.Closes (Text.ofString "; return &v \x7d()" ++ []) := Text.closes_start rfl []
    rw [List.append_nil] at hrest
    exact h.within (Text.opens_end rfl _) hrest

/-- What a reference leads to shows the field that the reference starts from. -/
theorem Resolved.shows {d : Draft} {r : FieldReference} {n : Nat} {id : FieldId}
    {expr adapted : Text} (h : d.Resolved r n id expr adapted) :
    Text.Shows (d.fields.field id).name adapted := by
  obtain ⟨type, htarget, hfit⟩ := h.target
  have hexpr : Text.Shows (d.fields.field id).name expr := by
    obtain ⟨-, rfl | ⟨rest, rfl⟩⟩ := target_ok htarget
    · exact Text.shows_self _
    · have hreceiver := Text.shows_receiver (d.fields.field id).name rest
      rwa [List.append_assoc] at hreceiver
  unfold fit at hfit
  split at hfit
  · cases hfit
    exact hexpr
  · split at hfit
    · rename_i found hfound
      cases hfit
      obtain ⟨wanted, -, hadapt⟩ := List.exists_of_findSome?_eq_some hfound
      exact shows_adapted hadapt hexpr
    · cases hfit

/-- A reference leads from the field that it names. -/
theorem target_name {d : Draft} {r : FieldReference} {id : FieldId} {type : Option TypeId}
    {expr : Text} (h : d.target r = .ok (id, type, expr)) :
    (d.fields.field id).name = Text.sanitize r.fieldName := by
  unfold target at h
  split at h
  · cases h
  · rename_i other hfind
    dsimp only at h
    cases hfollow : d.follow r (r.segments.drop 1) (d.fields.field other).type
        (d.fields.field other).name with
    | error p =>
      rw [hfollow] at h
      cases h
    | ok found =>
      rw [hfollow] at h
      cases h
      exact (FieldTable.byName?_eq_some hfind).2

end Draft

/-! ## Lines of the program -/

namespace Template

/-- Some statement of the program reads the name once markers are replaced. -/
def ReadBy (p : Program) (m : Markers) (name : Text) : Prop :=
  ∃ line ∈ p.statements, ∃ woven, m.Expands line woven ∧ Text.reads name woven = true

/-- Some statement shows the name, or a marker that stands for an expression that shows it. -/
def ShownBy (p : Program) (m : Markers) (name : Text) : Prop :=
  ∃ line ∈ p.statements, Text.Shows name line ∨ ∃ marker n entry value,
    Marker.id? marker = some n ∧ m.find? n = some entry ∧ entry.meaning = .known value ∧
      Text.Shows name value ∧ Text.Shows marker line

/-- No statement reads a name if none does that has been woven. -/
theorem not_readBy {p : Program} {m : Markers} {name : Text} (hfixed : m.Fixed)
    (h : (p.statements.all fun line => match ((Markers.weave line).runOn m).1 with
      | .ok woven => !Text.reads name woven
      | .error _ => false) = true) : ¬ ReadBy p m name := by
  rintro ⟨line, hline, woven, hwoven, hreads⟩
  have htest := List.all_eq_true.mp h line hline
  rcases hrun : (Markers.weave line).runOn m with ⟨answer, m'⟩
  rw [hrun] at htest
  cases answer with
  | error failure => cases htest
  | ok woven' =>
    obtain ⟨-, hexpands⟩ := Markers.weave_expands hfixed hrun
    rw [Markers.ExpandsTo.unique hexpands hwoven] at htest
    simp [hreads] at htest

namespace Stages

variable {t : Template} {settings : Settings} {c : Catalog} {supply : Nat → Nat}
  {document : Document} {built s : Session} {root : FieldId} {compiled : Compiled}

/-- The lines that fields and sections came to have are statements of the program. -/
theorem mem_statements
    (h : Stages t settings (t.start c settings supply document) built s root compiled)
    {line : Text} (hline : built.Writes line) : line ∈ compiled.program.statements := by
  obtain ⟨order, horder, hconstruct, htrailing⟩ := h.assembled.order
  have hperm := (FieldTable.constructionOrder_spec horder).2
  unfold Program.statements
  rcases hline with ⟨id, hid, hline⟩ | ⟨part, hpart, hline⟩
  · -- the lines of a field stand where it is made, or at the end if it is found later
    have hmem : s.fields.field id ∈ order.map s.fields.field := by
      refine List.mem_map_of_mem (hperm.mem_iff.mpr (List.mem_range.mpr ?_))
      exact h.finishes.marks.size ▸ hid
    have hwrites : (s.fields.field id).Writes line := by
      obtain ⟨used, hfield⟩ := h.finishes.marks.field id
      rw [hfield]
      exact hline
    cases hmade : (s.fields.field id).initializer with
    | some expr =>
      have hfirst : line ∈ Assembly.constructLines (s.fields.field id) := by
        unfold Assembly.constructLines
        rw [hmade]
        rcases hwrites with ⟨expr', hexpr, rfl⟩ | hstatement
        · rw [hmade] at hexpr
          cases hexpr
          exact List.mem_cons_self
        · exact List.mem_cons_of_mem _ hstatement
      have : line ∈ compiled.program.construct :=
        hconstruct ▸ List.mem_flatMap.mpr ⟨_, hmem, hfirst⟩
      simp [this]
    | none =>
      have hlate : line ∈ Assembly.lateLines (s.fields.field id) := by
        unfold Assembly.lateLines
        rw [hmade]
        rcases hwrites with ⟨expr', hexpr, -⟩ | hstatement
        · rw [hmade] at hexpr
          cases hexpr
        · exact hstatement
      have : line ∈ compiled.program.trailing :=
        htrailing ▸ List.mem_append_left _ (List.mem_flatMap.mpr ⟨_, hmem, hlate⟩)
      simp [this]
  · obtain ⟨function, hattach⟩ := h.assembled.attach
    rw [← h.finishes.sections, h.closed, List.nil_append] at hpart
    have : line ∈ compiled.program.attach := hattach ▸ Sections.mem_render hpart hline function
    simp [this]

/-- What a statement shows, by itself or by a marker, it reads. -/
theorem readBy
    (h : Stages t settings (t.start c settings supply document) built s root compiled)
    {id : FieldId} (hid : id < s.fields.fields.size)
    (hshown : ShownBy compiled.program s.markers (s.fields.field id).name) :
    ReadBy compiled.program s.markers (s.fields.field id).name := by
  obtain ⟨line, hline, hshows⟩ := hshown
  obtain ⟨text, htext⟩ := h.woven
  obtain ⟨woven, hwoven, -⟩ := Markers.expands_statement htext hline
  have hdash : '-'.toUInt8 ∉ (s.fields.field id).name := fun hmem =>
    absurd ((h.wellFormed.plain id hid).part _ hmem) (by decide)
  refine ⟨line, hline, woven, hwoven, Text.Shows.reads ?_⟩
  rcases hshows with hshows | ⟨marker, n, entry, value, hmarker, hfind, hknown, hvalue, hshows⟩
  · exact Markers.expands_shows hdash hshows hwoven
  · exact Markers.expands_shows_marker hdash hmarker hfind hknown hvalue hshows hwoven

/-- A statement that shows the marker of a reference shows the field that the reference names. -/
theorem shownBy_reference
    (h : Stages t settings (t.start c settings supply document) built s root compiled)
    {r : FieldReference} (hr : r ∈ s.fields.references) {line : Text}
    (hline : line ∈ compiled.program.statements) (hshows : Text.Shows r.marker line) :
    ShownBy compiled.program s.markers (Text.sanitize r.fieldName) := by
  obtain ⟨n, other, expr, adapted, hresolved⟩ := h.finishes.resolved r hr
  obtain ⟨entry, hfind, hknown⟩ := hresolved.meaning
  obtain ⟨type, htarget, -⟩ := hresolved.target
  refine ⟨line, hline, .inr ⟨r.marker, n, entry, adapted, hresolved.marker, hfind, hknown, ?_,
    hshows⟩⟩
  rw [← Draft.target_name htarget]
  exact hresolved.shows

end Stages

/-- The sample library with menus, and a package of data. -/
def menuManifests : List Manifest :=
  sampleManifests ++
    [{ package := Library.uiPackage,
       types :=
         [{ name := "MenuBar", kind := "class", interfaces := [Library.ui "IsWidget"],
            methods := [{ name := "AddItem", params := [⟨"item", Library.ui "MenuItem"⟩] }],
            constructors := [{ name := "NewMenuBar", params := [⟨"vertical", "bool"⟩] }] },
          { name := "MenuItem", kind := "class",
            constructors :=
              [{ name := "NewMenuItem", params := [⟨"text", "string"⟩, ⟨"asHTML", "bool"⟩] }] }] },
     { package := "example.com/m",
       types :=
         [{ name := "Data", kind := "class", methods := [{ name := "Visible", returns := "bool" }],
            constructors := [{ name := "NewData" }] }] }]

/-- The catalog of that library. -/
def menuCatalog : Catalog := menuManifests.foldl Catalog.loading Catalog.bare

/-- A menu item with a body, whose attribute for the text in another attribute is read in vain. -/
def bodiedItem : Template :=
  { source := "<ui:UiBinder xmlns:ui=\"urn:ui:uibind\" xmlns:g=\"urn:import:uibind.dev/ui\">" ++
      "<ui:with field=\"f\" type=\"example.com/m.Data\"/>" ++
      "<g:MenuBar><g:MenuItem asHTML=\"\x7bf.visible\x7d\">body</g:MenuItem></g:MenuBar>" ++
      "</ui:UiBinder>",
    url := "View.ui.xml" }

theorem bodiedItem_compiles : ∃ document compiled s,
    Document.load bodiedItem.source bodiedItem.url = .ok document ∧
      (bodiedItem.compileDocument sampleSettings).runOn
        (bodiedItem.start menuCatalog sampleSettings (· + 1) document) = (.ok compiled, s) ∧
      compiled.program.locals.contains "f" = true ∧
      compiled.program.unused.contains "f" = false ∧ compiled.program.rootExpr ≠ "f" ∧
      (compiled.program.statements.all fun line =>
        match ((Markers.weave line).runOn s.markers).1 with
        | .ok woven => !Text.reads "f" woven
        | .error _ => false) = true := by
  have h : bodiedItem.succeeds (fun document => (bodiedItem.compileDocument sampleSettings).runOn
      (bodiedItem.start menuCatalog sampleSettings (· + 1) document))
      (fun _ compiled s => compiled.program.locals.contains "f" &&
        !compiled.program.unused.contains "f" && compiled.program.rootExpr != "f" &&
        compiled.program.statements.all fun line =>
          match ((Markers.weave line).runOn s.markers).1 with
          | .ok woven => !Text.reads "f" woven
          | .error _ => false) = true := by
    decide +kernel
  obtain ⟨document, compiled, s, hload, hrun, htest⟩ := exists_of_succeeds h
  simp only [Bool.and_eq_true, Bool.not_eq_true', bne_iff_ne] at htest
  exact ⟨document, compiled, s, hload, hrun, htest.1.1.1, htest.1.1.2, htest.1.2, htest.2⟩

end Template

end ViewBinder
