-- Widgets and fields in markup. Whatever way an element is looked up, its id is spliced into what is
-- written for it exactly once, and a line of the open section looks it up by that id.
import ViewBinder.Proofs.Template.Attachment
import ViewBinder.Proofs.Template.Consumption

namespace ViewBinder

open Markup (Document)
open Session
open Work (Keeps Leads)

namespace Content

variable {s s' : Session} {e : Nat} {holder marker : Text}

theorem reaches_addAttached {line : Text} {u : Unit}
    (h : (addAttached line).runOn s = (.ok u, s')) : Reaches s s' := by
  cases h
  exact (Step.sections _).reaches

/-- A line that is added finds the element it looks up. -/
theorem finds_of_addAttached {s₁ s₂ : Session} {line : Text} {u : Unit} (hbefore : Leaves s s₁ {})
    (h : (addAttached line).runOn s₁ = (.ok u, s₂)) (hafter : Leaves s₂ s' {})
    (hfound : elementCall holder <:+: line) : Finds s s' holder line := by
  cases h
  exact ⟨s₁, hbefore, hafter, hfound⟩

/-! ## Widgets -/

/-- A widget that is rendered claims its element, whose id is in what stands for the widget. -/
theorem stampWidget_ok {child : FieldId} (hsound : s.Sound) (hholder : IsHolder holder)
    (h : (stampWidget e child holder).runOn s = (.ok marker, s')) :
    ∃ line k, Finds s s' holder line ∧ marker = Marker.text k ∧
      Weighs s' marker (.one ⟨e, true, holder, line⟩) := by
  unfold stampWidget at h
  obtain ⟨type, s₁, htype, h⟩ := Work.bind_ok h
  cases type with
  | none => cases h
  | some type =>
    obtain ⟨name, s₂, hname, h⟩ := Work.bind_ok h
    obtain ⟨stamper, s₃, hregister, h⟩ := Work.bind_ok h
    obtain ⟨make, s₄, hmake, h⟩ := Work.bind_ok h
    obtain ⟨used, s₅, hused, h⟩ := Work.bind_ok h
    obtain ⟨_, s₆, hinitializer, h⟩ := Work.bind_ok h
    obtain ⟨name', s₇, hname', h⟩ := Work.bind_ok h
    obtain ⟨_, s₈, hneed, h⟩ := Work.bind_ok h
    obtain ⟨_, s₉, hneed', h⟩ := Work.bind_ok h
    obtain ⟨own, s₁₀, huse, h⟩ := Work.bind_ok h
    obtain ⟨found, s₁₁, hfound, h⟩ := Work.bind_ok h
    obtain ⟨_, s₁₂, hline, hsplice⟩ := Work.bind_ok h
    obtain ⟨-, -, hid, hown⟩ := hasName_register hregister
    have hfirst : Leaves s s₃ {} :=
      (((Leaves.refl s).next hsound htype).next hsound hname).next hsound hregister
    have hsound₃ := hfirst.reaches.sound hsound
    have hmiddle : Leaves s₃ s₉ {} :=
      ((((((Leaves.refl s₃).next hsound₃ hmake).next hsound₃ hused).next hsound₃
        hinitializer).next hsound₃ hname').next hsound₃ hneed).next hsound₃ hneed'
    have hbefore : Leaves s s₁₁ {} :=
      ((hfirst.append hmiddle).next hsound huse).next hsound hfound
    obtain ⟨-, rfl⟩ := reaches_use huse
    rw [(hmiddle.reaches.fields.extends.field stamper hid).name.trans hown] at hsplice hline
    have hsound₁₂ := (hbefore.reaches.trans (reaches_addAttached hline)).sound hsound
    have hafter : Leaves s₁₂ s' {} := (Leaves.refl s₁₂).next hsound₁₂ hsplice
    have hfound' := (elementById_ok hfound).trans
      ⟨Text.sanitize (name ++ "Stamper") ++ ".Claim(", ")", rfl⟩
    obtain ⟨line, hfinds⟩ : ∃ line, Finds s s' holder line :=
      ⟨_, finds_of_addAttached hbefore hline hafter hfound'⟩
    have hsays := says_render (s := s₁₂) (l := ⟨e, true, holder, line⟩) rfl hholder name
    obtain ⟨k, rfl, hweighs⟩ := weighs_splice hsound₁₂ hsplice hsays
    exact ⟨line, k, hfinds, rfl, hweighs⟩

/-- A widget that replaces an element leaves one with its id. -/
theorem replaceByWidget_ok {panel child : FieldId} {tag : Text} (hsound : s.Sound)
    (hholder : IsHolder holder)
    (h : (replaceByWidget e panel child holder).runOn s = (.ok tag, s')) :
    ∃ line, Finds s s' holder line ∧ (∀ t, Marker.Patch t tag) ∧
      Weighs s' tag (.one ⟨e, true, holder, line⟩) := by
  unfold replaceByWidget at h
  obtain ⟨marker, s₁, hsplice, h⟩ := Work.bind_ok h
  obtain ⟨panelName, s₂, hpanel, h⟩ := Work.bind_ok h
  obtain ⟨childName, s₃, hchild, h⟩ := Work.bind_ok h
  obtain ⟨found, s₄, hfound, h⟩ := Work.bind_ok h
  obtain ⟨_, s₅, hline, hlast⟩ := Work.bind_ok h
  cases hlast
  have hfirst : Leaves s s₁ {} := (Leaves.refl s).next hsound hsplice
  have hbefore : Leaves s s₄ {} :=
    ((hfirst.next hsound hpanel).next hsound hchild).next hsound hfound
  have hlater : Leaves s₁ s₄ {} := by
    have hsound₁ := hfirst.reaches.sound hsound
    exact (((Leaves.refl s₁).next hsound₁ hpanel).next hsound₁ hchild).next hsound₁ hfound
  have hfound' := (elementById_ok hfound).trans
    ⟨panelName ++ ".AddAndReplaceElement(" ++ childName ++ ", ", ")", rfl⟩
  obtain ⟨line, hfinds⟩ : ∃ line, Finds s s' holder line :=
    ⟨_, finds_of_addAttached hbefore hline (Leaves.refl s') hfound'⟩
  refine ⟨line, hfinds, fun t => Html.patch_element t _ _ _, ?_⟩
  have hsays := says_holder (s := s) (l := ⟨e, true, holder, line⟩) rfl hholder
  obtain ⟨k, rfl, hweighs⟩ := weighs_splice hsound hsplice hsays
  have hspan : Html.isVoid "span" = false := by decide
  have hplain : ¬ Marker.front <:+: Text.ofString "span" := by decide
  have hid : Marker.markersIn (Text.ofString "id") = [] := by decide
  intro m name hreading
  rw [Html.markersIn_element hplain]
  simpa [hspan, hid, Html.renderAll] using
    hweighs.later (hlater.reaches.trans (reaches_addAttached hline)) m name hreading

variable {build : Builder} [∀ e, Keeps (Runs false []) (build e)]
  [∀ splicing attaching e, Leads (Confined splicing attaching) (build e)]

/-- The widget is built, and what stands for it has the id by which its place is looked up. -/
theorem placeWidget_ok {panel : FieldId} {stamped : Bool} {written : Text} (hsound : s.Sound)
    (h : (placeWidget build panel stamped e).runOn s = (.ok written, s')) :
    ∃ holder line, Leaves s s' (.one ⟨e, true, holder, line⟩) ∧
      (∀ t, Marker.Patch t written) ∧ Weighs s' written (.one ⟨e, true, holder, line⟩) := by
  unfold placeWidget at h
  obtain ⟨_, _, hget, h⟩ := Work.bind_ok h
  cases hget
  obtain ⟨type, s₁, htype, h⟩ := Work.bind_ok h
  obtain ⟨child, s₂, hchild, h⟩ := Work.bind_ok h
  obtain ⟨holder, s₃, hdeclare, h⟩ := Work.bind_ok h
  have hbefore : Leaves s s₂ {} := ((Leaves.refl s).next hsound htype).next hsound hchild
  obtain ⟨hreaches, hholder, -⟩ := declareId_ok hdeclare
  have hsound₃ := (hbefore.reaches.trans hreaches).sound hsound
  split at h
  · obtain ⟨line, k, hfinds, rfl, hweighs⟩ := stampWidget_ok hsound₃ hholder h
    exact ⟨holder, line, leaves_one hsound hbefore hdeclare hfinds e,
      fun t => .marker t k, hweighs⟩
  · obtain ⟨line, hfinds, hpatch, hweighs⟩ := replaceByWidget_ok hsound₃ hholder h
    exact ⟨holder, line, leaves_one hsound hbefore hdeclare hfinds e, hpatch, hweighs⟩

/-! ## Fields -/

/-- An element got an id, which is in no other attribute, and is looked up by it. -/
structure Identified (s : Session) (e : Nat) (holder line : Text) (s' : Session) : Prop where
  leaves : Leaves s s' (.one ⟨e, true, holder, line⟩)
  element : (s.document.node e).isElement = true
  given : ∃ (d : Document) (marker : Text), s.document.Takes d ∧ d.has e "id" = false ∧
    s'.document = d.setAttribute e "id" marker ∧
    Weighs s' marker (.one ⟨e, true, holder, line⟩)

/-- Only elements have attributes to take. -/
theorem isElement_of_takeIn {d d' : Document} {uri base v : Text}
    (h : (Document.takeIn e uri base).runOn d = (.ok (some v), d')) :
    (d.node e).isElement = true := by
  have hvalue : (d.take? e uri base).1 = some v := Except.ok.inj (congrArg Prod.fst h)
  unfold Document.take? at hvalue
  split at hvalue
  · rename_i i a hfound
    obtain ⟨hmem, -⟩ := Document.mem_remaining_of_find? hfound
    exact Document.isElement_of_mem (Document.mem_remaining hmem).1
  · cases hvalue

theorem isElement_of_takeBinder {base v : Text}
    (h : (liftM (Document.takeBinder e base) : Work Session (Option Text)).runOn s =
      (.ok (some v), s')) : (s.document.node e).isElement = true := by
  have hdocument := document_ok h
  unfold Document.takeBinder at hdocument
  obtain ⟨found, d, hfirst, hrest⟩ := Work.bind_ok hdocument
  cases found with
  | some w => exact isElement_of_takeIn hfirst
  | none =>
    have htakes : s.document.Takes d := Keeps.keeps hfirst
    rw [← htakes.shape.isElement]
    exact isElement_of_takeIn hrest

/-- An element becomes a field by getting an id, or nothing happens to it. -/
theorem bindField_ok {u : Unit} (hsound : s.Sound) (h : (bindField e).runOn s = (.ok u, s')) :
    (Leaves s s' {} ∧ s.Takes s') ∨ ∃ holder line, Identified s e holder line s' := by
  unfold bindField at h
  obtain ⟨_, _, hget, h⟩ := Work.bind_ok h
  cases hget
  split at h
  · cases h
    exact .inl ⟨Leaves.refl s, Std.Refl.refl _⟩
  · obtain ⟨found, s₁, htake, h⟩ := Work.bind_ok h
    have hfirst : Leaves s s₁ {} := (Leaves.refl s).next hsound htake
    have htakes : s.Takes s₁ := Keeps.keeps htake
    cases found with
    | none =>
      cases h
      exact .inl ⟨hfirst, htakes⟩
    | some name =>
      obtain ⟨_, _, hget, h⟩ := Work.bind_ok h
      cases hget
      dsimp only at h
      split at h
      · obtain ⟨_, _, hfail, _⟩ := Work.bind_ok h
        cases hfail
      · rename_i hfree
        obtain ⟨_, _, hcatalog, h⟩ := Work.bind_ok h
        cases hcatalog
        obtain ⟨f, s₂, hregister, h⟩ := Work.bind_ok h
        obtain ⟨holder, s₃, hdeclare, h⟩ := Work.bind_ok h
        obtain ⟨marker, s₄, hsplice, h⟩ := Work.bind_ok h
        obtain ⟨_, s₅, hset, h⟩ := Work.bind_ok h
        obtain ⟨own, s₆, hown, h⟩ := Work.bind_ok h
        obtain ⟨found, s₇, hfound, h⟩ := Work.bind_ok h
        obtain ⟨_, s₈, hline, h⟩ := Work.bind_ok h
        obtain ⟨own', s₉, hown', hdetach⟩ := Work.bind_ok h
        have hbefore : Leaves s s₂ {} := hfirst.next hsound hregister
        obtain ⟨hreaches, hholder, -⟩ := declareId_ok hdeclare
        have hsound₃ := (hbefore.reaches.trans hreaches).sound hsound
        have hspliced : Leaves s₃ s₄ {} := (Leaves.refl s₃).next hsound₃ hsplice
        have hsound₄ := hspliced.reaches.sound hsound₃
        have hbetween : Leaves s₄ s₇ {} :=
          (((Leaves.refl s₄).next hsound₄ hset).next hsound₄ hown).next hsound₄ hfound
        have hadd := hbetween.reaches.trans (reaches_addAttached hline)
        have hsound₈ := hadd.sound hsound₄
        have hafter : Leaves s₈ s' {} :=
          ((Leaves.refl s₈).next hsound₈ hown').next hsound₈ hdetach
        obtain ⟨line, hfinds⟩ : ∃ line, Finds s₃ s' holder line :=
          ⟨_, finds_of_addAttached (hspliced.append hbetween) hline hafter
            ((elementById_ok hfound).trans ⟨own ++ " = ", [], by rw [List.append_nil]⟩)⟩
        have hsays := says_holder (s := s₃) (l := ⟨e, true, holder, line⟩) rfl hholder
        obtain ⟨k, rfl, hweighs⟩ := weighs_splice hsound₃ hsplice hsays
        have hsame : SameDocument s₁ s₄ := IsTrans.trans _ _ _ (Keeps.keeps hregister)
          (IsTrans.trans _ _ _ (Keeps.keeps hdeclare) (Keeps.keeps hsplice))
        have hlast : SameDocument s₅ s' := IsTrans.trans _ s₇ _
          (IsTrans.trans _ _ _ (Keeps.keeps hown) (Keeps.keeps hfound))
          (IsTrans.trans _ s₈ _ (Keeps.keeps hline)
            (IsTrans.trans _ _ _ (Keeps.keeps hown') (Keeps.keeps hdetach)))
        refine .inr ⟨holder, line, leaves_one hsound hbefore hdeclare hfinds e,
          isElement_of_takeBinder htake, s₁.document, _, htakes, by simpa using hfree, ?_,
          hweighs.later (hadd.trans hafter.reaches)⟩
        rw [show s'.document = s₅.document from hlast, ← show s₄.document = s₁.document from hsame]
        cases hset
        rfl

end Content

end ViewBinder
