-- Attributes of elements inside markup are rewritten before anything else looks at them: messages
-- and references become splices of escaped values. An attribute that is one reference ends up as
-- the marker of such a splice, whatever element it belongs to.
import ViewBinder.Proofs.Markup.Attributes
import ViewBinder.Proofs.Session.Weaving
import ViewBinder.Proofs.Template.Runs

namespace ViewBinder

open Markup (Document Attribute)
open Session
open Work (Keeps Leads)

/-! ## Work that leaves the document alone -/

/-- The document is the same. -/
def Draft.SameDocument (d d' : Draft) : Prop := d'.document = d.document

instance : Std.Refl Draft.SameDocument := ⟨fun _ => rfl⟩

instance : IsTrans Draft Draft.SameDocument := ⟨fun _ _ _ h h' => Eq.trans h' h⟩

/-- The document is the same. -/
def Session.SameDocument (s s' : Session) : Prop := s'.document = s.document

instance : Std.Refl Session.SameDocument := ⟨fun _ => rfl⟩

instance : IsTrans Session Session.SameDocument := ⟨fun _ _ _ h h' => Eq.trans h' h⟩

instance {w : Work Draft α} [h : Leads Draft.SameDocument w] :
    Leads Session.SameDocument (liftM w : Work Session α) := ⟨fun s => h.leads s.toDraft⟩

namespace Draft

instance (w : Work Markers α) : Leads SameDocument (liftM w : Work Draft α) := ⟨fun _ => rfl⟩

instance (f : Draft → FieldTable) :
    Leads SameDocument (modify fun d => { d with fields := f d } : Work Draft Unit) :=
  ⟨fun _ => rfl⟩

instance (path preferred : Text) : Leads SameDocument (importPackage path preferred) :=
  ⟨fun _ => rfl⟩

instance (id : FieldId) (f : Field → Field) : Leads SameDocument (changeField id f) :=
  ⟨fun _ => rfl⟩

instance (precedence : Precedence) (type : Option TypeId) (name : Text) :
    Leads SameDocument (require precedence type name) := by
  refine ⟨fun d => ?_⟩
  unfold require
  rw [runOn_changeFields]
  split <;> rfl

instance (id : FieldId) (expr : Text) : Leads SameDocument (setInitializer id expr) := by
  unfold setInitializer
  refine Leads.bind' inferInstance fun d => ?_
  dsimp only
  split <;> infer_instance

instance (id : FieldId) : Leads SameDocument (use id) := by
  unfold use
  infer_instance

instance : Reading SameDocument := ⟨fun _ _ _ => ⟨fun _ => rfl⟩, fun _ _ => ⟨fun _ => rfl⟩⟩

instance (place : Option Location) (m : Message) : Leads SameDocument (declareMessage place m) := by
  have hupdate : Leads SameDocument updateMessageType := by
    refine ⟨fun d => ?_⟩
    unfold updateMessageType
    rw [Work.runOn_modify]
    split <;> rfl
  have hmessages : ∀ messages, Leads SameDocument
      (modify ({ · with messages }) : Work Draft Unit) := fun _ => ⟨fun _ => rfl⟩
  unfold declareMessage
  infer_instance

end Draft

namespace Session

instance : Importing SameDocument := ⟨fun _ _ => ⟨fun _ => rfl⟩, fun _ _ => ⟨fun _ => rfl⟩⟩

instance (type : Option TypeId) (name initializer : Text) :
    Leads SameDocument (bundleField type name initializer) := by
  unfold bundleField
  infer_instance

instance (place : Option Location) (m : Message) : Leads SameDocument (declareMessage place m) := by
  unfold declareMessage
  infer_instance

instance (e : Nat) (expr : Text) : Leads SameDocument (splice e expr) := ⟨fun _ => rfl⟩

end Session

namespace Content

instance (expr : Text) : Leads SameDocument (escaped expr) := by
  unfold escaped
  infer_instance

instance (e : Nat) (text : Option TypeId) (value : Text) :
    Leads SameDocument (computeAttributes.convertValue e text value) := by
  unfold computeAttributes.convertValue
  refine Leads.bind' (Leads.mapM (h := fun segment => ?_)) fun _ => inferInstance
  split <;> infer_instance

end Content

/-! ## Attributes that are messages -/

/-- An element still has the attribute it had, at the same place and with the same value. -/
def Session.Spares (e : Nat) (base : Text) (found : Nat × Attribute) (s s' : Session) : Prop :=
  s.document.find? e [] base = some found → s.document.Spares e base s'.document

variable {inSection : Bool} {hosts : List FieldId} {e : Nat} {base : Text} {found : Nat × Attribute}

instance : Std.Refl (Session.Spares e base found) := ⟨fun _ _ => rfl⟩

instance : IsTrans Session (Session.Spares e base found) where
  trans _ _ _ h h' hfound := Eq.trans (h' (Eq.trans (h hfound) hfound)) (h hfound)

instance {w : Work Session α} [h : Leads SameDocument w] :
    Leads (Session.Spares e base found) w where
  leads s _ := by
    rw [show (w.runOn s).2.document = s.document from h.leads s]
    rfl

instance {w : Work Document α} [h : Leads (Document.Spares e base) w] :
    Leads (Session.Spares e base found) (liftM w : Work Session α) :=
  ⟨fun s _ => h.leads s.document⟩

namespace Content

/-- The attribute that a message is for is there and refers to nothing. -/
theorem attributeMessage_ok {decl : Nat} (hne : decl ≠ e) {s s' : Session} {name : Text}
    {m : Message} (h : (attributeMessage e decl).runOn s = (.ok (name, m), s')) :
    Session.Spares e base found s s' ∧
      ∃ value, s'.document.peek e name = some value ∧ Segment.hasReference value = false := by
  have hraw : ∀ name, Leads (Document.Spares e base) (Document.takeRaw decl name) :=
    Document.leads_takeRaw hne
  unfold attributeMessage at h
  obtain ⟨name', s₁, hname, h⟩ := Work.bind_ok h
  obtain ⟨description, s₂, hdescription, h⟩ := Work.bind_ok h
  obtain ⟨meaning, s₃, hmeaning, h⟩ := Work.bind_ok h
  obtain ⟨key, s₄, hkey, h⟩ := Work.bind_ok h
  obtain ⟨_, s₅, hattributes, h⟩ := Work.bind_ok h
  obtain ⟨_, s₆, hbody, h⟩ := Work.bind_ok h
  obtain ⟨_, s₇, hget, h⟩ := Work.bind_ok h
  cases hget
  have hspares : Session.Spares e base found s s₆ := by
    refine IsTrans.trans _ s₂ _ (IsTrans.trans _ s₁ _ ?_ ?_) ?_
    · exact Keeps.keeps hname
    · exact Keeps.keeps hdescription
    refine IsTrans.trans _ s₄ _ (IsTrans.trans _ s₃ _ ?_ ?_) (IsTrans.trans _ s₅ _ ?_ ?_)
    · exact Keeps.keeps hmeaning
    · exact Keeps.keeps hkey
    · exact Keeps.keeps hattributes
    · exact Keeps.keeps hbody
  split at h
  · cases h
  · rename_i value hpeek
    split at h
    · obtain ⟨_, _, hfail, _⟩ := Work.bind_ok h
      cases hfail
    · rename_i hplain
      cases h
      exact ⟨hspares, value, hpeek, by simpa using hplain⟩

/-- Messages do not touch an attribute with a reference. -/
theorem spares_declareAttributeMessages {value : Text → Work Session Text}
    [∀ t, Leads SameDocument (value t)] {s s' : Session} {i : Nat} {a : Attribute} {u : Unit}
    (h : (declareAttributeMessages e value).runOn s = (.ok u, s'))
    (hfound : s.document.find? e [] base = some (i, a))
    (hreference : Segment.hasReference a.value = true)
    (htag : s.document.isBinderTag e "attribute" = false) :
    s.document.Spares e base s'.document := by
  unfold declareAttributeMessages at h
  obtain ⟨decls, s₁, htake, h⟩ := Work.bind_ok h
  obtain ⟨hdecls, hdocument⟩ : decls = (s.document.childElements e).filter
      (fun child => s.document.isBinderTag child "attribute") ∧
      s₁.document = decls.foldl Document.useChild s.document := by
    cases htake
    exact ⟨rfl, rfl⟩
  have hchildren : ∀ decl ∈ decls, decl ≠ e := by
    rintro decl hdecl rfl
    rw [hdecls, List.mem_filter, htag] at hdecl
    exact absurd hdecl.2 (by simp)
  have hspares : s.document.Spares e base s₁.document := by
    rw [hdocument]
    exact Document.useChildren Document.spares_useChild _ _
  obtain ⟨_, s₂, hloop, hlast⟩ := Work.bind_ok h
  cases hlast
  have hlater : Session.Spares e base (i, a) s₁ s' := by
    refine (Keeps.forInMem fun decl hdecl _ => ⟨fun {s₃ step s₄} hbody => ?_⟩).keeps hloop
    intro hfound₃
    obtain ⟨⟨name, m⟩, s₅, hmessage, hbody⟩ := Work.bind_ok hbody
    obtain ⟨hspares₅, v, hpeek, hplain⟩ : Session.Spares e base (i, a) s₃ s₅ ∧ _ :=
      attributeMessage_ok (hchildren decl hdecl) hmessage
    obtain ⟨_, _, hget, hbody⟩ := Work.bind_ok hbody
    cases hget
    obtain ⟨method, s₆, hmethod, hbody⟩ := Work.bind_ok hbody
    obtain ⟨text, s₇, htext, hbody⟩ := Work.bind_ok hbody
    obtain ⟨_, _, hset, hbody⟩ := Work.bind_ok hbody
    cases hset
    cases hbody
    have hsame : SameDocument s₅ s₇ :=
      IsTrans.trans _ _ _ (Keeps.keeps hmethod) (Keeps.keeps htext)
    have hne : name ≠ base := by
      -- a message for the attribute itself would have been refused
      rintro rfl
      unfold Document.peek at hpeek
      rw [show s₅.document.find? e [] name = _ from hspares₅ hfound₃, hfound₃] at hpeek
      cases hpeek
      rw [hreference] at hplain
      cases hplain
    show s₃.document.Spares e base (s₇.document.setAttribute e name text)
    rw [show s₇.document = s₅.document from hsame]
    exact IsTrans.trans _ _ _ (hspares₅ hfound₃) (Document.spares_setAttribute hne _ _)
  exact IsTrans.trans _ _ _ hspares (hlater (Eq.trans hspares hfound))

/-! ## Attributes with references -/

/-- One segment in `computeAttributes`: a reference is spliced in, text stays as it is. -/
def convertSegment (e : Nat) (text : Option TypeId) : Segment → Work Session Text
  | .literal t => pure t
  | .reference path => do
    if !Segment.isLegalPath path then
      failOn e fun d => .illegalReference path (d.tag e)
    let marker ← Draft.refer e path [text]
    splice e (← escaped marker)

theorem convertValue_eq (e : Nat) (text : Option TypeId) (value : Text) :
    computeAttributes.convertValue e text value =
      (do return (← (Segment.split value).mapM (convertSegment e text)).flatten) := rfl

instance (e : Nat) (text : Option TypeId) (segment : Segment) :
    Keeps (Runs inSection hosts) (convertSegment e text segment) := by
  cases segment with
  | literal t => exact inferInstanceAs (Keeps _ (pure t))
  | reference path =>
    unfold convertSegment
    infer_instance

theorem convertSegment_reference {text : Option TypeId} {path v : Text} {s s' : Session}
    (h : (convertSegment e text (.reference path)).runOn s = (.ok v, s')) :
    Segment.isLegalPath path = true ∧ ∃ marker s₁ expr s₂,
      (liftM (Draft.refer e path [text]) : Work Session Text).runOn s = (.ok marker, s₁) ∧
      (escaped marker).runOn s₁ = (.ok expr, s₂) ∧ (splice e expr).runOn s₂ = (.ok v, s') := by
  rw [convertSegment] at h
  split at h
  · obtain ⟨_, _, hfail, _⟩ := Work.bind_ok h
    cases hfail
  · rename_i hlegal
    obtain ⟨marker, s₁, hrefer, h⟩ := Work.bind_ok h
    obtain ⟨expr, s₂, hescape, hsplice⟩ := Work.bind_ok h
    exact ⟨by simpa using hlegal, marker, s₁, expr, s₂, hrefer, hescape, hsplice⟩

/-- The package is imported if it was not yet. -/
theorem escaped_ok {expr v : Text} {s s' : Session} (h : (escaped expr).runOn s = (.ok v, s')) :
    ∃ package, v = escapeCall package expr ∧ s'.imports.Known Library.safehtmlPackage package ∧
      ∀ known, s.imports.Known Library.safehtmlPackage known → known = package := by
  cases h
  refine ⟨(s.imports.add Library.safehtmlPackage "safehtml").1, rfl, ?_, fun known hknown => ?_⟩
  · exact Imports.known_add _ _ _
  · rw [hknown.add_eq]

/-- A value that is one reference becomes the marker of its splice. -/
theorem convertValue_ok {text : Option TypeId} {value path v : Text} {s s' : Session}
    (hsound : s.Sound) (hsplit : Segment.split value = [.reference path])
    (h : (computeAttributes.convertValue e text value).runOn s = (.ok v, s')) :
    Segment.isLegalPath path = true ∧
      ∃ r n k package, r.element = e ∧ r.path = Text.trim path ∧ r.types = [text] ∧
        v = Marker.text k ∧ s'.Spliced r n k package := by
  rw [convertValue_eq, hsplit] at h
  obtain ⟨parts, s₁, hparts, h⟩ := Work.bind_ok h
  cases h
  rw [List.mapM_cons] at hparts
  obtain ⟨part, s₂, hpart, hrest⟩ := Work.bind_ok hparts
  rw [List.mapM_nil] at hrest
  cases hrest
  obtain ⟨hlegal, marker, s₃, expr, s₄, hrefer, hescape, hsplice⟩ := convertSegment_reference hpart
  have hrun₃ : Run s s₃ := run_ok hrefer
  have hrun₄ : Run s₃ s₄ := run_ok hescape
  have hrun₅ : Run s₄ s' := run_ok hsplice
  have hsound₄ := (hrun₃.trans hrun₄).reaches.sound hsound
  obtain ⟨rfl, hreference⟩ : marker = Marker.text (s.markers.supply s.markers.entries.length) ∧
      (⟨e, Text.trim path, [text], marker⟩ : FieldReference) ∈ s₃.fields.references := by
    cases hrefer
    refine ⟨rfl, ?_⟩
    show _ ∈ (s.fields.addReference _).references
    unfold FieldTable.addReference
    rw [FieldTable.references_depend]
    exact List.mem_append_right _ List.mem_cons_self
  obtain ⟨package, rfl, hpackage, -⟩ := escaped_ok hescape
  obtain ⟨k, rfl, hsplices⟩ := splices_of_splice hsound₄ hsplice
  refine ⟨hlegal, ⟨e, Text.trim path, [text], _⟩, s.markers.supply s.markers.entries.length, k,
    package, rfl, rfl, rfl, List.append_nil _, rfl, ?_, hsplices, ?_⟩
  · exact (hrun₄.trans hrun₅).fields.extends.references.subset hreference
  · exact hrun₅.reaches.imports (P := fun im => im.Known Library.safehtmlPackage package)
      (fun _ path preferred hknown => hknown.add path preferred) hpackage

/-- The attribute is where it was, whatever its value is now. -/
structure Holds (e : Nat) (base : Text) (i : Nat) (a : Attribute) (s : Session) : Prop where
  sound : s.Sound
  found : ∃ value, s.document.find? e [] base = some (i, { a with value })

/-- The value of the attribute is the marker of a splice. -/
def Replaced (e : Nat) (base : Text) (i : Nat) (a : Attribute) (path : Text)
    (text : Option TypeId) (s : Session) : Prop :=
  Segment.isLegalPath path = true ∧ ∃ r n k package,
    r.element = e ∧ r.path = Text.trim path ∧ r.types = [text] ∧
    s.document.find? e [] base = some (i, { a with value := Marker.text k }) ∧
    s.Spliced r n k package

/-- One attribute in the loop of `computeAttributes`. -/
def computeAttribute (e : Nat) (text : Option TypeId) (x : Nat × Attribute) :
    Work Session (ForInStep PUnit) := do
  if x.2.name.uri.isEmpty && Segment.hasReference x.2.value then
    let value ← computeAttributes.convertValue e text x.2.value
    modify fun s => { s with document := s.document.replaceAttribute e x.1 value }
  return .yield PUnit.unit

theorem computeAttributes_eq (e : Nat) :
    computeAttributes e = (do
      let text ← primitive "string"
      let d ← getDocument
      let _ ← forIn (d.remaining e) PUnit.unit fun x _ => computeAttribute e text x
      return ()) := rfl

theorem computeAttribute_ok {text : Option TypeId} {j : Nat} {b : Attribute} {s s' : Session}
    {step : ForInStep PUnit} (h : (computeAttribute e text (j, b)).runOn s = (.ok step, s')) :
    step = .yield PUnit.unit ∧
      if b.name.uri.isEmpty && Segment.hasReference b.value then
        ∃ value s₁, (computeAttributes.convertValue e text b.value).runOn s = (.ok value, s₁) ∧
          s' = { s₁ with document := s₁.document.replaceAttribute e j value }
      else s' = s := by
  unfold computeAttribute at h
  split at h
  · rename_i htouched
    obtain ⟨value, s₁, hvalue, h⟩ := Work.bind_ok h
    cases h
    rw [if_pos htouched]
    exact ⟨rfl, value, s₁, hvalue, rfl⟩
  · rename_i huntouched
    cases h
    rw [if_neg huntouched]
    exact ⟨rfl, rfl⟩

/-- The turn of one attribute: places stay, and the one that is a reference is replaced. -/
theorem Holds.turn {i j : Nat} {a b : Attribute} {path : Text}
    {text : Option TypeId} {s s' : Session} {step : ForInStep PUnit} (huri : a.name.uri = [])
    (hsplit : Segment.split a.value = [.reference path]) (hplace : j = i → b = a)
    (hholds : Holds e base i a s)
    (h : (computeAttribute e text (j, b)).runOn s = (.ok step, s')) :
    Holds e base i a s' ∧
      (j = i ∨ Replaced e base i a path text s → Replaced e base i a path text s') := by
  obtain ⟨value, hfound⟩ := hholds.found
  obtain ⟨-, hturn⟩ := computeAttribute_ok h
  split at hturn
  · obtain ⟨v, s₁, hconvert, rfl⟩ := hturn
    have hsame : s₁.document = s.document := Keeps.keeps (R := SameDocument) hconvert
    have hrun₁ : Run s s₁ := run_ok hconvert
    have hrun : Run s { s₁ with document := s₁.document.replaceAttribute e j v } :=
      hrun₁.trans (Run.draft (Draft.Calm.document _))
    have hfind : (s₁.document.replaceAttribute e j v).find? e [] base =
        some (i, { a with value := if i = j then v else value }) := by
      rw [Document.find?_replaceAttribute, hsame, hfound]
      by_cases hij : i = j
      · simp [hij]
      · simp [hij]
    refine ⟨⟨hrun.reaches.sound hholds.sound, _, hfind⟩, ?_⟩
    by_cases hij : j = i
    · obtain rfl := hplace hij
      subst hij
      obtain ⟨hlegal, r, n, k, package, he, hpath, htypes, rfl, hspliced⟩ :=
        convertValue_ok hholds.sound hsplit hconvert
      rw [if_pos rfl] at hfind
      refine fun _ => ⟨hlegal, r, n, k, package, he, hpath, htypes, hfind, ?_⟩
      exact hspliced.reaches (hrun₁.reaches.sound hholds.sound)
        (Run.draft (Draft.Calm.document _)).reaches
    · rintro (heq | ⟨hlegal, r, n, k, package, he, hpath, htypes, hold, hspliced⟩)
      · exact absurd heq hij
      · rw [hfound] at hold
        rw [if_neg (Ne.symm hij)] at hfind
        exact ⟨hlegal, r, n, k, package, he, hpath, htypes, hfind.trans hold,
          hspliced.reaches hholds.sound hrun.reaches⟩
  · rename_i huntouched
    subst hturn
    refine ⟨hholds, fun hor => hor.resolve_left fun hij => huntouched ?_⟩
    obtain rfl := hplace hij
    simp [huri, Segment.hasReference, hsplit, Segment.isReference]

theorem Holds.turns {i : Nat} {a : Attribute} {path : Text}
    {text : Option TypeId} (huri : a.name.uri = [])
    (hsplit : Segment.split a.value = [.reference path]) {left : List (Nat × Attribute)}
    (hplace : ∀ b, (i, b) ∈ left → b = a) {s s' : Session} {u : PUnit}
    (hholds : Holds e base i a s)
    (h : (forIn left PUnit.unit fun x _ => computeAttribute e text x).runOn s = (.ok u, s')) :
    Holds e base i a s' ∧ ((i, a) ∈ left ∨ Replaced e base i a path text s →
      Replaced e base i a path text s') := by
  induction left generalizing s with
  | nil =>
    cases h
    exact ⟨hholds, fun hor => hor.resolve_left List.not_mem_nil⟩
  | cons x left ih =>
    obtain ⟨j, b⟩ := x
    rw [List.forIn_cons] at h
    obtain ⟨step, s₁, hbody, h⟩ := Work.bind_ok h
    have hfirst : j = i → b = a := fun hij => hplace b (hij ▸ List.mem_cons_self)
    have hleft : ∀ b, (i, b) ∈ left → b = a := fun b hb => hplace b (List.mem_cons_of_mem _ hb)
    obtain ⟨hholds₁, hreplaced₁⟩ := hholds.turn huri hsplit hfirst hbody
    rw [(computeAttribute_ok hbody).1] at h
    obtain ⟨hholds', hreplaced'⟩ := ih hleft hholds₁ h
    refine ⟨hholds', fun hor => ?_⟩
    rcases hor with hmem | hold
    · rcases List.mem_cons.mp hmem with heq | hmem
      · cases heq
        exact hreplaced' (Or.inr (hreplaced₁ (Or.inl rfl)))
      · exact hreplaced' (Or.inl hmem)
    · exact hreplaced' (Or.inr (hreplaced₁ (Or.inr hold)))

/-- An attribute that is one reference is replaced by the marker of its splice. -/
theorem replaced_of_computeAttributes {i : Nat} {a : Attribute} {path : Text} {s s' : Session}
    {u : Unit} (hsound : s.Sound) (hfound : s.document.find? e [] base = some (i, a))
    (hsplit : Segment.split a.value = [.reference path])
    (h : (computeAttributes e).runOn s = (.ok u, s')) :
    Replaced e base i a path (s.catalog.find? [] "string") s' := by
  rw [computeAttributes_eq] at h
  obtain ⟨text, _, htext, h⟩ := Work.bind_ok h
  cases htext
  obtain ⟨d, _, hget, h⟩ := Work.bind_ok h
  cases hget
  obtain ⟨_, s₁, hloop, h⟩ := Work.bind_ok h
  cases h
  obtain ⟨hmem, huri, -⟩ := Document.mem_remaining_of_find? hfound
  obtain ⟨-, hreplaced⟩ := Holds.turns huri hsplit
    (fun b hb => Document.remaining_inj hb hmem) ⟨hsound, a.value, hfound⟩ hloop
  exact hreplaced (Or.inl hmem)

/-- What is done to the attributes of every element in markup. -/
def rewriteAttributes (e : Nat) : Work Session Unit := do
  declareAttributeMessages e fun method => do splice e (← escaped (method ++ "()"))
  computeAttributes e

instance (e : Nat) : Keeps (Runs inSection hosts) (rewriteAttributes e) := by
  unfold rewriteAttributes
  infer_instance

/-- An attribute that is one reference is replaced by the marker of its splice, whatever else is
rewritten. -/
theorem replaced_of_rewriteAttributes {i : Nat} {a : Attribute} {path : Text} {s s' : Session}
    {u : Unit} (hsound : s.Sound) (htag : s.document.isBinderTag e "attribute" = false)
    (hfound : s.document.find? e [] base = some (i, a))
    (hsplit : Segment.split a.value = [.reference path])
    (h : (rewriteAttributes e).runOn s = (.ok u, s')) :
    ∃ s₁, Run s s₁ ∧ Replaced e base i a path (s₁.catalog.find? [] "string") s' := by
  unfold rewriteAttributes at h
  obtain ⟨_, s₁, hmessages, h⟩ := Work.bind_ok h
  have hrun : Run s s₁ := run_ok hmessages
  have hreference : Segment.hasReference a.value = true := by
    simp [Segment.hasReference, hsplit, Segment.isReference]
  have hspares := spares_declareAttributeMessages hmessages hfound hreference htag
  exact ⟨s₁, hrun, replaced_of_computeAttributes (hrun.reaches.sound hsound)
    (Eq.trans hspares hfound) hsplit h⟩

end Content

/-! ## Names of elements -/

/-- Every element has the name it had. -/
def Session.SameNames (s s' : Session) : Prop := s.document.SameNames s'.document

instance : Std.Refl Session.SameNames := ⟨fun _ _ => rfl⟩

instance : IsTrans Session Session.SameNames := ⟨fun _ _ _ h h' n => (h' n).trans (h n)⟩

instance {w : Work Session α} [h : Leads SameDocument w] : Leads Session.SameNames w where
  leads s _ := by
    rw [show (w.runOn s).2.document = s.document from h.leads s]

instance {w : Work Document α} [h : Leads Document.SameNames w] :
    Leads Session.SameNames (liftM w : Work Session α) := ⟨fun s => h.leads s.document⟩

namespace Content

variable {e : Nat}

instance (e decl : Nat) : Leads SameNames (attributeMessage e decl) := by
  unfold attributeMessage
  refine Leads.bind' inferInstance fun name => Leads.bind' inferInstance fun description => ?_
  refine Leads.bind' inferInstance fun meaning => Leads.bind' inferInstance fun key => ?_
  refine Leads.bind' inferInstance fun _ => Leads.bind' inferInstance fun _ => ?_
  refine Leads.bind' inferInstance fun d => ?_
  split <;> infer_instance

instance (value : Text → Work Session Text) [∀ t, Leads SameDocument (value t)] :
    Leads SameNames (declareAttributeMessages e value) := by
  have hset : ∀ name value, Leads SameNames
      (modify fun s => { s with document := s.document.setAttribute e name value } :
        Work Session Unit) := fun name value =>
    ⟨fun s => Document.sameNames_setAttribute s.document e name value⟩
  unfold declareAttributeMessages
  refine Leads.bind' inferInstance fun decls => ?_
  refine Leads.bind' (Leads.forIn (h := fun decl _ => ?_)) fun _ => inferInstance
  refine Leads.bind' inferInstance fun found => ?_
  split
  infer_instance

instance : Leads SameNames (computeAttributes e) := by
  have hreplace : ∀ i value, Leads SameNames
      (modify fun s => { s with document := s.document.replaceAttribute e i value } :
        Work Session Unit) := fun i value =>
    ⟨fun s => Document.sameNames_replaceAttribute s.document e i value⟩
  unfold computeAttributes
  infer_instance

instance : Leads SameNames (rewriteAttributes e) := by
  unfold rewriteAttributes
  infer_instance

theorem isBinder_of_isImported {d : Document} (h : d.isImported e = true) :
    d.isBinder e = false := by
  unfold Document.isImported at h
  unfold Document.isBinder Markup.isBinderUri
  generalize (d.name e).uri = uri at h
  by_contra hbinder
  rw [Bool.not_eq_false, Bool.or_eq_true, beq_iff_eq, beq_iff_eq] at hbinder
  rcases hbinder with rfl | rfl <;> revert h <;> decide

/-- Widgets and elements that speak to the compiler are no fields of markup. -/
theorem runOn_bindField {s : Session}
    (h : s.document.isImported e = true ∨ s.document.isBinder e = true) :
    (bindField e).runOn s = (.ok (), s) := by
  unfold bindField
  rw [Work.runOn_bind]
  show (if (s.document.isImported e || s.document.isBinder e) = true then _ else _ :
    Work Session Unit).runOn s = _
  rw [if_pos (by simpa using h)]
  rfl

end Content

end ViewBinder
