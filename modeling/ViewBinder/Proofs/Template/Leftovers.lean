-- What a template leaves unread: nothing, but for the content of elements that hold the attributes
-- of a value. Their attributes are read and their content is not even looked at.
import ViewBinder.Compile
import ViewBinder.Proofs.Element.Consumption
import ViewBinder.Proofs.Markup.Load
import ViewBinder.Proofs.Template.Phases

namespace ViewBinder

open Markup (Document)
open Markup.Document (Bare Gone Empty Finished AllFinished Lasting HoldsAttributes)
open Session
open Work (Keeps Leads)

/-! ## Directives -/

namespace Directive

instance (e : Nat) (precedence : Precedence) (type : TypeId) (name : Text) :
    Leads SameDocument (declareField e precedence type name) := by
  unfold declareField
  repeat' (first | infer_instance | split | refine Leads.bind' inferInstance fun _ => ?_)

instance (e : Nat) (name : Text) (problem : Text → Text → Problem) :
    Leads SameDocument (resolveType e name problem) := by
  unfold resolveType
  refine Leads.bind' inferInstance fun c => ?_
  split <;> infer_instance

instance (e : Nat) (found : Option Nat) (children : List Nat) :
    Leads SameDocument (attributesElement e found children) := by
  induction children generalizing found with
  | nil =>
    unfold attributesElement
    infer_instance
  | cons child rest ih =>
    unfold attributesElement
    infer_instance

/-- Only one child is accepted, and it holds attributes. -/
theorem attributesElement_ok {e : Nat} {found : Option Nat} {children : List Nat} {target : Nat}
    {s s' : Session}
    (h : (attributesElement e found children).runOn s = (.ok target, s')) :
    (∀ c ∈ children, c = target ∧ s.document.isBinderTag c "attributes" = true) ∧
      ∀ first, found = some first → target = first := by
  induction children generalizing found with
  | nil =>
    cases h
    refine ⟨fun _ hc => absurd hc List.not_mem_nil, fun first hfirst => ?_⟩
    rw [hfirst]
    rfl
  | cons child rest ih =>
    unfold attributesElement at h
    obtain ⟨_, _, hget, h⟩ := Work.bind_ok h
    cases hget
    dsimp only at h
    split at h
    · obtain ⟨_, _, hfail, -⟩ := Work.bind_ok h
      cases hfail
    · rename_i hpass
      rw [Bool.or_eq_true, not_or, Bool.not_eq_true', Bool.not_eq_false, Bool.not_eq_true] at hpass
      obtain ⟨hrest, htarget⟩ := ih h
      have hchild : target = child := htarget child rfl
      refine ⟨List.forall_mem_cons.mpr ⟨⟨hchild.symm, hpass.1⟩, hrest⟩, fun first hfirst => ?_⟩
      rw [hfirst] at hpass
      cases hpass.2

/-- A value below the root uses all attributes that are for it. -/
theorem withValue_ok {e : Nat} {s s' : Session} {u : Unit}
    (hroot : e ∈ (s.document.node 0).children) (htag : s.document.isBinderTag e "with" = true)
    (h : (withValue e).runOn s = (.ok u, s')) : s.Takes s' := by
  unfold withValue at h
  obtain ⟨name, s₁, hname, h⟩ := Work.bind_ok h
  obtain ⟨typeName, s₂, htype, h⟩ := Work.bind_ok h
  obtain ⟨type, s₃, hresolve, h⟩ := Work.bind_ok h
  obtain ⟨f, s₄, hfield, h⟩ := Work.bind_ok h
  obtain ⟨_, s₅, hprovide, h⟩ := Work.bind_ok h
  obtain ⟨children, s₆, htake, h⟩ := Work.bind_ok h
  obtain ⟨target, s₇, htarget, h⟩ := Work.bind_ok h
  have hbefore : s.Takes s₅ := IsTrans.trans _ _ _ (Keeps.keeps hname) <|
    IsTrans.trans _ _ _ (Keeps.keeps htype) <| IsTrans.trans _ _ _ (Keeps.keeps hresolve) <|
    IsTrans.trans _ _ _ (Keeps.keeps hfield) (Keeps.keeps hprovide)
  obtain ⟨hchildren, hbut, -⟩ := Document.takeChildren_ok (document_ok htake)
  have hsame : s₆.Takes s₇ := Keeps.keeps htarget
  have hlast : Ensures (Bare target) (do
      Element.inside e f (Element.properties target f type)
      Document.assertNoAttributes target : Work Session Unit) := inferInstance
  obtain ⟨hlater, hbare⟩ := hlast.ensures h
  have hafter : s₆.Takes s' := IsTrans.trans _ _ _ hsame hlater
  refine IsTrans.trans _ _ _ hbefore ((hbut.trans hafter.but).close fun c hc => ?_)
  obtain ⟨rfl, hattributes⟩ := (attributesElement_ok htarget).1 c hc
  -- the child was read like any other element, except for what stands in it
  have hholds : s₆.document.HoldsAttributes c := by
    have hshape := hbefore.shape.trans hbut.shape
    refine ⟨hattributes, e, by rwa [hshape.children], by rwa [hshape.isBinderTag], ?_⟩
    rw [hbut.shape.children]
    rw [hchildren] at hc
    exact (List.mem_filter.mp (List.mem_filter.mp hc).1).1
  exact ⟨hbare, .inl (hafter.shape.holdsAttributes hholds)⟩

instance (e : Nat) : Keeps Takes (importConstants e) := by
  unfold importConstants
  refine Keeps.bind' inferInstance fun spec => ?_
  split
  · infer_instance
  · refine Keeps.bind' inferInstance fun type => Keeps.bind' inferInstance fun c => ?_
    dsimp only
    repeat' (first | infer_instance | split)

instance (e : Nat) : Keeps Takes (style e) := by
  unfold style
  refine Keeps.bind' inferInstance fun name => Keeps.bind' inferInstance fun sources => ?_
  refine Keeps.bind' inferInstance fun typeName => Keeps.bind' inferInstance fun css => ?_
  refine Keeps.bind' inferInstance fun s => ?_
  dsimp only
  repeat' (first | infer_instance | split)

instance (e : Nat) (name typeName : Text) (declare : Work Draft Text)
    [Leads Draft.SameDocument declare] : Keeps Takes (resource e name typeName declare) := by
  unfold resource
  refine Keeps.bind' inferInstance fun s => ?_
  dsimp only
  repeat' (first | infer_instance | split)

instance (e : Nat) : Keeps Takes (image e) := by
  unfold image
  dsimp only
  infer_instance

instance (e : Nat) : Keeps Takes (data e) := by
  unfold data
  dsimp only
  infer_instance

/-- A directive below the root is read to the end. -/
theorem follow_ok {e : Nat} {s s' : Session} {u : Unit}
    (hroot : e ∈ (s.document.node 0).children) (helement : (s.document.node e).isElement = true)
    (hbinder : s.document.isBinder e = true) (h : (follow e).runOn s = (.ok u, s')) :
    s.Takes s' ∧ s'.document.Finished e := by
  unfold follow at h
  obtain ⟨_, _, hget, h⟩ := Work.bind_ok h
  cases hget
  dsimp only at h
  split at h
  · rename_i hbase
    obtain ⟨_, s₁, hvalue, hnothing⟩ := Work.bind_ok h
    have htag : s.document.isBinderTag e "with" = true := by
      unfold Document.isBinderTag
      rw [helement, hbinder, hbase]
      rfl
    obtain ⟨hlater, hfinished⟩ := Ensures.ensures (P := Finished e) hnothing
    exact ⟨IsTrans.trans _ _ _ (withValue_ok hroot htag hvalue) hlater, hfinished⟩
  · have hothers : ∀ base : Text, Ensures (Finished e) (do
        if base == "import" then importConstants e
        else if base == "style" then style e
        else if base == "image" then image e
        else if base == "data" then data e
        else failOn e fun d => .unknownDirective (d.tag e)
        Element.nothingLeft e : Work Session Unit) := by
      intro base
      dsimp only
      infer_instance
    exact (hothers _).ensures h

/-- All directives below the root are read to the end. -/
theorem followAll_ok {directives : List Nat} {s s' : Session} {u : Unit}
    (hdirectives : ∀ e ∈ directives, e ∈ (s.document.node 0).children ∧
      (s.document.node e).isElement = true ∧ s.document.isBinder e = true)
    (h : (followAll directives).runOn s = (.ok u, s')) :
    s.Takes s' ∧ s'.document.AllFinished directives := by
  unfold followAll at h
  obtain ⟨_, s₁, hall, hadopt⟩ := Work.bind_ok h
  suffices hfollow : s.Takes s₁ ∧ s₁.document.AllFinished directives by
    have hlater : s₁.Takes s' := Keeps.keeps hadopt
    exact ⟨IsTrans.trans _ _ _ hfollow.1 hlater, Lasting.lasts hlater hfollow.2⟩
  clear hadopt h
  induction directives generalizing s with
  | nil =>
    cases hall
    exact ⟨Std.Refl.refl _, fun _ he => absurd he List.not_mem_nil⟩
  | cons e rest ih =>
    obtain ⟨⟨hroot, helement, hbinder⟩, hrest⟩ := List.forall_mem_cons.mp hdirectives
    obtain ⟨_, s₂, hfirst, hothers⟩ := Work.bind_ok hall
    obtain ⟨htakes, hfinished⟩ := follow_ok hroot helement hbinder hfirst
    have hrest₂ : ∀ e ∈ rest, e ∈ (s₂.document.node 0).children ∧
        (s₂.document.node e).isElement = true ∧ s₂.document.isBinder e = true := by
      intro e he
      rw [htakes.shape.children, htakes.shape.isElement, htakes.shape.isBinder]
      exact hrest e he
    obtain ⟨hlater, hall⟩ := ih hrest₂ hothers
    exact ⟨IsTrans.trans _ _ _ htakes hlater,
      List.forall_mem_cons.mpr ⟨hlater.finished id hfinished, hall⟩⟩

end Directive

/-! ## Bindings and assembly -/

namespace Binding

instance (statement : Text) : Leads SameDocument (addTrailing statement) := ⟨fun _ => rfl⟩

instance (f : FieldId) (ui : Nat) : Leads SameDocument (placeOf f ui) := by
  unfold placeOf
  infer_instance

instance (ui : Nat) (ownerName : Text) (u : UiField) :
    Keeps Takes (bindField ui ownerName u) := by
  unfold bindField
  refine Keeps.bind' inferInstance fun s => ?_
  dsimp only
  repeat' (first | infer_instance | split)

instance (ui : Nat) (h : Handler) (method : Method) (name : Text) :
    Keeps Takes (bindHandlerTo ui h method name) := by
  unfold bindHandlerTo
  refine Keeps.bind' inferInstance fun s => ?_
  dsimp only
  repeat' (first | infer_instance | split)

instance (ui : Nat) (owner : TypeId) (h : Handler) : Keeps Takes (bindHandler ui owner h) := by
  unfold bindHandler
  refine Keeps.bind' inferInstance fun s => ?_
  dsimp only
  repeat' (first | infer_instance | split)

instance (ui : Nat) : Keeps Takes (bindOwner ui) := by
  unfold bindOwner
  refine Keeps.bind' inferInstance fun s => ?_
  split <;> infer_instance

end Binding

namespace Template

instance : Leads SameDocument failIfReported := by
  unfold failIfReported
  refine Leads.bind' inferInstance fun s => ?_
  split <;> infer_instance

instance (root : Nat) (children : List Nat) (ui : Option Nat) :
    Leads SameDocument (interface root children ui) := by
  induction children generalizing ui with
  | nil => cases ui <;> (unfold interface; infer_instance)
  | cons child rest ih =>
    unfold interface
    refine Leads.bind' inferInstance fun d => ?_
    repeat' (first | infer_instance | split)

/-- Every child of the root is a directive or the interface. -/
theorem interface_ok {root : Nat} {children : List Nat} {first : Option Nat} {ui : Nat}
    {s s' : Session} (h : (interface root children first).runOn s = (.ok ui, s')) :
    (∀ c ∈ children, s.document.isBinder c = true ∨ c = ui) ∧
      ∀ e, first = some e → e = ui := by
  induction children generalizing first with
  | nil =>
    cases first with
    | none => cases h
    | some e =>
      cases h
      exact ⟨fun _ hc => absurd hc List.not_mem_nil, fun _ he => (Option.some.inj he).symm⟩
  | cons child rest ih =>
    unfold interface at h
    obtain ⟨_, _, hget, h⟩ := Work.bind_ok h
    cases hget
    split at h
    · rename_i hbinder
      obtain ⟨hrest, hfirst⟩ := ih h
      exact ⟨List.forall_mem_cons.mpr ⟨.inl hbinder, hrest⟩, hfirst⟩
    · split at h
      · cases h
      · obtain ⟨hrest, hfirst⟩ := ih h
        exact ⟨List.forall_mem_cons.mpr ⟨.inr (hfirst child rfl), hrest⟩, nofun⟩

/-- The directives are taken from the root and read to the end; but for them only the interface is
left in it. -/
theorem directives_ok {k : Work Session α} {ui : Nat} {s s₀ s' : Session} {a : α}
    (hui : (interface 0 (s.document.childElements 0) none).runOn s₀ = (.ok ui, s))
    (h : (do
      Directive.followAll (← Document.takeChildrenWhere 0 s.document.isBinder)
      k : Work Session α).runOn s = (.ok a, s')) :
    ∃ s₁, s.Takes s₁ ∧ (∀ c ∈ s₁.document.childElements 0, c = ui) ∧
      k.runOn s₁ = (.ok a, s') := by
  obtain ⟨directives, s₂, htake, h⟩ := Work.bind_ok h
  obtain ⟨_, s₁, hfollow, h⟩ := Work.bind_ok h
  obtain ⟨hdirectives, hbut, hgone⟩ := Document.takeChildrenWhere_ok (document_ok htake)
  have hsame : s.document = s₀.document := Keeps.keeps (R := SameDocument) hui
  obtain ⟨hlater, hall⟩ := Directive.followAll_ok (fun e he => by
    rw [hdirectives, List.mem_filter] at he
    obtain ⟨hslot, helement⟩ := List.mem_filter.mp he.1
    rw [hbut.shape.children, hbut.shape.isElement, hbut.shape.isBinder]
    exact ⟨(List.mem_filter.mp hslot).1, helement, he.2⟩) hfollow
  have htakes : s.Takes s₁ := (hbut.trans hlater.but).close hall
  refine ⟨s₁, htakes, fun c hc => ?_, h⟩
  obtain ⟨hslot, helement⟩ := List.mem_filter.mp hc
  obtain ⟨hchild, hleft⟩ := List.mem_filter.mp hslot
  rw [htakes.shape.children] at hchild
  rw [htakes.shape.isElement] at helement
  have hunused : (s.document.node c).consumed = false := by
    by_contra hused
    rw [htakes.slots c (by simpa using hused)] at hleft
    cases hleft
  have hmember : c ∈ s.document.childElements 0 :=
    List.mem_filter.mpr ⟨List.mem_filter.mpr ⟨hchild, by rw [hunused]; rfl⟩, helement⟩
  refine ((interface_ok hui).1 c hmember).resolve_left fun hbinder => ?_
  -- a directive would have been taken
  rw [← hsame] at hbinder
  have hdirective : c ∈ directives := by
    rw [hdirectives]
    exact List.mem_filter.mpr ⟨hmember, hbinder⟩
  have hused := (hlater.gone (hgone c hdirective)).consumed (by rwa [htakes.shape.isElement])
  rw [hused] at hleft
  cases hleft

/-- The root is read to the end, and so is all that was taken on the way. -/
instance : Ensures (Finished 0) (gather 0) where
  ensures {s f s'} hok := by
    unfold gather at hok
    obtain ⟨_, s₁, hgenerator, hok⟩ := Work.bind_ok hok
    obtain ⟨_, s₂, hattributes, hok⟩ := Work.bind_ok hok
    obtain ⟨_, s₃, htext, hok⟩ := Work.bind_ok hok
    obtain ⟨_, _, hget, hok⟩ := Work.bind_ok hok
    cases hget
    obtain ⟨ui, s₄, hui, hok⟩ := Work.bind_ok hok
    have hsame : s₄.document = s₃.document := Keeps.keeps (R := SameDocument) hui
    rw [← hsame] at hui hok
    obtain ⟨s₅, hdirectives, honly, hok⟩ := directives_ok hui hok
    obtain ⟨_, s₆, hdiscard, hok⟩ := Work.bind_ok hok
    obtain ⟨children, htake, -⟩ := Work.map_ok hdiscard
    obtain ⟨hchildren, hbut, hempty⟩ := Document.takeChildren_ok (document_ok htake)
    have hbuild : Ensures (Finished ui) (do
        let f ← Element.build ui
        discard (Draft.use f)
        failIfReported
        Binding.bindOwner ui
        return f : Work Session FieldId) := inferInstance
    obtain ⟨hlater, hfinished⟩ := hbuild.ensures hok
    have hinterface : s₅.Takes s' := (hbut.trans hlater.but).close fun c hc => by
      rw [hchildren] at hc
      rw [honly c hc]
      exact hfinished
    obtain ⟨hfirst, hbare⟩ := Ensures.ensures (P := Bare 0) hattributes
    have hthen : s₂.Takes s' := IsTrans.trans _ _ _ (Keeps.keeps htext) <|
      IsTrans.trans _ _ _ (Keeps.keeps hui) <| IsTrans.trans _ _ _ hdirectives hinterface
    exact ⟨IsTrans.trans _ _ _ (Keeps.keeps hgenerator) (IsTrans.trans _ _ _ hfirst hthen),
      Lasting.lasts hthen hbare, .inr (hlater.empty hempty)⟩

/-! ## Compiled templates -/

instance (r : FieldReference) : Leads Draft.SameDocument (Draft.settleReference r) := by
  unfold Draft.settleReference
  refine Leads.bind' inferInstance fun d => ?_
  dsimp only
  repeat' (first | infer_instance | split)

instance : Leads Draft.SameDocument Draft.settleReferences := by
  unfold Draft.settleReferences
  repeat' (first | infer_instance | split | refine Leads.bind' inferInstance fun _ => ?_)

instance (p : Program) : Leads SameDocument (weave p) := by
  have hattempt : Leads SameDocument
      (liftM (Markers.weave p.render : Work Markers Text).attempt : Work Session _) :=
    ⟨fun _ => rfl⟩
  unfold weave
  refine Leads.bind' hattempt fun answer => ?_
  split <;> infer_instance

/-- A document that is compiled is read to the end, from its root on. -/
theorem compileDocument_finished {t : Template} {settings : Settings} {compiled : Compiled}
    {s s' : Session} (h : (t.compileDocument settings).runOn s = (.ok compiled, s')) :
    s.Takes s' ∧ s'.document.Finished 0 := by
  have hread : Ensures (Finished 0) (read 0) := by
    unfold read
    infer_instance
  have hassemble : ∀ name f, Keeps Takes (Assembly.assemble settings t.url name f) := by
    refine fun name f => ⟨fun hok => ?_⟩
    obtain ⟨imports, log, -, rfl⟩ := (Assembly.assemble_ok hok).1
    exact Std.Refl.refl _
  have hdone : Ensures (Finished 0) (t.compileDocument settings) := by
    unfold compileDocument
    refine Ensures.after inferInstance fun _ => Ensures.after inferInstance fun _ => ?_
    refine Ensures.before hread fun f => ?_
    refine Keeps.bind' (hassemble _ f) fun program => Keeps.bind' inferInstance fun text => ?_
    infer_instance
  exact hdone.ensures h

/-- How a template is compiled whose document can be read, whatever its markers are numbered by. -/
theorem compileWith_of_ok {supply : Nat → Nat} {c : Catalog} {settings : Settings} {t : Template}
    {compiled : Compiled} (h : (compileWith supply c settings t).answer = .ok compiled) :
    ∃ d, Document.load t.source t.url = .ok d ∧ ∀ supply, compileWith supply c settings t =
      let run := (t.compileDocument settings).runOn (t.start c settings supply d)
      ⟨run.1, run.2.log, run.2.markers.size⟩ := by
  unfold compileWith at h ⊢
  split at h
  · cases h
  · rename_i d hload
    obtain ⟨d', hsource, hrest⟩ := answer_bind hload
    obtain ⟨_, -, hsame⟩ := answer_bind hrest
    cases hsame
    exact ⟨d, hsource, fun supply => rfl⟩

theorem compileWith_ok {supply : Nat → Nat} {c : Catalog} {settings : Settings} {t : Template}
    {compiled : Compiled} (h : (compileWith supply c settings t).answer = .ok compiled) :
    ∃ d s, Document.load t.source t.url = .ok d ∧
      (t.compileDocument settings).runOn (t.start c settings supply d) = (.ok compiled, s) := by
  obtain ⟨d, hload, hall⟩ := compileWith_of_ok h
  rw [hall] at h
  rcases hrun : (t.compileDocument settings).runOn (t.start c settings supply d) with ⟨answer, s⟩
  rw [hrun] at h
  exact ⟨d, s, hload, by rw [hrun, ← h]⟩

/-- Whatever a compiled template says was read. Every element had all of its attributes used, and of
its content at most blanks are left; but nobody looks inside an element that holds the attributes of
a value. -/
theorem compiled_template_was_read {supply : Nat → Nat} {c : Catalog} {settings : Settings}
    {t : Template} {compiled : Compiled}
    (h : (compileWith supply c settings t).answer = .ok compiled) :
    ∃ d s, Document.load t.source t.url = .ok d ∧
      (t.compileDocument settings).runOn (t.start c settings supply d) = (.ok compiled, s) ∧
      d.SameShape s.document ∧
      ∀ e, d.InAttributes e ∨
        s.document.Bare e ∧ (d.HoldsAttributes e ∨ s.document.Empty e) := by
  obtain ⟨d, s, hload, hrun⟩ := compileWith_ok h
  obtain ⟨htakes, hroot⟩ := compileDocument_finished hrun
  refine ⟨d, s, hload, hrun, htakes.shape, fun e => ?_⟩
  refine ((Document.fresh_of_load hload).finished htakes hroot e).imp_right fun hfinished => ?_
  exact ⟨hfinished.bare, hfinished.body.imp_left htakes.shape.symm.holdsAttributes⟩

/-- A value whose attributes have content. -/
def lostContent : Template :=
  { source := "<ui:UiBinder xmlns:ui=\"urn:ui:uibind\" xmlns:g=\"urn:import:uibind.dev/ui\">" ++
      "<ui:with field=\"l\" type=\"uibind.dev/ui.Label\">" ++
      "<ui:attributes text=\"a\">lost<b title=\"t\"/></ui:attributes></ui:with>" ++
      "<g:Label text=\"b\"/></ui:UiBinder>",
    url := "View.ui.xml" }

theorem lostContent_compiles : ∃ d compiled s,
    (compileWith (· + 1) sampleCatalog sampleSettings lostContent).answer = .ok compiled ∧
      Document.load lostContent.source lostContent.url = .ok d ∧
      (lostContent.compileDocument sampleSettings).runOn
        (lostContent.start sampleCatalog sampleSettings (· + 1) d) = (.ok compiled, s) ∧
      (s.document.node 2).children = [3, 4] ∧ (s.document.node 3).isBlank = false ∧
      (s.document.node 3).consumed = false ∧ (s.document.node 4).isElement = true ∧
      (s.document.node 4).consumed = false ∧
      (s.document.node 4).attributes.map (·.consumed) = [false] := by
  have h : lostContent.succeeds (fun d => (lostContent.compileDocument sampleSettings).runOn
      (lostContent.start sampleCatalog sampleSettings (· + 1) d))
      (fun d _ s => (checkRoot d).toOption == some () &&
        (s.document.node 2).children == [3, 4] && !(s.document.node 3).isBlank &&
        !(s.document.node 3).consumed && (s.document.node 4).isElement &&
        !(s.document.node 4).consumed &&
        (s.document.node 4).attributes.map (·.consumed) == [false]) = true := by
    decide +kernel
  obtain ⟨d, compiled, s, hload, hrun, htest⟩ := exists_of_succeeds h
  simp only [Bool.and_eq_true, beq_iff_eq, Bool.not_eq_true'] at htest
  obtain ⟨⟨⟨⟨⟨⟨hroot, hchildren⟩, htext⟩, hunread⟩, helement⟩, hunused⟩, hattribute⟩ := htest
  have hanswer : (compileWith (· + 1) sampleCatalog sampleSettings lostContent).answer =
      .ok compiled := by
    unfold compileWith
    rw [hload]
    simp only [bind, Except.bind, ok_of_toOption hroot, pure, Except.pure, hrun]
  exact ⟨d, compiled, s, hanswer, hload, hrun, hchildren, htext, hunread, helement, hunused,
    hattribute⟩

/-- The attributes themselves were read, and so was everything else. -/
theorem lostContent_was_read_around : ∃ d compiled s,
    (compileWith (· + 1) sampleCatalog sampleSettings lostContent).answer = .ok compiled ∧
      (lostContent.compileDocument sampleSettings).runOn
        (lostContent.start sampleCatalog sampleSettings (· + 1) d) = (.ok compiled, s) ∧
      ∀ e, d.InAttributes e ∨
        s.document.Bare e ∧ (d.HoldsAttributes e ∨ s.document.Empty e) := by
  obtain ⟨_, compiled, _, hanswer, -⟩ := lostContent_compiles
  obtain ⟨d, s, -, hrun, -, hread⟩ := compiled_template_was_read hanswer
  exact ⟨d, compiled, s, hanswer, hrun, hread⟩

/-- The content of the attributes is still there when the template is compiled: its text, its
element, and the attribute of that. -/
theorem content_of_attributes_is_lost : ∃ d compiled s,
    (compileWith (· + 1) sampleCatalog sampleSettings lostContent).answer = .ok compiled ∧
      Document.load lostContent.source lostContent.url = .ok d ∧
      (lostContent.compileDocument sampleSettings).runOn
        (lostContent.start sampleCatalog sampleSettings (· + 1) d) = (.ok compiled, s) ∧
      ∃ e, ¬ s.document.Empty e ∧ ∃ c ∈ (s.document.node e).children,
        (s.document.node c).isElement = true ∧ (s.document.node c).consumed = false ∧
          ¬ s.document.Bare c := by
  obtain ⟨d, compiled, s, hanswer, hload, hrun, hchildren, htext, hunread, helement, hunused,
    hattribute⟩ := lostContent_compiles
  refine ⟨d, compiled, s, hanswer, hload, hrun, 2, fun hempty => ?_, 4, ?_, helement, hunused,
    fun hbare => ?_⟩
  · rcases hempty 3 (by simp [hchildren]) with hused | hblank
    · rw [hunread] at hused
      cases hused
    · rw [htext] at hblank
      cases hblank
  · simp [hchildren]
  · obtain ⟨a, ha, hleft⟩ := List.mem_map.mp (hattribute ▸ List.mem_cons_self)
    rw [hbare a ha] at hleft
    cases hleft

end Template

end ViewBinder
