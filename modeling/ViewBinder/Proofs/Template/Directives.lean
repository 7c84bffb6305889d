-- What directives leave alone: following one uses attributes of its own, and a value those of the
-- child that holds them. So a directive that is still to come has the attributes it was written with.
import ViewBinder.Proofs.Numbering.Resources
import ViewBinder.Proofs.Template.Leftovers

namespace ViewBinder

open Markup (Document)
open Session
open Work (Keeps Leads)

/-! ## Other attributes -/

namespace Markup.Document

theorem remaining_useAttribute (d : Document) (e i : Nat) :
    (d.useAttribute e i).remaining e = (d.remaining e).filter fun a => a.1 != i := by
  unfold remaining useAttribute
  rw [attributes_changeAttribute, zipIdx_modify, List.filter_map, List.map_map, List.filter_map,
    List.filter_filter]
  have hfilter : (d.node e).attributes.zipIdx.filter ((fun a => !a.1.consumed) ∘ fun a =>
        (if a.2 = i then { a.1 with consumed := true } else a.1, a.2)) =
      (d.node e).attributes.zipIdx.filter fun a => a.2 != i && !a.1.consumed := by
    refine List.filter_congr fun a _ => ?_
    by_cases hi : a.2 = i
    · simp [hi]
    · simp [hi]
  rw [hfilter]
  refine List.map_congr_left fun a ha => ?_
  have hne := (List.mem_filter.mp ha).2
  rw [Bool.and_eq_true, bne_iff_ne] at hne
  simp [hne.1]

/-- Taking an attribute of another name, or of a namespace. -/
theorem spares_take?_ne {e : Nat} {uri name base : Text} (h : uri = [] → name ≠ base)
    (d : Document) : Spares e base d (d.take? e uri name).2 := by
  unfold take?
  split
  · rename_i i a htaken
    obtain ⟨hmem, huri, hname⟩ := mem_remaining_of_find? htaken
    show List.find? _ ((d.useAttribute e i).remaining e) = List.find? _ (d.remaining e)
    rw [remaining_useAttribute, List.find?_filter]
    refine Bundle.find?_congr_until fun b hb => ?_
    have hleft : b ∈ d.remaining e := by
      rcases List.mem_append.mp hb with hb | hb
      · exact (List.takeWhile_sublist _).subset hb
      · exact List.mem_of_find?_eq_some (Option.mem_toList.mp hb)
    -- an attribute of the name that is sought stands at another place
    rw [Bool.eq_iff_iff, decide_eq_true_iff, and_iff_right_iff_imp]
    intro hsought
    rw [bne_iff_ne]
    rintro rfl
    rw [Bool.and_eq_true, beq_iff_eq, beq_iff_eq, remaining_inj hleft hmem] at hsought
    exact h (huri.symm.trans hsought.1) (hname.symm.trans hsought.2)
  · rfl

theorem peek_of_spares {d d' : Document} {e : Nat} {base : Text} (h : Spares e base d d') :
    d'.peek e base = d.peek e base := congrArg (·.map (·.2.value)) h

theorem leads_takeRaw_ne {e : Nat} {name base : Text} (h : name ≠ base) :
    Leads (Spares e base) (takeRaw e name) := ⟨fun d => spares_take?_ne (fun _ => h) d⟩

theorem runOn_takeRaw (e : Nat) (base : Text) (d : Document) :
    (takeRaw e base).runOn d = (.ok (d.peek e base), (d.take? e [] base).2) := by
  have hvalue : (d.take? e [] base).1 = d.peek e base := by
    unfold take? peek
    rcases d.find? e [] base with _ | ⟨i, a⟩ <;> rfl
  rw [← hvalue]
  rfl

/-- An attribute that may be missing is taken with the value it shows. -/
theorem takeDefault_value {e : Nat} {base otherwise value : Text} {d d' : Document}
    (h : (takeDefault e base otherwise).runOn d = (.ok value, d')) :
    value = (d.peek e base).getD otherwise := by
  unfold takeDefault at h
  rw [Work.runOn_bind, runOn_takeRaw] at h
  cases h
  rfl

/-- An attribute that must be there is taken with the value it shows. -/
theorem takeRequired_value {e : Nat} {base value : Text} {d d' : Document}
    (h : (takeRequired e base).runOn d = (.ok value, d')) : d.peek e base = some value := by
  unfold takeRequired at h
  rw [Work.runOn_bind, runOn_takeRaw] at h
  dsimp only at h
  split at h
  · rename_i found hfound
    cases h
    exact hfound
  · cases h

/-! ## Other elements -/

/-- Every name stays, and so do the attributes that an element has left. -/
structure SparesAll (p : Nat) (d d' : Document) : Prop where
  names : SameNames d d'
  spares : ∀ base, Spares p base d d'

variable {p e : Nat}

instance : Std.Refl (SparesAll p) := ⟨fun d => ⟨Std.Refl.refl d, fun _ => rfl⟩⟩

instance : IsTrans Document (SparesAll p) where
  trans _ _ _ h h' := ⟨IsTrans.trans _ _ _ h.names h'.names,
    fun base => IsTrans.trans _ _ _ (h.spares base) (h'.spares base)⟩

theorem sparesAll_useChild (d : Document) (child : Nat) : SparesAll p d (d.useChild child) :=
  ⟨sameNames_useChild d child, fun _ => spares_useChild d child⟩

theorem sparesAll_useAttribute (h : e ≠ p) (d : Document) (i : Nat) :
    SparesAll p d (d.useAttribute e i) :=
  ⟨name_changeAttribute d e i _, fun base => find?_change_ne h [] base⟩

instance [h : Fact (e ≠ p)] (uri base : Text) : Leads (SparesAll p) (takeIn e uri base) :=
  ⟨fun d => ⟨sameNames_take? d e uri base, fun _ => spares_take? h.out d uri base⟩⟩

instance [Fact (e ≠ p)] (base : Text) : Leads (SparesAll p) (takeRaw e base) := by
  unfold takeRaw
  infer_instance

instance [Fact (e ≠ p)] (base : Text) : Leads (SparesAll p) (takeBinder e base) := by
  unfold takeBinder
  refine Leads.bind' inferInstance fun found => ?_
  split <;> infer_instance

/-- A relation that is kept where an attribute is taken is kept where it is taken as a truth value. -/
instance {R : Document → Document → Prop} [Std.Refl R] [IsTrans Document R] (n : Nat) (base : Text)
    (otherwise : Bool) [Leads R (takeRaw n base)] : Leads R (takeBoolean n base otherwise) := by
  unfold takeBoolean
  refine Leads.bind' inferInstance fun found => ?_
  split <;> infer_instance

instance (e : Nat) : Leads (SparesAll p) (assertNoText e) := by
  unfold assertNoText
  refine Leads.bind' inferInstance fun d => ?_
  split <;> infer_instance

instance (e : Nat) (passes : Nat → Bool) : Leads (SparesAll p) (takeChildrenWhere e passes) :=
  ⟨fun d => useChildren sparesAll_useChild d _⟩

instance (e : Nat) : Leads (SparesAll p) (takeChildren e) := by
  have huse : Leads (SparesAll p) (do
      let d ← get
      let children := d.childElements e
      set ((d.contents e).foldl useChild d)
      return children : Work Document (List Nat)) :=
    ⟨fun d => useChildren sparesAll_useChild d _⟩
  unfold takeChildren
  exact Leads.bind' inferInstance fun _ => huse

instance (escape : Bool) (e : Nat) (slots : List Nat) :
    Leads (SparesAll p) (takeSlots escape e slots) := by
  have huse : ∀ c, Leads (SparesAll p) (modify (·.useChild c) : Work Document Unit) :=
    fun c => ⟨fun d => sparesAll_useChild d c⟩
  induction slots with
  | nil =>
    unfold takeSlots
    infer_instance
  | cons c rest ih =>
    unfold takeSlots
    refine Leads.bind' inferInstance fun d => ?_
    dsimp only
    split <;> infer_instance

instance (e : Nat) : Leads (SparesAll p) (takePlainText e) := by
  unfold takePlainText
  infer_instance

end Markup.Document

/-- Every name stays, and so do the attributes that an element has left. -/
def Draft.SparesAll (p : Nat) (d d' : Draft) : Prop := d.document.SparesAll p d'.document

/-- Every name stays, and so do the attributes that an element has left. -/
def Session.SparesAll (p : Nat) (s s' : Session) : Prop := s.document.SparesAll p s'.document

variable {p e : Nat}

instance : Std.Refl (Draft.SparesAll p) := ⟨fun d => Std.Refl.refl d.document⟩

instance : IsTrans Draft (Draft.SparesAll p) :=
  ⟨fun _ _ _ h h' => IsTrans.trans (r := Document.SparesAll p) _ _ _ h h'⟩

instance : Std.Refl (Session.SparesAll p) := ⟨fun s => Std.Refl.refl s.document⟩

instance : IsTrans Session (Session.SparesAll p) :=
  ⟨fun _ _ _ h h' => IsTrans.trans (r := Document.SparesAll p) _ _ _ h h'⟩

instance (priority := low) {w : Work Draft α} [h : Leads Draft.SameDocument w] :
    Leads (Draft.SparesAll p) w where
  leads d := by
    unfold Draft.SparesAll
    rw [show (w.runOn d).2.document = d.document from h.leads d]
    exact Std.Refl.refl _

instance (priority := low) {w : Work Session α} [h : Leads SameDocument w] :
    Leads (Session.SparesAll p) w where
  leads s := by
    unfold Session.SparesAll
    rw [show (w.runOn s).2.document = s.document from h.leads s]
    exact Std.Refl.refl _

instance {w : Work Document α} [h : Leads (Document.SparesAll p) w] :
    Leads (Draft.SparesAll p) (liftM w : Work Draft α) := ⟨fun d => h.leads d.document⟩

instance {w : Work Document α} [h : Leads (Document.SparesAll p) w] :
    Leads (Session.SparesAll p) (liftM w : Work Session α) := ⟨fun s => h.leads s.document⟩

instance {w : Work Draft α} [h : Leads (Draft.SparesAll p) w] :
    Leads (Session.SparesAll p) (liftM w : Work Session α) := ⟨fun s => h.leads s.toDraft⟩

/-! ## Values -/

instance (f : FieldId) (name : Text) : Keeps (Session.SparesAll p) (Element.provide f name) := by
  unfold Element.provide
  refine Keeps.bind' inferInstance fun s => ?_
  split <;> infer_instance

instance (outer : Nat) (f : FieldId) (w : Work Session α) [h : Keeps (Session.SparesAll p) w] :
    Keeps (Session.SparesAll p) (Element.inside outer f w) where
  keeps {s a s'} hok := by
    unfold Element.inside at hok
    rw [Work.runOn_bind, Work.runOn_modify] at hok
    simp only [Work.runOn_andThenAlways] at hok
    rcases hrun : w.runOn { s with fields := s.fields.enter outer f } with ⟨answer, s''⟩
    rw [hrun] at hok
    cases hok
    have hinner : Session.SparesAll p { s with fields := s.fields.enter outer f } s'' := h.keeps hrun
    exact hinner

section Values

variable [h : Fact (e ≠ p)]

instance (ps : Attribute.Parsers) (name : Text) (types : List (Option TypeId)) :
    Leads (Draft.SparesAll p) (Attribute.take? ps e name types) := by
  unfold Attribute.take?
  refine Leads.bind' inferInstance fun found => ?_
  cases found <;> infer_instance

instance (ps : Attribute.Parsers) (name : Text) (types : List (Option TypeId)) :
    Leads (Draft.SparesAll p) (Attribute.takeRequired ps e name types) := by
  unfold Attribute.takeRequired
  infer_instance

instance (name : Text) (types : List (Option TypeId)) :
    Leads (Session.SparesAll p) (takeRequired e name types) := by
  unfold takeRequired
  infer_instance

namespace Element

instance (names : List Text) (params : List Param) :
    Leads (Session.SparesAll p) (bindArguments e names params) := by
  unfold bindArguments
  infer_instance

instance (type : TypeId) : Keeps (Session.SparesAll p) (constructed e type) := by
  unfold constructed
  refine Keeps.bind' inferInstance fun c => ?_
  dsimp only
  repeat' (first | infer_instance | split)

instance (type : TypeId) : Keeps (Session.SparesAll p) (initializer e type) := by
  unfold initializer
  refine Keeps.bind' inferInstance fun s => ?_
  split <;> infer_instance

instance (f : FieldId) (type : TypeId) (i : Nat) (a : Markup.Attribute) :
    Keeps (Session.SparesAll p) (setProperty e f type i a) := by
  have huse : Leads (Session.SparesAll p)
      (modify fun s => { s with document := s.document.useAttribute e i } : Work Session Unit) :=
    ⟨fun s => Document.sparesAll_useAttribute h.out s.document i⟩
  unfold setProperty
  refine Keeps.bind' inferInstance fun c => Keeps.bind' inferInstance fun d => ?_
  dsimp only
  repeat' (first | infer_instance | split | refine Keeps.bind' inferInstance fun _ => ?_)

instance (f : FieldId) (type : TypeId) : Keeps (Session.SparesAll p) (properties e f type) := by
  unfold properties
  repeat' (first | infer_instance | split | refine Keeps.bind' inferInstance fun _ => ?_)

end Element

end Values

/-! ## One directive -/

namespace Directive

section Resources

variable [Fact (e ≠ p)]

instance : Keeps (Session.SparesAll p) (importConstants e) := by
  unfold importConstants
  refine Keeps.bind' inferInstance fun spec => ?_
  split
  · infer_instance
  · refine Keeps.bind' inferInstance fun type => Keeps.bind' inferInstance fun c => ?_
    dsimp only
    repeat' (first | infer_instance | split)

instance : Keeps (Session.SparesAll p) (style e) := by
  unfold style
  refine Keeps.bind' inferInstance fun name => Keeps.bind' inferInstance fun sources => ?_
  refine Keeps.bind' inferInstance fun typeName => Keeps.bind' inferInstance fun css => ?_
  refine Keeps.bind' inferInstance fun s => ?_
  dsimp only
  repeat' (first | infer_instance | split)

instance (name typeName : Text) (declare : Work Draft Text) [Leads Draft.SameDocument declare] :
    Keeps (Session.SparesAll p) (resource e name typeName declare) := by
  unfold resource
  refine Keeps.bind' inferInstance fun s => ?_
  dsimp only
  repeat' (first | infer_instance | split)

instance : Keeps (Session.SparesAll p) (image e) := by
  unfold image
  dsimp only
  infer_instance

instance : Keeps (Session.SparesAll p) (data e) := by
  unfold data
  dsimp only
  infer_instance

end Resources

variable {s s' : Session} {u : Unit}

/-- A value uses attributes of its own or of an element that holds attributes. -/
theorem sparesAll_withValue (hne : e ≠ p) (hname : (s.document.name p).base ≠ "attributes")
    (h : (withValue e).runOn s = (.ok u, s')) : Session.SparesAll p s s' := by
  have : Fact (e ≠ p) := ⟨hne⟩
  unfold withValue at h
  obtain ⟨name, s₁, hfield, h⟩ := Work.bind_ok h
  obtain ⟨typeName, s₂, htype, h⟩ := Work.bind_ok h
  obtain ⟨type, s₃, hresolve, h⟩ := Work.bind_ok h
  obtain ⟨f, s₄, hdeclare, h⟩ := Work.bind_ok h
  obtain ⟨_, s₅, hprovide, h⟩ := Work.bind_ok h
  obtain ⟨children, s₆, htake, h⟩ := Work.bind_ok h
  obtain ⟨target, s₇, htarget, h⟩ := Work.bind_ok h
  have hbefore : Session.SparesAll p s s₆ := IsTrans.trans _ _ _ (Keeps.keeps hfield) <|
    IsTrans.trans _ _ _ (Keeps.keeps htype) <| IsTrans.trans _ _ _ (Keeps.keeps hresolve) <|
    IsTrans.trans _ _ _ (Keeps.keeps hdeclare) <| IsTrans.trans _ _ _ (Keeps.keeps hprovide)
    (Keeps.keeps htake)
  have hother : target ≠ p := by
    rcases children with _ | ⟨child, rest⟩
    · cases htarget
      exact hne
    · obtain ⟨rfl, htag⟩ := (attributesElement_ok htarget).1 child List.mem_cons_self
      rintro rfl
      unfold Document.isBinderTag at htag
      rw [hbefore.names, Bool.and_eq_true, beq_iff_eq] at htag
      exact hname htag.2
  have : Fact (target ≠ p) := ⟨hother⟩
  have hlast : Keeps (Session.SparesAll p) (do
      Element.inside e f (Element.properties target f type)
      Document.assertNoAttributes target : Work Session Unit) := inferInstance
  exact IsTrans.trans _ _ _ hbefore (IsTrans.trans _ _ _ (Keeps.keeps htarget) (hlast.keeps h))

/-- A directive leaves alone every other element that does not hold attributes. -/
theorem sparesAll_follow (hne : e ≠ p) (hname : (s.document.name p).base ≠ "attributes")
    (h : (follow e).runOn s = (.ok u, s')) : Session.SparesAll p s s' := by
  have : Fact (e ≠ p) := ⟨hne⟩
  unfold follow at h
  obtain ⟨_, _, hget, h⟩ := Work.bind_ok h
  cases hget
  dsimp only at h
  split at h
  · obtain ⟨_, s₁, hvalue, hnothing⟩ := Work.bind_ok h
    have hlast : Keeps (Session.SparesAll p) (Element.nothingLeft e) := by
      unfold Element.nothingLeft
      infer_instance
    exact IsTrans.trans _ _ _ (sparesAll_withValue hne hname hvalue) (hlast.keeps hnothing)
  · have hothers : ∀ base : Text, Keeps (Session.SparesAll p) (do
        if base == "import" then importConstants e
        else if base == "style" then style e
        else if base == "image" then image e
        else if base == "data" then data e
        else failOn e fun d => .unknownDirective (d.tag e)
        Element.nothingLeft e : Work Session Unit) := by
      intro base
      unfold Element.nothingLeft
      dsimp only
      infer_instance
    exact (hothers _).keeps h

/-! ## Paths that are sought -/

/-- The paths that a directive looks at: a style reads its sources, a data file is read, and an
image is looked for unless its file is named. -/
def sought (files : Option FileSource) (d : Document) (e : Nat) : List Text :=
  let base := (d.name e).base
  let source := (d.peek e "src").getD []
  if base == "style" then source.words
  else if base == "image" then
    Bundle.imagePlaces files { field := (d.peek e "field").getD [], source }
  else if base == "data" then [source]
  else []

theorem sought_of_sparesAll {d d' : Document} (h : d.SparesAll p d') (files : Option FileSource) :
    sought files d' p = sought files d p := by
  have hpeek : ∀ base, d'.peek p base = d.peek p base := fun base =>
    Document.peek_of_spares (h.spares base)
  unfold sought
  rw [h.names, hpeek, hpeek]

theorem names_follow (h : (follow e).runOn s = (.ok u, s')) :
    s.document.SameNames s'.document := by
  -- a number that no node has is left alone by every directive
  have hnone : s.document.name (s.document.nodes.size + e + 1) = ⟨[], [], []⟩ := by
    unfold Document.name Document.node
    rw [Array.getElem?_eq_none (by omega)]
    rfl
  refine (sparesAll_follow (p := s.document.nodes.size + e + 1) (by omega) ?_ h).names
  rw [hnone]
  decide

/-- What a directive seeks is not changed by another one. -/
theorem sought_follow (hne : e ≠ p) (h : (follow e).runOn s = (.ok u, s'))
    (files : Option FileSource) : sought files s'.document p = sought files s.document p := by
  by_cases hname : (s.document.name p).base = "attributes"
  · have hnothing : ∀ d : Document, (d.name p).base = "attributes" → sought files d p = [] := by
      intro d hd
      unfold sought
      rw [hd]
      rfl
    rw [hnothing _ hname, hnothing _ (by rw [names_follow h p, hname])]
  · exact sought_of_sparesAll (sparesAll_follow hne hname h) files

end Directive

/-! ## All directives -/

namespace Template

/-- The directives of a document. -/
def directives (d : Document) : List Nat := (d.childElements 0).filter d.isBinder

/-- The paths that the directives of a document look at. -/
def sought (files : Option FileSource) (d : Document) : List Text :=
  (directives d).flatMap (Directive.sought files d)

/-- Directives that are left were there before. -/
theorem mem_directives_of_takes {d d' : Document} (h : d.Takes d') {e : Nat}
    (he : e ∈ directives d') : e ∈ directives d := by
  obtain ⟨hslot, hbinder⟩ := List.mem_filter.mp he
  obtain ⟨hunused, helement⟩ := List.mem_filter.mp hslot
  obtain ⟨hchild, hleft⟩ := List.mem_filter.mp hunused
  rw [h.shape.children] at hchild
  rw [h.shape.isElement] at helement
  rw [h.shape.isBinder] at hbinder
  have hbefore : (!(d.node e).consumed) = true := by
    by_contra hused
    rw [Bool.not_eq_true, Bool.not_eq_false'] at hused
    rw [h.slots e hused] at hleft
    cases hleft
  exact List.mem_filter.mpr
    ⟨List.mem_filter.mpr ⟨List.mem_filter.mpr ⟨hchild, hbefore⟩, helement⟩, hbinder⟩

theorem mem_children_of_directives {d : Document} {e : Nat} (he : e ∈ directives d) :
    e ∈ (d.node 0).children :=
  List.mem_of_mem_filter (List.mem_of_mem_filter (List.mem_of_mem_filter he))

theorem nodup_directives {d : Document} (h : (d.node 0).children.Nodup) : (directives d).Nodup :=
  ((h.filter _).filter _).filter _

end Template

end ViewBinder
