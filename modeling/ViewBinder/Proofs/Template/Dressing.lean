-- Attributes of elements in markup, from what the template says to what is written. Messages and
-- references are spliced in, and a field gets an id; nothing else in them is read as a marker.
import ViewBinder.Proofs.Template.Placing

namespace ViewBinder

open Markup (Document Attribute)
open Session
open Work (Keeps Leads)

namespace Content

variable {s s' s'' : Session} {t u : Trace} {e : Nat} {values more : List Text}

/-! ## Texts put together -/

/-- Between the sessions something was written for each of some plain texts. -/
structure Wrote (s s' : Session) (ts us : List Text) (t : Trace) : Prop where
  leaves : Leaves s s' t
  patches : List.Forall₂ Marker.Patch ts us
  weighs : ∀ m name, Reading s' t.values m name →
    m.Tally name (us.flatMap Marker.markersIn) (t.mentions name)

theorem Wrote.nil (s : Session) : Wrote s s [] [] {} :=
  ⟨Leaves.refl s, .nil, fun _ _ _ => .nil⟩

theorem wrote_one {x y : Text} (h : Leaves s s' t) (hpatch : Marker.Patch x y)
    (hweighs : Weighs s' y t) : Wrote s s' [x] [y] t where
  leaves := h
  patches := .cons hpatch .nil
  weighs m name hreading := by
    rw [List.flatMap_singleton]
    exact hweighs m name hreading

theorem Wrote.append {ts us ts' us' : List Text} (h : Wrote s s' ts us t)
    (h' : Wrote s' s'' ts' us' u) : Wrote s s'' (ts ++ ts') (us ++ us') (t.append u) where
  leaves := h.leaves.append h'.leaves
  patches := List.rel_append h.patches h'.patches
  weighs m name hreading := by
    rw [List.flatMap_append, Trace.mentions_append]
    have hfirst : Reading s' t.values m name :=
      hreading.earlier h'.leaves.reaches (List.subset_append_left _ _)
    have hrest : Reading s'' u.values m name :=
      hreading.earlier (Reaches.refl s'') (List.subset_append_right _ _)
    exact (h.weighs m name hfirst).append (h'.weighs m name hrest)

/-- Unless markers can be read in the plain text, those that are written are all there are. -/
theorem Wrote.flatten {ts us : List Text} (h : Wrote s s' ts us t)
    (hfront : ¬ Marker.front <:+: ts.flatten) : Weighs s' us.flatten t := fun m name hreading => by
  rw [Marker.markersIn_flatten h.patches hfront]
  exact h.weighs m name hreading

/-- Plain text mentions no id. -/
theorem weighs_plain {x : Text} (hfront : ¬ Marker.front <:+: x) : Weighs s x ⟨[], values⟩ :=
  fun m name _ => by
    rw [Marker.markersIn_eq_nil hfront]
    exact .nil

theorem Weighs.mono {content : Text} {lookups : List Lookup} (h : Weighs s content ⟨lookups, values⟩)
    (hreaches : Reaches s s') (hmore : values ⊆ more) : Weighs s' content ⟨lookups, more⟩ :=
  fun m name hreading => h m name (hreading.earlier hreaches hmore)

theorem Leaves.valued (h : Leaves s s' {}) (hvalues : ∀ x ∈ values, IsValue s' x) :
    Leaves s s' ⟨[], values⟩ := { h with values := hvalues }

/-- A value that is spliced in mentions no id. -/
theorem weighs_value {x marker : Text} (hsound : s.Sound)
    (hok : (splice e x).runOn s = (.ok marker, s')) :
    ∃ k, marker = Marker.text k ∧ Weighs s' marker ⟨[], [x]⟩ :=
  weighs_splice hsound hok fun _ _ hreading => hreading.values x List.mem_cons_self

/-! ## References in attributes -/

theorem convertSegment_ok {type : Option TypeId} {segment : Segment} {v : Text} (hsound : s.Sound)
    (hfront : ¬ Marker.front <:+: segment.outline)
    (h : (convertSegment e type segment).runOn s = (.ok v, s')) :
    ∃ values, Wrote s s' [segment.outline] [v] ⟨[], values⟩ := by
  cases segment with
  | literal x =>
    cases h
    exact ⟨[], wrote_one (Leaves.refl s) (.text (.refl _)) (weighs_plain hfront)⟩
  | reference path =>
    obtain ⟨-, marker, s₁, expr, s₂, hrefer, hescape, hsplice⟩ := convertSegment_reference h
    obtain ⟨r, hr, rfl⟩ : ∃ r ∈ s₁.fields.references, r.marker = marker := by
      cases hrefer
      refine ⟨⟨e, Text.trim path, [type], _⟩, ?_, rfl⟩
      show _ ∈ (s.fields.addReference _).references
      unfold FieldTable.addReference
      rw [FieldTable.references_depend]
      exact List.mem_append_right _ List.mem_cons_self
    obtain ⟨package, rfl, -⟩ := escaped_ok hescape
    have hbefore : Leaves s s₂ {} := ((Leaves.refl s).next hsound hrefer).next hsound hescape
    have hlater : Leaves s₁ s' {} := by
      have hsound₁ := ((Leaves.refl s).next hsound hrefer).reaches.sound hsound
      exact ((Leaves.refl s₁).next hsound₁ hescape).next hsound₁ hsplice
    obtain ⟨k, rfl, hweighs⟩ := weighs_value (hbefore.reaches.sound hsound) hsplice
    have hvalue := (IsValue.reference package hr).later hlater.reaches
    exact ⟨_, wrote_one ((hbefore.next hsound hsplice).valued (List.forall_mem_singleton.mpr hvalue))
      (.marker _ k) hweighs⟩

/-- References in a value are spliced in, and its text stays as it is. -/
theorem convertValue_weighs {type : Option TypeId} {value v : Text} (hsound : s.Sound)
    (hfront : ¬ Marker.front <:+: value)
    (h : (computeAttributes.convertValue e type value).runOn s = (.ok v, s')) :
    ∃ values, Leaves s s' ⟨[], values⟩ ∧ Weighs s' v ⟨[], values⟩ := by
  have hoverlay : ¬ Marker.front <:+: (Segment.split value).flatMap Segment.outline := fun hfound =>
    hfront ((Segment.covers_split value).front hfound)
  rw [convertValue_eq] at h
  obtain ⟨parts, s₁, hparts, hlast⟩ := Work.bind_ok h
  cases hlast
  generalize Segment.split value = segments at hparts hoverlay
  have hwrote : ∃ values, Wrote s s' (segments.map Segment.outline) parts ⟨[], values⟩ := by
    clear h
    induction segments generalizing s parts with
    | nil =>
      cases hparts
      exact ⟨[], Wrote.nil _⟩
    | cons segment segments ih =>
      rw [List.mapM_cons] at hparts
      obtain ⟨part, s₂, hfirst, hparts⟩ := Work.bind_ok hparts
      obtain ⟨others, s₃, hrest, hlast⟩ := Work.bind_ok hparts
      cases hlast
      rw [List.flatMap_cons] at hoverlay
      obtain ⟨first, hwrote⟩ := convertSegment_ok hsound
        (fun hfound => hoverlay (hfound.trans (List.prefix_append _ _).isInfix)) hfirst
      obtain ⟨rest, hwrote'⟩ := ih (hwrote.leaves.reaches.sound hsound) others hrest
        (fun hfound => hoverlay (hfound.trans (List.suffix_append _ _).isInfix))
      exact ⟨first ++ rest, hwrote.append hwrote'⟩
  obtain ⟨values, hwrote⟩ := hwrote
  exact ⟨values, hwrote.leaves, hwrote.flatten (by rwa [← List.flatMap_def])⟩

/-! ## Attributes that are rewritten -/

/-- The attributes that are left of an element mention no id. -/
def Plain (s : Session) (e : Nat) (values : List Text) : Prop :=
  ∀ a ∈ (s.document.node e).attributes, a.consumed = false →
    ¬ Marker.front <:+: a.name.base ∧ Weighs s a.value ⟨[], values⟩

/-- What an attribute with references says otherwise is not read as a marker. -/
def Unread (e : Nat) (d : Document) : Prop :=
  ∀ a ∈ (d.node e).attributes, a.consumed = false → Segment.hasReference a.value = true →
    ¬ Marker.front <:+: a.value

/-- Attributes of an element were rewritten by values that are spliced in. -/
def Dresses (e : Nat) (s s' : Session) : Prop :=
  s.Sound → ∃ values, Leaves s s' ⟨[], values⟩ ∧
    ∀ before, Plain s e before → Plain s' e (before ++ values)

instance : Std.Refl (Dresses e) :=
  ⟨fun s _ => ⟨[], Leaves.refl s, fun before h => by rwa [List.append_nil]⟩⟩

instance : IsTrans Session (Dresses e) where
  trans _ _ _ h h' hsound := by
    obtain ⟨first, hleaves, hplain⟩ := h hsound
    obtain ⟨rest, hleaves', hplain'⟩ := h' (hleaves.reaches.sound hsound)
    refine ⟨first ++ rest, hleaves.append hleaves', fun before h => ?_⟩
    rw [← List.append_assoc]
    exact hplain' _ (hplain before h)

/-- Attributes of an element were rewritten, and those that are messages have no references. -/
def Announces (e : Nat) (s s' : Session) : Prop :=
  Dresses e s s' ∧ (Unread e s.document → Unread e s'.document)

instance : Std.Refl (Announces e) := ⟨fun _ => ⟨Std.Refl.refl _, id⟩⟩

instance : IsTrans Session (Announces e) where
  trans _ _ _ h h' := ⟨IsTrans.trans _ _ _ h.1 h'.1, h'.2 ∘ h.2⟩

/-- Where nothing is spliced in, the attributes that are left are as they were. -/
theorem announces_of_left (hleaves : s.Sound → Leaves s s' {})
    (hold : ∀ a ∈ (s'.document.node e).attributes, a.consumed = false →
      a ∈ (s.document.node e).attributes) : Announces e s s' := by
  refine ⟨fun hsound => ⟨[], hleaves hsound, fun before h a ha hleft => ?_⟩, fun h a ha hleft => ?_⟩
  · obtain ⟨hbase, hweighs⟩ := h a (hold a ha hleft) hleft
    exact ⟨hbase, hweighs.mono (hleaves hsound).reaches (List.subset_append_left _ _)⟩
  · exact h a (hold a ha hleft) hleft

theorem leaves_document (hsound : s.Sound) (d : Document) : Leaves s { s with document := d } {} :=
  (Leaves.refl s).next hsound
    (w := modify fun s => { s with document := d }) (a := ()) rfl

theorem mem_replaceAttribute {d : Document} {i : Nat} {v : Text} {a : Attribute}
    (h : a ∈ ((d.replaceAttribute e i v).node e).attributes) :
    a ∈ (d.node e).attributes ∨ ∃ b ∈ (d.node e).attributes, a = { b with value := v } := by
  unfold Document.replaceAttribute at h
  rw [Document.attributes_changeAttribute] at h
  obtain ⟨k, hk⟩ := List.mem_iff_getElem?.mp h
  rw [List.getElem?_modify] at hk
  obtain ⟨b, hb, rfl⟩ := Option.map_eq_some_iff.mp hk
  have hmem := List.mem_of_getElem? hb
  split
  · exact .inr ⟨b, hmem, rfl⟩
  · exact .inl hmem

/-- An attribute gets a value that mentions no id. -/
theorem dresses_replace {v : Text} (i : Nat)
    (h : s.Sound → ∃ values, Leaves s s' ⟨[], values⟩ ∧ Weighs s' v ⟨[], values⟩)
    (hsame : s'.document = s.document) :
    Dresses e s { s' with document := s'.document.replaceAttribute e i v } := by
  intro hsound
  obtain ⟨values, hleaves, hweighs⟩ := h hsound
  have hset := leaves_document (hleaves.reaches.sound hsound) (s'.document.replaceAttribute e i v)
  have hreaches := hleaves.reaches.trans hset.reaches
  have hwhole := hleaves.append hset
  rw [show Trace.append ⟨[], values⟩ {} = ⟨[], values⟩ by simp [Trace.append]] at hwhole
  refine ⟨values, hwhole, fun before hplain a ha hleft => ?_⟩
  rcases mem_replaceAttribute ha with hold | ⟨b, hb, rfl⟩
  · rw [hsame] at hold
    obtain ⟨hbase, hother⟩ := hplain a hold hleft
    exact ⟨hbase, hother.mono hreaches (List.subset_append_left _ _)⟩
  · rw [hsame] at hb
    exact ⟨(hplain b hb hleft).1, hweighs.mono hset.reaches (List.subset_append_right _ _)⟩

/-! ## Messages in attributes -/

/-- A message is called by its method. -/
theorem declareMessage_ok {place : Option Location} {message : Message} {method : Text}
    (h : (declareMessage place message).runOn s = (.ok method, s')) :
    ∃ i, method = messagesName ++ "." ++ Messages.methodName i := by
  unfold declareMessage at h
  obtain ⟨name, s₁, hname, h⟩ := Work.bind_ok h
  obtain ⟨_, _, hget, h⟩ := Work.bind_ok h
  cases hget
  obtain ⟨field, s₂, hfield, hlast⟩ := Work.bind_ok h
  cases hlast
  obtain ⟨d, hd, -⟩ := lift_ok hname
  have hreads : Reads false [] (· = Text.sanitize "uibindMessages")
      (bundleField s₁.messages.type "uibindMessages" s₁.messages.initializer) :=
    reads_bundleField (isClosed_object _)
  obtain ⟨_, _, -, hread, -⟩ := hreads.reads (ready_any _) hfield
  have hmessages : Text.sanitize "uibindMessages" = messagesName := by decide
  unfold Draft.declareMessage at hd
  obtain ⟨_, _, hstate, hd⟩ := Work.bind_ok hd
  cases hstate
  obtain ⟨⟨i, messages⟩, _, -, hd⟩ := Work.bind_ok hd
  obtain ⟨_, _, -, hd⟩ := Work.bind_ok hd
  obtain ⟨_, _, -, hlast⟩ := Work.bind_ok hd
  cases hlast
  exact ⟨i, by rw [hread, hmessages]⟩

theorem hasReference_marker (k : Nat) : Segment.hasReference (Marker.text k) = false := by
  unfold Segment.hasReference
  rw [Segment.split_text]
  rfl

/-- An attribute that is a message becomes the marker of a call of its method. -/
theorem announces_messages (e : Nat) : Keeps (Announces e)
    (declareAttributeMessages e fun method => do splice e (← escaped (method ++ "()"))) where
  keeps {s u s'} hok := by
    unfold declareAttributeMessages at hok
    obtain ⟨decls, s₁, htake, hok⟩ := Work.bind_ok hok
    obtain ⟨_, s₂, hloop, hlast⟩ := Work.bind_ok hok
    cases hlast
    have htaken : Announces e s s₁ := by
      refine announces_of_left (fun hsound => (Leaves.refl s).next hsound htake) fun a ha _ => ?_
      cases htake
      exact Document.attributes_useChildren s.document _ e ▸ ha
    refine IsTrans.trans _ _ _ htaken ?_
    refine (Keeps.forIn' fun decl _ => ⟨fun {s₁ step s'} hbody => ?_⟩).keeps hloop
    obtain ⟨⟨name, m⟩, s₂, hmessage, hbody⟩ := Work.bind_ok hbody
    obtain ⟨_, _, hget, hbody⟩ := Work.bind_ok hbody
    cases hget
    obtain ⟨method, s₃, hmethod, hbody⟩ := Work.bind_ok hbody
    obtain ⟨v, s₄, hvalue, hbody⟩ := Work.bind_ok hbody
    obtain ⟨expr, s₅, hescape, hsplice⟩ := Work.bind_ok hvalue
    obtain ⟨_, _, hset, hbody⟩ := Work.bind_ok hbody
    cases hset
    cases hbody
    have hread : Announces e s₁ s₂ := announces_of_left
      (fun hsound => (Leaves.refl s₁).next hsound hmessage)
      ((Ensures.ensures (P := Document.Finished decl) hmessage).1.left e id)
    refine IsTrans.trans _ _ _ hread ?_
    obtain ⟨i, rfl⟩ := declareMessage_ok hmethod
    obtain ⟨package, rfl, -⟩ := escaped_ok hescape
    have hsame : SameDocument s₂ s₄ := IsTrans.trans _ _ _ (Keeps.keeps hmethod)
      (IsTrans.trans _ _ _ (Keeps.keeps hescape) (Keeps.keeps hsplice))
    obtain ⟨⟨place, a⟩, hfound⟩ := Option.isSome_iff_exists.mp (attributeMessage_has hmessage)
    have hset : s₄.document.setAttribute e name v = s₄.document.replaceAttribute e place v := by
      unfold Document.setAttribute
      rw [show s₄.document = s₂.document from hsame, hfound]
    show Announces e s₂ { s₄ with document := s₄.document.setAttribute e name v }
    rw [hset]
    refine ⟨dresses_replace place (fun hsound => ?_) hsame, fun hunread b hb hleft href => ?_⟩
    · have hbefore : Leaves s₂ s₅ {} := ((Leaves.refl s₂).next hsound hmethod).next hsound hescape
      have hvalues := List.forall_mem_singleton.mpr (IsValue.message (s := s₄) package i)
      obtain ⟨k, rfl, hweighs⟩ := weighs_value (hbefore.reaches.sound hsound) hsplice
      exact ⟨_, (hbefore.next hsound hsplice).valued hvalues, hweighs⟩
    · rw [show s₄.document = s₂.document from hsame] at hb
      rcases mem_replaceAttribute hb with hold | ⟨c, -, rfl⟩
      · exact hunread b hold hleft href
      · obtain ⟨k, rfl⟩ : ∃ k, v = Marker.text k := by
          cases hsplice
          exact ⟨_, rfl⟩
        rw [hasReference_marker] at href
        cases href

/-- An attribute with references becomes text with the markers of their values. -/
theorem dresses_references (hunread : Unread e s.document) {u : Unit}
    (h : (computeAttributes e).runOn s = (.ok u, s')) : Dresses e s s' := by
  rw [computeAttributes_eq] at h
  obtain ⟨type, _, htype, h⟩ := Work.bind_ok h
  cases htype
  obtain ⟨d, _, hget, h⟩ := Work.bind_ok h
  cases hget
  obtain ⟨_, s₁, hloop, hlast⟩ := Work.bind_ok h
  cases hlast
  refine (Keeps.forInMem fun x hx _ => ⟨fun {s₁ step s'} hbody => ?_⟩).keeps hloop
  obtain ⟨i, a⟩ := x
  obtain ⟨-, hturn⟩ := computeAttribute_ok hbody
  split at hturn
  · rename_i htouched
    obtain ⟨v, s₂, hconvert, rfl⟩ := hturn
    have href : Segment.hasReference a.value = true := (Bool.and_eq_true_iff.mp htouched).2
    obtain ⟨hmem, hleft⟩ := Document.mem_remaining hx
    have hsame : SameDocument s₁ s₂ := Keeps.keeps hconvert
    refine dresses_replace i (fun hsound => ?_) hsame
    exact convertValue_weighs hsound (hunread a hmem hleft href) hconvert
  · subst hturn
    exact Std.Refl.refl _

/-- Attributes that are left of an element do not look like markers. -/
def UnmarkedAttributes (e : Nat) (d : Document) : Prop :=
  ∀ a ∈ (d.node e).attributes, a.consumed = false →
    ¬ Marker.front <:+: a.name.base ∧ ¬ Marker.front <:+: a.value

/-- Whatever is rewritten of attributes, they mention no id. -/
theorem rewriteAttributes_plain (hsound : s.Sound) (hunmarked : UnmarkedAttributes e s.document)
    {u : Unit} (h : (rewriteAttributes e).runOn s = (.ok u, s')) :
    ∃ values, Leaves s s' ⟨[], values⟩ ∧ Plain s' e values := by
  unfold rewriteAttributes at h
  obtain ⟨_, s₁, hmessages, hreferences⟩ := Work.bind_ok h
  obtain ⟨hfirst, hunread⟩ := (announces_messages e).keeps hmessages
  have hdresses : Dresses e s s' := IsTrans.trans _ _ _ hfirst
    (dresses_references (hunread fun a ha hleft _ => (hunmarked a ha hleft).2) hreferences)
  obtain ⟨values, hleaves, hplain⟩ := hdresses hsound
  refine ⟨values, hleaves, hplain [] fun a ha hleft => ?_⟩
  exact ⟨(hunmarked a ha hleft).1, weighs_plain (hunmarked a ha hleft).2⟩

/-! ## Attributes as they are written -/

/-- The attributes that are left mention an id as often as elements with it are shown. -/
structure Dressed (s : Session) (e : Nat) (t : Trace) : Prop where
  names : ∀ x ∈ s.document.remaining e, ¬ Marker.front <:+: x.2.name.base
  weighs : ∀ m name, Reading s t.values m name →
    m.Tally name ((s.document.remaining e).flatMap fun x => Marker.markersIn x.2.value)
      (t.mentions name)

theorem tally_zero {m : Markers} {name : Text} {attributes : List (Nat × Attribute)}
    (h : ∀ x ∈ attributes, m.Tally name (Marker.markersIn x.2.value) 0) :
    m.Tally name (attributes.flatMap fun x => Marker.markersIn x.2.value) 0 := by
  induction attributes with
  | nil => exact .nil
  | cons x attributes ih =>
    obtain ⟨hx, hrest⟩ := List.forall_mem_cons.mp h
    exact hx.append (ih hrest)

theorem Plain.dressed (h : Plain s e values) : Dressed s e ⟨[], values⟩ where
  names x hx := (h x.2 (Document.mem_remaining hx).1 (Document.mem_remaining hx).2).1
  weighs m name hreading := tally_zero fun x hx =>
    (h x.2 (Document.mem_remaining hx).1 (Document.mem_remaining hx).2).2 m name hreading

/-- A field mentions its id in its attributes. -/
theorem Plain.identified {holder line : Text} (h : Plain s e values)
    (hidentified : Identified s e holder line s') :
    Dressed s' e (Trace.append ⟨[], values⟩ (.one ⟨e, true, holder, line⟩)) := by
  obtain ⟨d, marker, htakes, hfree, hdocument, hweighs⟩ := hidentified.given
  have helement := hidentified.element
  rw [← htakes.shape.isElement] at helement
  obtain ⟨i, hremaining⟩ := Document.remaining_setAttribute helement hfree marker
  have hold : ∀ x ∈ d.remaining e, ¬ Marker.front <:+: x.2.name.base ∧
      Weighs s x.2.value ⟨[], values⟩ := by
    intro x hx
    obtain ⟨hmem, hleft⟩ := Document.mem_remaining hx
    exact h x.2 (htakes.left e id _ hmem hleft) hleft
  refine ⟨fun x hx => ?_, fun m name hreading => ?_⟩
  · rw [hdocument, hremaining] at hx
    rcases List.mem_append.mp hx with hx | hx
    · exact (hold x hx).1
    · obtain rfl := List.mem_singleton.mp hx
      have hid : ¬ Marker.front <:+: Text.ofString "id" := by decide
      exact hid
  · rw [hdocument, hremaining, List.flatMap_append, Trace.mentions_append]
    refine (tally_zero fun x hx => ?_).append ?_
    · exact (hold x hx).2 m name
        (hreading.earlier hidentified.leaves.reaches (List.subset_append_left _ _))
    · rw [List.flatMap_singleton]
      exact hweighs m name (hreading.earlier (Reaches.refl s') (List.subset_append_right _ _))

/-- The attributes that are left are written. -/
theorem markupAttributes_written {attributes : List (Nat × Attribute)} {written : List (Text × Text)}
    (h : (markupAttributes e attributes).runOn s = (.ok written, s')) :
    written = attributes.map fun x => (x.2.name.base, x.2.value) := by
  induction attributes generalizing s written with
  | nil =>
    cases h
    rfl
  | cons a rest ih =>
    unfold markupAttributes at h
    dsimp only at h
    split at h
    · obtain ⟨_, _, hfail, _⟩ := Work.bind_ok h
      cases hfail
    · obtain ⟨_, _, huse, h⟩ := Work.bind_ok h
      cases huse
      obtain ⟨others, s₁, hrest, hlast⟩ := Work.bind_ok h
      cases hlast
      rw [ih hrest]
      rfl

/-- An element that nothing stands for is one of markup, and is written itself. -/
theorem markupElement_of_renderElement {build : Builder} {slot : Nat → Work Session Html}
    {attached stamped : Bool} {panel : Option FieldId} {html : Html}
    (hnone : (interpret? build (.markup attached panel stamped) slot e).runOn s = (.ok none, s'))
    (h : (renderElement build (.markup attached panel stamped) slot e).runOn s = (.ok html, s'')) :
    s'.document.isImported e = false ∧ s'.document.isBinder e = false ∧
      (markupElement slot e).runOn s' = (.ok html, s'') := by
  unfold renderElement at h
  obtain ⟨answer, s₁, hinterpret, h⟩ := Work.bind_ok h
  rw [hnone] at hinterpret
  cases hinterpret
  obtain ⟨_, _, hget, h⟩ := Work.bind_ok h
  cases hget
  dsimp only at h
  split at h
  · rename_i htext
    cases htext
  · split at h
    · obtain ⟨_, _, hfail, _⟩ := Work.bind_ok h
      cases hfail
    · rename_i hbinder
      split at h
      · obtain ⟨_, _, hfail, _⟩ := Work.bind_ok h
        cases hfail
      · rename_i himported
        exact ⟨by simpa using himported, by simpa using hbinder, h⟩

end Content

end ViewBinder
