-- What is looked up on attach and what is written. Content is read slot by slot, down to elements in
-- elements; every element that is looked up has its id in what is written for it, unless something
-- around it is dropped when the finished markup is written: the content of an element that has none,
-- or of a placeholder without a name.
import ViewBinder.Proofs.Template.Dressing

namespace ViewBinder

open Markup (Document)
open Session
open Work (Keeps Leads)

namespace Content

variable {s s' s'' : Session} {t u : Trace} {e : Nat}

/-! ## Documents that are read -/

/-- The nodes are the same, and but for some elements, whatever attributes are left were so before. -/
structure Fewer (p : Nat → Prop) (d d' : Document) : Prop where
  shape : d.SameShape d'
  left : ∀ e, ¬ p e → ∀ a ∈ (d'.node e).attributes, a.consumed = false → a ∈ (d.node e).attributes

theorem fewer_of_takesBut {p : Nat → Prop} {d d' : Document} (h : d.TakesBut p d') : Fewer p d d' :=
  ⟨h.shape, h.left⟩

theorem fewer_of_takes {p : Nat → Prop} {d d' : Document} (h : d.Takes d') : Fewer p d d' :=
  fewer_of_takesBut h.but

theorem fewer_useChild {p : Nat → Prop} (d : Document) (c : Nat) : Fewer p d (d.useChild c) where
  shape := (Document.takesBut_useChild (p := fun _ => True) fun _ => trivial).shape
  left n _ a ha _ := by rwa [Document.attributes_useChild] at ha

theorem Fewer.trans {p : Nat → Prop} {d d' d'' : Document} (h : Fewer p d d') (h' : Fewer p d' d'') :
    Fewer p d d'' where
  shape := h.shape.trans h'.shape
  left n hn a ha hleft := h.left n hn a (h'.left n hn a ha hleft) hleft

/-- Whatever attributes are left were so before. -/
abbrev Used : Document → Document → Prop := Fewer fun _ => False

/-! ## Where elements lie -/

/-- What is in an element of content is written, or it is dropped. -/
inductive Shows (d : Document) (p : Nat) : Bool → Prop
  | tag : d.isImported p = false → d.isBinder p = false →
      Shows d p (!Html.isVoid (d.name p).base)
  | message : d.isBinderTag p "msg" = true → Shows d p true
  | placeholder {a : Markup.Attribute} : d.isBinderTag p "ph" = true → a ∈ (d.node p).attributes →
      a.consumed = false → a.name.uri = [] → a.name.base = "name" → Shows d p (!a.value.isEmpty)

/-- The element lies in some slots, and it is known whether it is written with them. -/
inductive Lies (d : Document) : List Nat → Bool → Nat → Prop
  | here {slots : List Nat} {x : Nat} : x ∈ slots → Lies d slots true x
  | inside {slots : List Nat} {p x : Nat} {kept shown : Bool} : p ∈ slots → Shows d p kept →
      Lies d (d.node p).children shown x → Lies d slots (shown && kept) x

theorem Lies.mono {d : Document} {slots more : List Nat} {shown : Bool} {x : Nat}
    (h : Lies d slots shown x) (hsub : slots ⊆ more) : Lies d more shown x := by
  cases h with
  | here hx => exact .here (hsub hx)
  | inside hp hshows hlies => exact .inside (hsub hp) hshows hlies

/-- Elements lay where they lie before other elements were taken. -/
theorem Lies.earlier {d d' : Document} {p : Nat → Prop} {slots : List Nat} {shown : Bool} {x : Nat}
    (h : Lies d' slots shown x) (hbut : Fewer p d d')
    (hp : ∀ n, p n → d.isBinderTag n "ph" = false) : Lies d slots shown x := by
  induction h with
  | here hx => exact .here hx
  | @inside slots n x kept shown hn hshows _ ih =>
    rw [hbut.shape.children] at ih
    refine .inside hn ?_ ih
    cases hshows with
    | tag himported hbinder =>
      rw [hbut.shape.isImported] at himported
      rw [hbut.shape.isBinder] at hbinder
      have hname : d'.name n = d.name n := hbut.shape.name n
      rw [hname]
      exact .tag himported hbinder
    | message htag =>
      rw [hbut.shape.isBinderTag] at htag
      exact .message htag
    | placeholder htag ha hleft huri hbase =>
      rw [hbut.shape.isBinderTag] at htag
      have hother : ¬ p n := fun hpn => by
        rw [hp n hpn] at htag
        cases htag
      exact .placeholder htag (hbut.left n hother _ ha hleft) hleft huri hbase

/-- The node is one of some slots or lies in one of them. -/
inductive Below (d : Document) (slots : List Nat) : Nat → Prop
  | here {n : Nat} : n ∈ slots → Below d slots n
  | inside {p n : Nat} : Below d slots p → n ∈ (d.node p).children → Below d slots n

theorem Below.outer {d : Document} {slots : List Nat} {p n : Nat} (hp : p ∈ slots)
    (h : Below d (d.node p).children n) : Below d slots n := by
  induction h with
  | here hn => exact .inside (.here hp) hn
  | inside _ hn ih => exact .inside ih hn

/-- Where nothing is dropped, every element is written. -/
theorem Lies.shown {d : Document} {slots : List Nat} {shown : Bool} {x : Nat}
    (h : Lies d slots shown x) (hkept : ∀ p, Below d slots p → ¬ Shows d p false) :
    shown = true := by
  induction h with
  | here _ => rfl
  | @inside slots p x kept shown hp hshows _ ih =>
    have hshown : shown = true := ih fun q hq => hkept q (hq.outer hp)
    cases kept with
    | true => rw [hshown, Bool.and_true]
    | false => exact absurd hshows (hkept p (.here hp))

/-! ## Templates without markers -/

/-- Nothing in the document looks like the beginning of a marker, whatever of its content is left
out; of attributes that is known for some elements and those in them. -/
structure Unmarked (r : Nat → Prop) (d : Document) : Prop where
  closed : ∀ e, r e → ∀ n ∈ (d.node e).children, r n
  content : ∀ n, ¬ Marker.front <:+: (d.node n).content
  texts : ∀ (e : Nat) (slots : List Nat), slots.Sublist (d.node e).children →
    ¬ Marker.front <:+: (slots.map fun n => (d.node n).content).flatten
  names : ∀ e, ¬ Marker.front <:+: (d.name e).base
  attributes : ∀ e, r e → UnmarkedAttributes e d

variable {r : Nat → Prop}

/-- The node has no dash in its name, its text or its attributes. -/
def dashless (n : Markup.Node) : Bool :=
  (n.content ++ n.name.base).all (· != '-'.toUInt8) &&
    n.attributes.all fun a => (a.name.base ++ a.value).all (· != '-'.toUInt8)

theorem not_front_of_all {l : Text} (h : l.all (· != '-'.toUInt8) = true) :
    ¬ Marker.front <:+: l := fun hinside => by
  have hdash : '-'.toUInt8 ∈ Marker.front := by decide
  simpa using List.all_eq_true.mp h _ (hinside.subset hdash)

/-- A template without dashes has no markers. -/
theorem unmarked_of_dashless {d : Document} {slots : List Nat} (h : d.nodes.all dashless = true) :
    Unmarked (Below d slots) d := by
  have hnode : ∀ n, dashless (d.node n) = true := by
    intro n
    unfold Document.node
    cases hn : d.nodes[n]? with
    | none => rfl
    | some node => exact Array.all_eq_true_iff_forall_mem.mp h node (Array.mem_of_getElem? hn)
  have hsplit : ∀ n, ((d.node n).content.all (· != '-'.toUInt8) = true ∧
      (d.name n).base.all (· != '-'.toUInt8) = true) ∧ ∀ a ∈ (d.node n).attributes,
        a.name.base.all (· != '-'.toUInt8) = true ∧ a.value.all (· != '-'.toUInt8) = true := by
    intro n
    have hn := hnode n
    unfold dashless at hn
    simp only [List.all_append, Bool.and_eq_true, List.all_eq_true (p := fun _ => _ && _)] at hn
    exact hn
  exact {
    closed := fun e he n hn => .inside he hn
    content := fun n => not_front_of_all (hsplit n).1.1
    texts := fun e slots _ => not_front_of_all <| by
      rw [List.all_flatten, List.all_map, List.all_eq_true]
      exact fun n _ => (hsplit n).1.1
    names := fun e => not_front_of_all (hsplit e).1.2
    attributes := fun e _ a ha _ =>
      have hboth := (hsplit e).2 a ha
      ⟨not_front_of_all hboth.1, not_front_of_all hboth.2⟩ }

/-- No attributes are left of the elements that are still worked on. -/
theorem Unmarked.but {d d' : Document} {p : Nat → Prop} (h : Unmarked r d) (hbut : Fewer p d d')
    (hbare : ∀ n, p n → d'.Bare n) : Unmarked r d' where
  closed e he := by
    rw [hbut.shape.children]
    exact h.closed e he
  content n := by
    rw [hbut.shape.content]
    exact h.content n
  texts e slots hsub := by
    rw [hbut.shape.children] at hsub
    have hsame : (fun n => (d'.node n).content) = fun n => (d.node n).content :=
      funext hbut.shape.content
    rw [hsame]
    exact h.texts e slots hsub
  names e := by
    have hname : d'.name e = d.name e := hbut.shape.name e
    rw [hname]
    exact h.names e
  attributes e he a ha hleft := by
    have hother : ¬ p e := fun hp => by
      rw [hbare e hp a ha] at hleft
      cases hleft
    exact h.attributes e he a (hbut.left e hother a ha hleft) hleft

theorem Unmarked.later {d d' : Document} (h : Unmarked r d) (hused : Used d d') : Unmarked r d' :=
  h.but hused fun _ hf => hf.elim

/-! ## Slots -/

/-- The session can write content. -/
structure Writing (r : Nat → Prop) (s : Session) : Prop where
  sound : s.Sound
  genuine : s.Genuine
  unmarked : Unmarked r s.document

theorem Writing.later (h : Writing r s) (hleaves : Leaves s s' t)
    (hused : Used s.document s'.document) : Writing r s' :=
  ⟨hleaves.reaches.sound h.sound, hleaves.genuine h.genuine, h.unmarked.later hused⟩

/-- Some slots were written, and it is known where elements lie that are looked up. -/
structure Renders (s s' : Session) (slots : List Nat) (us : List Text) (t : Trace) : Prop where
  wrote : Wrote s s' (slots.map fun n => (s.document.node n).content) us t
  lies : ∀ l ∈ t.lookups, Lies s.document slots l.shown l.element

theorem renders_nil (h : Leaves s s' {}) : Renders s s' [] [] {} :=
  ⟨⟨h, .nil, fun _ _ _ => .nil⟩, nofun⟩

theorem Renders.append {slots slots' : List Nat} {us us' : List Text}
    (h : Renders s s' slots us t) (hused : Used s.document s'.document)
    (h' : Renders s' s'' slots' us' u) :
    Renders s s'' (slots ++ slots') (us ++ us') (t.append u) where
  wrote := by
    have hsame : (fun n => (s'.document.node n).content) = fun n => (s.document.node n).content :=
      funext hused.shape.content
    have hrest := h'.wrote
    rw [hsame] at hrest
    rw [List.map_append]
    exact h.wrote.append hrest
  lies := List.forall_mem_append.mpr
    ⟨fun l hl => (h.lies l hl).mono (List.subset_append_left _ _), fun l hl =>
      ((h'.lies l hl).earlier hused fun _ hf => hf.elim).mono (List.subset_append_right _ _)⟩

/-- Slots of one element mention an id as often as elements with it are shown. -/
theorem Renders.weighs {slots : List Nat} {us : List Text} (h : Renders s s' slots us t)
    (hwriting : Writing r s) (hsub : slots.Sublist (s.document.node e).children) :
    Weighs s' us.flatten t := h.wrote.flatten (hwriting.unmarked.texts e slots hsub)

/-- Every slot is written like that. -/
def Faithful (r : Nat → Prop) (slot : Nat → Work Session Html) : Prop :=
  ∀ {s n html s'}, r n → Writing r s → (slot n).runOn s = (.ok html, s') →
    ∃ t, Renders s s' [n] [html.render] t

variable {slot : Nat → Work Session Html} [∀ n, Ensures (Document.Gone n) (slot n)]

theorem used_slot {n : Nat} {html : Html} (h : (slot n).runOn s = (.ok html, s')) :
    Used s.document s'.document := fewer_of_takes (Ensures.ensures (P := Document.Gone n) h).1

theorem mapM_renders (hslot : Faithful r slot) {slots : List Nat} {htmls : List Html}
    (hslots : ∀ n ∈ slots, r n) (hwriting : Writing r s)
    (h : (slots.mapM slot).runOn s = (.ok htmls, s')) :
    ∃ t, Renders s s' slots (htmls.map Html.render) t := by
  induction slots generalizing s htmls with
  | nil =>
    cases h
    exact ⟨{}, renders_nil (Leaves.refl _)⟩
  | cons n slots ih =>
    rw [List.mapM_cons] at h
    obtain ⟨html, s₁, hfirst, h⟩ := Work.bind_ok h
    obtain ⟨others, s₂, hrest, hlast⟩ := Work.bind_ok h
    cases hlast
    have hused := used_slot hfirst
    obtain ⟨hn, hslots⟩ := List.forall_mem_cons.mp hslots
    obtain ⟨t, hrenders⟩ := hslot hn hwriting hfirst
    obtain ⟨u, hrenders'⟩ := ih hslots (hwriting.later hrenders.wrote.leaves hused) hrest
    exact ⟨t.append u, hrenders.append hused hrenders'⟩

theorem renderAll_eq (htmls : List Html) :
    Html.renderAll htmls = (htmls.map Html.render).flatten := by
  induction htmls with
  | nil => rfl
  | cons html htmls ih =>
    unfold Html.renderAll
    rw [ih]
    rfl

/-- What is in an element is written slot by slot. -/
theorem renderSlots_ok (hslot : Faithful r slot) {htmls : List Html}
    (hchildren : ∀ n ∈ (s.document.node e).children, r n) (hwriting : Writing r s)
    (h : (renderSlots slot e).runOn s = (.ok htmls, s')) :
    ∃ t, Leaves s s' t ∧ Weighs s' (Html.renderAll htmls) t ∧
      ∀ l ∈ t.lookups, Lies s.document (s.document.node e).children l.shown l.element := by
  unfold renderSlots at h
  obtain ⟨_, _, hget, h⟩ := Work.bind_ok h
  cases hget
  have hsub : (s.document.contents e).Sublist (s.document.node e).children := List.filter_sublist
  obtain ⟨t, hrenders⟩ :=
    mapM_renders hslot (fun n hn => hchildren n (hsub.subset hn)) hwriting h
  rw [renderAll_eq]
  exact ⟨t, hrenders.wrote.leaves, hrenders.weighs hwriting hsub,
    fun l hl => (hrenders.lies l hl).mono hsub.subset⟩

/-! ## Elements of markup -/

/-- The markers of an element are those of its attributes and those of its content. -/
theorem weighs_element {name : Text} {written : List (Text × Text)} {htmls : List Html}
    (hname : ¬ Marker.front <:+: name) (hnames : ∀ a ∈ written, ¬ Marker.front <:+: a.1)
    (hattributes : ∀ m x, Reading s t.values m x →
      m.Tally x (written.flatMap fun a => Marker.markersIn a.2) (t.mentions x))
    (hreaches : Reaches s s') (hcontent : Weighs s' (Html.renderAll htmls) u) :
    Weighs s' (Html.element name written htmls).render (t.append (u.under !Html.isVoid name)) := by
  intro m x hreading
  have hbases : (written.flatMap fun a => Marker.markersIn a.1 ++ Marker.markersIn a.2) =
      written.flatMap fun a => Marker.markersIn a.2 := by
    refine List.flatMap_congr fun a ha => ?_
    rw [Marker.markersIn_eq_nil (hnames a ha), List.nil_append]
  rw [Html.markersIn_element hname, hbases, Trace.mentions_append]
  have hfirst := hattributes m x (hreading.earlier hreaches (List.subset_append_left _ _))
  have hrest := hcontent m x
    (hreading.earlier (Reaches.refl s') (List.subset_append_right t.values u.values))
  refine hfirst.append ?_
  cases Html.isVoid name with
  | true =>
    rw [if_pos rfl, Bool.not_true, Trace.mentions_under_false]
    exact .nil
  | false =>
    rw [if_neg Bool.false_ne_true, Bool.not_false, Trace.under_true]
    exact hrest

/-- An element is being written: of the document it is known how it was before, and nothing was
taken since but of the element itself. -/
structure Underway (r : Nat → Prop) (d : Document) (e : Nat) (s : Session) : Prop where
  within : r e
  unmarked : Unmarked r d
  but : Fewer (· = e) d s.document
  sound : s.Sound
  genuine : s.Genuine

/-- Once nothing is left of its attributes, what is in the element can be written. -/
theorem Underway.bare {d : Document} (h : Underway r d e s) (hleaves : Leaves s s' {})
    (htakes : s.Takes s') (hbare : s'.document.Bare e) :
    Writing r s' ∧ Fewer (· = e) d s'.document := by
  have hbut : Fewer (· = e) d s'.document := h.but.trans (fewer_of_takes htakes)
  exact ⟨⟨hleaves.reaches.sound h.sound, hleaves.genuine h.genuine,
    h.unmarked.but hbut fun n hn => hn ▸ hbare⟩, hbut⟩

/-- What lies in an element that is no placeholder lay in it before it was written. -/
theorem Lies.within {d d' : Document} {kept shown : Bool} {x : Nat}
    (h : Lies d' (d'.node e).children shown x) (hbut : Fewer (· = e) d d')
    (hother : d.isBinderTag e "ph" = false) (hshows : Shows d e kept) :
    Lies d [e] (shown && kept) x := by
  have hinside := h.earlier hbut fun n hn => hn ▸ hother
  rw [hbut.shape.children] at hinside
  exact .inside (List.mem_singleton_self e) hshows hinside

/-- An element of markup is written with its attributes and, if it may have any, its content. -/
theorem markupElement_ok (hslot : Faithful r slot) {d : Document} {html : Html}
    (hunderway : Underway r d e s) (hdressed : Dressed s e t)
    (himported : s.document.isImported e = false) (hbinder : s.document.isBinder e = false)
    (h : (markupElement slot e).runOn s = (.ok html, s')) :
    ∃ u, Leaves s s' u ∧ Weighs s' html.render (t.append u) ∧
      (∀ x, Marker.Patch x html.render) ∧ ∀ l ∈ u.lookups, Lies d [e] l.shown l.element := by
  unfold markupElement at h
  obtain ⟨_, s₁, hcheck, h⟩ := Work.bind_ok h
  obtain ⟨_, _, hget, h⟩ := Work.bind_ok h
  cases hget
  obtain ⟨written, s₂, hattributes, h⟩ := Work.bind_ok h
  obtain ⟨htmls, s₃, hslots, h⟩ := Work.bind_ok h
  obtain ⟨_, _, hget, hlast⟩ := Work.bind_ok h
  cases hget
  cases hlast
  have hsame : SameDocument s s₁ := Keeps.keeps hcheck
  have hbefore : Leaves s s₂ {} :=
    ((Leaves.refl s).next hunderway.sound hcheck).next hunderway.sound hattributes
  have htakes : s.Takes s₂ := IsTrans.trans _ s₁ _ (Keeps.keeps hcheck) (Keeps.keeps hattributes)
  have hbare : s₂.document.Bare e := by
    rw [markupAttributes_ok hattributes]
    exact Document.bare_useAttributes s₁.document e
  obtain ⟨hwriting, hbut⟩ := hunderway.bare hbefore htakes hbare
  obtain ⟨u, hleaves, hweighs, hlies⟩ :=
    renderSlots_ok hslot (hwriting.unmarked.closed e hunderway.within) hwriting hslots
  have hlater : s₂.Takes s' := Keeps.keeps hslots
  have hname : s'.document.name e = d.name e := (hlater.shape.name e).trans (hbut.shape.name e)
  have hwritten := markupAttributes_written hattributes
  rw [show s₁.document = s.document from hsame] at hwritten
  have hnames : ∀ a ∈ written, ¬ Marker.front <:+: a.1 := by
    rw [hwritten]
    exact List.forall_mem_map.mpr hdressed.names
  have htally : ∀ m x, Reading s t.values m x →
      m.Tally x (written.flatMap fun a => Marker.markersIn a.2) (t.mentions x) := by
    intro m x hreading
    rw [hwritten, List.flatMap_map]
    exact hdressed.weighs m x hreading
  have hwhole : Leaves s s' u := hbefore.append hleaves
  rw [hname]
  refine ⟨u.under !Html.isVoid (d.name e).base, hwhole.under _,
    weighs_element (hunderway.unmarked.names e) hnames htally hwhole.reaches hweighs,
    fun x => Html.patch_element x _ _ _, fun l hl => ?_⟩
  obtain ⟨l', hl', rfl⟩ := Trace.mem_under hl
  rw [hunderway.but.shape.isImported] at himported
  rw [hunderway.but.shape.isBinder] at hbinder
  exact (hlies l' hl').within hbut (Document.isBinderTag_of_isBinder hbinder)
    (.tag himported hbinder)

/-! ## Messages -/

/-- The arguments of a message mention an id as often as elements with it are shown. -/
def Tells (s : Session) (parts : List MessagePart) (t : Trace) : Prop :=
  ∀ m name, Reading s t.values m name → ∃ counts,
    List.Forall₂ (m.Mentions name) (parts.filterMap MessagePart.arg?) counts ∧
      counts.sum = t.mentions name

theorem Tells.append {parts more : List MessagePart} (h : Tells s parts t)
    (hreaches : Reaches s s') (h' : Tells s' more u) : Tells s' (parts ++ more) (t.append u) := by
  intro m name hreading
  obtain ⟨counts, hall, hsum⟩ := h m name (hreading.earlier hreaches (List.subset_append_left _ _))
  obtain ⟨counts', hall', hsum'⟩ :=
    h' m name (hreading.earlier (Reaches.refl s') (List.subset_append_right _ _))
  rw [List.filterMap_append, Trace.mentions_append]
  exact ⟨counts ++ counts', List.rel_append hall hall', by rw [List.sum_append, hsum, hsum']⟩

/-- Some slots were read as parts of a message, and it is known where elements lie that are looked
up. -/
structure Recounts (s s' : Session) (slots : List Nat) (parts : List MessagePart) (t : Trace) :
    Prop where
  leaves : Leaves s s' t
  tells : Tells s' parts t
  lies : ∀ l ∈ t.lookups, Lies s.document slots l.shown l.element

theorem Recounts.append {slots slots' : List Nat} {parts more : List MessagePart}
    (h : Recounts s s' slots parts t) (hused : Used s.document s'.document)
    (h' : Recounts s' s'' slots' more u) :
    Recounts s s'' (slots ++ slots') (parts ++ more) (t.append u) where
  leaves := h.leaves.append h'.leaves
  tells := h.tells.append h'.leaves.reaches h'.tells
  lies := List.forall_mem_append.mpr
    ⟨fun l hl => (h.lies l hl).mono (List.subset_append_left _ _), fun l hl =>
      ((h'.lies l hl).earlier hused fun _ hf => hf.elim).mono (List.subset_append_right _ _)⟩

theorem literalParts_scans {x : Text} {ps : List Marker.Piece} (hscans : Marker.Scans x ps)
    {count last : Nat} {parts : List MessagePart}
    (h : (literalParts count ps).runOn s = (.ok (parts, last), s')) :
    s' = s ∧ (s.Sound → s.Genuine → ∀ {m : Markers} {name : Text} {n : Nat}, s.Ends m →
      m.Tally name (ps.filterMap Marker.Piece.digits?) n → ∃ counts,
        List.Forall₂ (m.Mentions name) (parts.filterMap MessagePart.arg?) counts ∧
          counts.sum = n) := by
  induction hscans generalizing count last parts with
  | nil =>
    cases h
    refine ⟨rfl, fun _ _ _ _ _ _ htally => ?_⟩
    cases htally
    exact ⟨[], .nil, rfl⟩
  | plain _ _ _ _ ih =>
    unfold literalParts at h
    obtain ⟨⟨rest, last'⟩, s₁, hrest, hlast⟩ := Work.bind_ok h
    cases hlast
    obtain ⟨hsame, htells⟩ := ih hrest
    exact ⟨hsame, htells⟩
  | @marker digits rest ps hne hdigits _ ih =>
    unfold literalParts at h
    obtain ⟨arg, s₁, harg, h⟩ := Work.bind_ok h
    obtain ⟨⟨others, last'⟩, s₂, hrest, hlast⟩ := Work.bind_ok h
    cases hlast
    obtain rfl : s₁ = s := by
      cases harg
      rfl
    obtain ⟨rfl, htells⟩ := ih hrest
    refine ⟨rfl, fun hsound hgenuine m name n hends htally => ?_⟩
    cases htally with
    | cons hinserts hothers =>
      obtain ⟨counts, hall, rfl⟩ := htells hsound hgenuine hends hothers
      have halone : Marker.markersIn (Marker.Piece.marker digits).text = [digits] := by
        have hfirst := Marker.markersIn_marker hne hdigits []
        rwa [List.append_nil, Marker.markersIn_nil] at hfirst
      have hmentions := mentions_spliced hgenuine hsound hends harg
        (halone ▸ Markers.Tally.single hinserts)
      exact ⟨_ :: counts, .cons hmentions hall, List.sum_cons⟩

/-- Literal content of a message tells what it holds. -/
theorem literalParts_ok {x : Text} {count last : Nat} {parts : List MessagePart}
    (hsound : s.Sound) (hgenuine : s.Genuine) (hweighs : Weighs s x t)
    (h : (literalParts count (Marker.pieces x)).runOn s = (.ok (parts, last), s')) :
    s' = s ∧ Tells s parts t := by
  obtain ⟨hsame, htells⟩ := literalParts_scans (Marker.pieces_scans x) h
  exact ⟨hsame, fun m name hreading =>
    htells hsound hgenuine hreading.ends (hweighs m name hreading)⟩

/-- An attribute that is taken was left. -/
theorem attribute_of_takeRequired {base v : Text}
    (h : (liftM (Document.takeRequired e base) : Work Session Text).runOn s = (.ok v, s')) :
    ∃ a ∈ (s.document.node e).attributes, a.consumed = false ∧ a.name.uri = [] ∧
      a.name.base = base ∧ a.value = v := by
  have hdocument := document_ok h
  unfold Document.takeRequired at hdocument
  obtain ⟨found, d, htake, hlast⟩ := Work.bind_ok hdocument
  cases found with
  | none => cases hlast
  | some w =>
    cases hlast
    have hvalue : (s.document.take? e [] base).1 = some v :=
      Except.ok.inj (congrArg Prod.fst htake)
    unfold Document.take? at hvalue
    split at hvalue
    · rename_i i a hfound
      obtain ⟨hmem, huri, hbase⟩ := Document.mem_remaining_of_find? hfound
      obtain ⟨ha, hleft⟩ := Document.mem_remaining hmem
      exact ⟨a, ha, hleft, huri, hbase, Option.some.inj hvalue⟩
    · cases hvalue

/-- A placeholder tells what it holds, unless it has no name. -/
theorem placeholder_ok (hslot : Faithful r slot) {c : Nat} {part : MessagePart} (hc : r c)
    (hwriting : Writing r s)
    (htag : s.document.isBinderTag c "ph" = true)
    (h : (placeholder slot c).runOn s = (.ok part, s')) :
    ∃ t, Recounts s s' [c] [part] t := by
  unfold placeholder at h
  obtain ⟨name, s₁, hname, h⟩ := Work.bind_ok h
  obtain ⟨sample, s₂, hsample, h⟩ := Work.bind_ok h
  obtain ⟨_, s₃, hassert, h⟩ := Work.bind_ok h
  obtain ⟨htmls, s₄, hslots, h⟩ := Work.bind_ok h
  obtain ⟨arg, s₅, harg, hlast⟩ := Work.bind_ok h
  cases hlast
  have hbefore : Leaves s s₃ {} := (((Leaves.refl s).next hwriting.sound hname).next
    hwriting.sound hsample).next hwriting.sound hassert
  have hused : Used s.document s₃.document := fewer_of_takes <| IsTrans.trans _ s₁.document _
    (Keeps.keeps hname : s.Takes s₁) (IsTrans.trans _ s₂.document _
      (Keeps.keeps hsample : s₁.Takes s₂) (Keeps.keeps hassert : s₂.Takes s₃))
  have hwriting₃ := hwriting.later hbefore hused
  obtain ⟨t, hleaves, hweighs, hlies⟩ :=
    renderSlots_ok hslot (hwriting₃.unmarked.closed c hc) hwriting₃ hslots
  obtain ⟨a, ha, hleft, huri, hbase, rfl⟩ := attribute_of_takeRequired hname
  obtain rfl : s₄ = s' := by
    cases harg
    rfl
  refine ⟨t.under !a.value.isEmpty, (hbefore.append hleaves).under _, fun m x hreading => ?_,
    fun l hl => ?_⟩
  · unfold MessagePart.named
    cases a.value.isEmpty with
    | true => exact ⟨[], .nil, (Trace.mentions_under_false t x).symm⟩
    | false =>
      have hmentions := mentions_spliced (hleaves.genuine hwriting₃.genuine)
        (hleaves.reaches.sound hwriting₃.sound) hreading.ends harg (hweighs m x hreading)
      refine ⟨[t.mentions x], .cons hmentions .nil, ?_⟩
      rw [List.sum_singleton, Bool.not_false, Trace.under_true]
  · obtain ⟨l', hl', rfl⟩ := Trace.mem_under hl
    have hinside := (hlies l' hl').earlier hused fun _ hf => hf.elim
    rw [hused.shape.children] at hinside
    exact .inside List.mem_cons_self (.placeholder htag ha hleft huri hbase) hinside

/-- The slots of a message that were not yet read join those that were, up to a placeholder. -/
theorem messageParts_ok (hslot : Faithful r slot) {s₀ : Session} {done slots : List Nat}
    {us : List Text} {count : Nat} {parts : List MessagePart} (hslots : ∀ n ∈ slots, r n)
    (hwriting : Writing r s₀)
    (hrenders : Renders s₀ s done us t) (hused : Used s₀.document s.document)
    (hsub : (done ++ slots).Sublist (s₀.document.node e).children)
    (h : (messageParts slot e us.flatten count slots).runOn s = (.ok parts, s')) :
    ∃ u, Recounts s₀ s' (done ++ slots) parts u := by
  have hwriting' := hwriting.later hrenders.wrote.leaves hused
  induction slots generalizing s₀ s t done us count parts with
  | nil =>
    unfold messageParts at h
    obtain ⟨⟨parts, last⟩, s₁, hparts, hlast⟩ := Work.bind_ok h
    cases hlast
    rw [List.append_nil] at hsub ⊢
    obtain ⟨rfl, htells⟩ := literalParts_ok hwriting'.sound hwriting'.genuine
      (hrenders.weighs hwriting hsub) hparts
    exact ⟨t, hrenders.wrote.leaves, htells, hrenders.lies⟩
  | cons c rest ih =>
    obtain ⟨hc, hslots⟩ := List.forall_mem_cons.mp hslots
    unfold messageParts at h
    obtain ⟨_, _, hget, h⟩ := Work.bind_ok h
    cases hget
    dsimp only at h
    split at h
    · obtain ⟨_, _, hfail, _⟩ := Work.bind_ok h
      cases hfail
    · split at h
      · -- what was read so far ends here, and the rest begins anew behind the placeholder
        rename_i htag
        obtain ⟨_, s₁, huse, h⟩ := Work.bind_ok h
        obtain ⟨⟨first, count'⟩, s₂, hfirst, h⟩ := Work.bind_ok h
        obtain ⟨part, s₃, hpart, h⟩ := Work.bind_ok h
        obtain ⟨more, s₄, hmore, hlast⟩ := Work.bind_ok h
        cases hlast
        have huse' : Leaves s s₁ {} := (Leaves.refl s).next hwriting'.sound huse
        have hused₁ : Used s.document s₁.document := by
          cases huse
          exact fewer_useChild s.document c
        have hwriting₁ := hwriting'.later huse' hused₁
        have hweighs : Weighs s us.flatten t :=
          hrenders.weighs hwriting ((List.sublist_append_left _ _).trans hsub)
        obtain ⟨rfl, htells⟩ := literalParts_ok hwriting₁.sound hwriting₁.genuine
          (hweighs.later huse'.reaches) hfirst
        have hdone : Recounts s₀ s₂ done first t :=
          ⟨hrenders.wrote.leaves.next hwriting.sound huse, htells, hrenders.lies⟩
        obtain ⟨v, hplaceholder⟩ := placeholder_ok hslot hc hwriting₁
          (by rwa [hused₁.shape.isBinderTag]) hpart
        have hused₃ : Used s₂.document s₃.document :=
          fewer_of_takes (Ensures.ensures (P := Document.Finished c) hpart).1
        have hrest : ([] ++ rest).Sublist (s₃.document.node e).children := by
          rw [((hused.trans hused₁).trans hused₃).shape.children]
          exact ((List.sublist_cons_self c rest).trans (List.sublist_append_right _ _)).trans hsub
        have hwriting₃ := hwriting₁.later hplaceholder.leaves hused₃
        obtain ⟨w, hothers⟩ := ih hslots hwriting₃ (renders_nil (Leaves.refl s₃))
          (fewer_of_takes (Std.Refl.refl _)) hrest hmore hwriting₃
        exact ⟨_, hdone.append (hused.trans hused₁) (hplaceholder.append hused₃ hothers)⟩
      · obtain ⟨html, s₁, hfirst, hrest⟩ := Work.bind_ok h
        obtain ⟨v, hone⟩ := hslot hc hwriting' hfirst
        have hjoined : us.flatten ++ html.render = (us ++ [html.render]).flatten := by
          rw [List.flatten_append, List.flatten_singleton]
        rw [hjoined] at hrest
        rw [List.append_cons] at hsub ⊢
        have hused₁ := used_slot hfirst
        exact ih hslots hwriting (hrenders.append hused hone) (hused.trans hused₁) hsub hrest
          (hwriting'.later hone.wrote.leaves hused₁)

/-- The method of a message is no id. -/
theorem spells_method (i : Nat) : '-'.toUInt8 ∉ messagesName ++ "." ++ Messages.methodName i ∧
    Code.Spells (messagesName ++ "." ++ Messages.methodName i)
      [messagesName, Messages.methodName i] := by
  have hdigits := List.all_eq_true.mp (Text.isDigitByte_ofNat (i + 1)).2
  have hword : ∀ b ∈ Text.ofString "Message", Text.isNameByte b = true ∧ b ≠ '-'.toUInt8 :=
    forall_of_all (by decide)
  have hbytes : ∀ b ∈ Messages.methodName i, Text.isNameByte b = true ∧ b ≠ '-'.toUInt8 := by
    intro b hb
    rcases List.mem_append.mp hb with hb | hb
    · exact hword b hb
    · refine ⟨?_, ?_⟩
      · unfold Text.isNameByte
        rw [Text.isNamePart_of_isDigitByte (hdigits b hb), Bool.true_or]
      · rintro rfl
        exact absurd (hdigits _ hb) (by decide)
  have hmessages : Text.IsPlainName messagesName :=
    ⟨⟨_, _, rfl, by decide, forall_of_all (by decide)⟩, by decide⟩
  refine ⟨?_, ?_⟩
  · simp only [List.mem_append, not_or]
    exact ⟨⟨dash_notMem_of_isPlainName hmessages, by decide⟩, fun hdash => (hbytes _ hdash).2 rfl⟩
  · have hshape : messagesName ++ "." ++ Messages.methodName i =
        messagesName ++ '.'.toUInt8 :: Messages.methodName i := by
      rw [List.append_assoc]
      rfl
    have hmethod : Code.Spells (Messages.methodName i) [Messages.methodName i] :=
      Code.spells_name (List.cons_ne_nil _ _) fun b hb => (hbytes b hb).1
    rw [hshape]
    exact (spells_of_isPlainName hmessages).sign (by decide) (by decide) hmethod

/-- The call of a message mentions an id as often as its arguments do. -/
theorem says_of_tells {parts : List MessagePart} (h : Tells s parts t) (i : Nat) :
    Says s (messagesName ++ "." ++ Messages.methodName i ++ "(" ++
      Text.join ", " (parts.filterMap MessagePart.arg?) ++ ")") t := by
  intro m name hreading
  obtain ⟨counts, hall, hsum⟩ := h m name hreading
  obtain ⟨hdash, hspells⟩ := spells_method i
  have hother : name ∉ [messagesName, Messages.methodName i] := by
    have hfirst : messagesName ≠ name := hreading.holder.ne_of_head (by decide)
    have hhead : (Messages.methodName i).head? = some 'M'.toUInt8 := rfl
    have hsecond : Messages.methodName i ≠ name :=
      hreading.holder.ne_of_head (hhead ▸ by decide)
    simp [hfirst.symm, hsecond.symm]
  exact hsum ▸ Markers.mentions_call hdash hspells hother hall

/-- A marker stands in for the element and mentions what is looked up in it. -/
def StandsIn (d : Document) (e : Nat) (s : Session) (marker : Text) (s' : Session) : Prop :=
  ∃ u k, Leaves s s' u ∧ marker = Marker.text k ∧ Weighs s' marker u ∧
    ∀ l ∈ u.lookups, Lies d [e] l.shown l.element

/-- What stands for a message mentions what the message holds. -/
theorem message_ok (hslot : Faithful r slot) {kind : ContentKind} {marker : Text} {d : Document}
    (hunderway : Underway r d e s) (htag : d.isBinderTag e "msg" = true)
    (h : (message kind slot e).runOn s = (.ok marker, s')) : StandsIn d e s marker s' := by
  unfold message at h
  obtain ⟨description, s₁, hdescription, h⟩ := Work.bind_ok h
  obtain ⟨meaning, s₂, hmeaning, h⟩ := Work.bind_ok h
  obtain ⟨key, s₃, hkey, h⟩ := Work.bind_ok h
  obtain ⟨_, s₄, hassert, h⟩ := Work.bind_ok h
  obtain ⟨_, _, hget, h⟩ := Work.bind_ok h
  cases hget
  obtain ⟨parts, s₅, hparts, h⟩ := Work.bind_ok h
  obtain ⟨_, _, hget, h⟩ := Work.bind_ok h
  cases hget
  obtain ⟨method, s₆, hmethod, hsplice⟩ := Work.bind_ok h
  have hsound := hunderway.sound
  have hbefore : Leaves s s₄ {} := ((((Leaves.refl s).next hsound hdescription).next hsound
    hmeaning).next hsound hkey).next hsound hassert
  obtain ⟨hsame, hbare⟩ := Document.assertNoAttributes_ok (document_ok hassert)
  rw [← hsame] at hbare
  have htakes : s.Takes s₄ := IsTrans.trans _ s₁ _ (Keeps.keeps hdescription)
    (IsTrans.trans _ s₂ _ (Keeps.keeps hmeaning)
      (IsTrans.trans _ s₃ _ (Keeps.keeps hkey) (Keeps.keeps hassert)))
  obtain ⟨hwriting, hbut⟩ := hunderway.bare hbefore htakes hbare
  have hsub : ([] ++ s₄.document.contents e).Sublist (s₄.document.node e).children :=
    List.filter_sublist
  have hcontents : ∀ n ∈ s₄.document.contents e, r n := fun n hn =>
    hwriting.unmarked.closed e hunderway.within n (hsub.subset hn)
  obtain ⟨u, hleaves, htells, hlies⟩ := messageParts_ok hslot hcontents hwriting
    (renders_nil (Leaves.refl s₄)) (fewer_of_takes (Std.Refl.refl _)) hsub hparts
  obtain ⟨i, rfl⟩ := declareMessage_ok hmethod
  have hsound₅ := hleaves.reaches.sound hwriting.sound
  have hdeclared : Leaves s₅ s₆ {} := (Leaves.refl s₅).next hsound₅ hmethod
  have hsays := (says_of_tells htells i).later hdeclared.reaches
  obtain ⟨k, rfl, hweighs⟩ := weighs_splice (hdeclared.reaches.sound hsound₅) hsplice hsays
  have hwhole : Leaves s s' u :=
    ((hbefore.append hleaves).next hsound hmethod).next hsound hsplice
  refine ⟨u, k, hwhole, rfl, hweighs, fun l hl => ?_⟩
  have hshown := ((hlies l hl).mono hsub.subset).within hbut
    (Document.isBinderTag_ne htag (by decide)) (.message htag)
  rwa [Bool.and_true] at hshown

/-! ## Values -/

/-- What an element stands for is an attribute of it. -/
theorem taken_of_valueFrom {type : Option TypeId} {expr : Text}
    (h : (valueFrom e type).runOn s = (.ok expr, s')) :
    ∃ s₁, (takeRequired e "from" [type]).runOn s = (.ok expr, s₁) ∧ Reaches s₁ s' := by
  unfold valueFrom at h
  obtain ⟨found, s₁, htake, h⟩ := Work.bind_ok h
  obtain ⟨_, s₂, hattributes, h⟩ := Work.bind_ok h
  obtain ⟨_, s₃, hbody, hlast⟩ := Work.bind_ok h
  cases hlast
  have hrun₂ : Run s₁ s₂ := run_ok hattributes
  have hrun₃ : Run s₂ s' := run_ok hbody
  exact ⟨s₁, htake, (hrun₂.trans hrun₃).reaches⟩

/-- A value is spliced in and mentions no id. -/
theorem splice_value {x marker : Text} {d : Document} (hsound : s.Sound) (hbefore : Leaves s s' {})
    (hvalue : IsValue s' x) (h : (splice e x).runOn s' = (.ok marker, s'')) :
    StandsIn d e s marker s'' := by
  have hsound' := hbefore.reaches.sound hsound
  obtain ⟨k, rfl, hweighs⟩ := weighs_value hsound' h
  have hleaves : Leaves s' s'' {} := (Leaves.refl s').next hsound' h
  have hvalues := List.forall_mem_singleton.mpr (hvalue.later hleaves.reaches)
  exact ⟨⟨[], [x]⟩, k, hbefore.append (hleaves.valued hvalues), rfl, hweighs, nofun⟩

theorem textValue_spliced {kind : ContentKind} {marker : Text} {d : Document}
    (hkind : kind.isText = false) (hsound : s.Sound)
    (h : (textValue kind e).runOn s = (.ok marker, s')) : StandsIn d e s marker s' := by
  unfold textValue at h
  rw [hkind] at h
  obtain ⟨type, s₁, htype, h⟩ := Work.bind_ok h
  obtain ⟨expr, s₂, hexpr, h⟩ := Work.bind_ok h
  obtain ⟨escaped, s₃, hescape, hsplice⟩ := Work.bind_ok h
  obtain ⟨package, rfl, -⟩ := escaped_ok hescape
  have hbefore : Leaves s s₃ {} :=
    (((Leaves.refl s).next hsound htype).next hsound hexpr).next hsound hescape
  have hescaped : Run s₂ s₃ := run_ok hescape
  obtain ⟨taken, htake, hlater⟩ := taken_of_valueFrom hexpr
  have hvalue := IsValue.text package htake (hlater.trans hescaped.reaches)
  exact splice_value hsound hbefore hvalue hsplice

theorem markupValue_spliced {marker : Text} {d : Document} (hsound : s.Sound)
    (h : (markupValue e).runOn s = (.ok marker, s')) : StandsIn d e s marker s' := by
  unfold markupValue at h
  obtain ⟨type, s₁, htype, h⟩ := Work.bind_ok h
  cases type with
  | none => cases h
  | some type =>
    obtain ⟨expr, s₂, hexpr, hsplice⟩ := Work.bind_ok h
    have hbefore : Leaves s s₂ {} := ((Leaves.refl s).next hsound htype).next hsound hexpr
    obtain ⟨taken, htake, hlater⟩ := taken_of_valueFrom hexpr
    exact splice_value hsound hbefore (.markup htake hlater) hsplice

/-! ## Elements -/

variable {build : Builder} [∀ e, Keeps (Runs false []) (build e)]
  [∀ splicing attaching e, Leads (Confined splicing attaching) (build e)]

/-- What stands for an element was written, or nothing happened. -/
def Stands (d : Document) (e : Nat) (s : Session) (answer : Option Text) (s' : Session) : Prop :=
  match answer with
  | none => s' = s
  | some written => (d.isImported e = true ∨ d.isBinder e = true) ∧
      ∃ u, Leaves s s' u ∧ (∀ x, Marker.Patch x written) ∧ Weighs s' written u ∧
        ∀ l ∈ u.lookups, Lies d [e] l.shown l.element

theorem stands_of_standsIn {d : Document} {w : Work Session Text} {answer : Option Text}
    (hbinder : d.isBinder e = true)
    (hw : ∀ {marker}, w.runOn s = (.ok marker, s') → StandsIn d e s marker s')
    (h : (some <$> w).runOn s = (.ok answer, s')) : Stands d e s answer s' := by
  obtain ⟨marker, hmarker, rfl⟩ := Work.map_ok h
  obtain ⟨u, k, hleaves, rfl, hweighs, hlies⟩ := hw hmarker
  exact ⟨.inr hbinder, u, hleaves, fun x => .marker x k, hweighs, hlies⟩

theorem standIn?_writes (hslot : Faithful r slot) {attached stamped : Bool} {panel : Option FieldId}
    {answer : Option Text} {d : Document} (hunderway : Underway r d e s)
    (h : (standIn? build (.markup attached panel stamped) slot e d panel stamped).runOn s =
      (.ok answer, s')) : Stands d e s answer s' := by
  have hsound := hunderway.sound
  have htags : (if d.isBinderTag e "msg" then
        some <$> message (.markup attached panel stamped) slot e
      else if d.isBinderTag e "text" then
        some <$> textValue (.markup attached panel stamped) e
      else if d.isBinderTag e "safehtml" then some <$> markupValue e
      else return none : Work Session (Option Text)).runOn s = (.ok answer, s') →
      Stands d e s answer s' := by
    intro h
    split at h
    · rename_i htag
      exact stands_of_standsIn (Document.isBinder_of_isBinderTag htag)
        (message_ok hslot hunderway htag) h
    · split at h
      · rename_i htag
        exact stands_of_standsIn (Document.isBinder_of_isBinderTag htag)
          (textValue_spliced rfl hsound) h
      · split at h
        · rename_i htag
          exact stands_of_standsIn (Document.isBinder_of_isBinderTag htag)
            (markupValue_spliced hsound) h
        · cases h
          exact rfl
  unfold standIn? at h
  cases panel with
  | none => exact htags h
  | some panel =>
    dsimp only at h
    split at h
    · rename_i himported
      obtain ⟨written, s₁, hplace, hlast⟩ := Work.bind_ok h
      cases hlast
      obtain ⟨holder, line, hleaves, hpatch, hweighs⟩ := placeWidget_ok hsound hplace
      refine ⟨.inl himported, _, hleaves, hpatch, hweighs, fun l hl => ?_⟩
      obtain rfl := List.mem_singleton.mp hl
      exact .here List.mem_cons_self
    · exact htags h

/-- What is done to the attributes of an element before it is known what stands for it. -/
structure Prepares (s : Session) (e : Nat) (s' : Session) (t : Trace) : Prop where
  leaves : Leaves s s' t
  but : TakesBut (· = e) s s'
  dressed : Dressed s' e t
  lookups : ∀ l ∈ t.lookups, l.element = e ∧ l.shown = true
  other : s.document.isImported e = true ∨ s.document.isBinder e = true → t.lookups = []

theorem Prepares.underway (h : Prepares s e s' t) (he : r e) (hwriting : Writing r s) :
    Underway r s.document e s' where
  within := he
  unmarked := hwriting.unmarked
  but := fewer_of_takesBut h.but
  sound := h.leaves.reaches.sound hwriting.sound
  genuine := h.leaves.genuine hwriting.genuine

theorem prepares_of_rewriteAttributes (he : r e) (hwriting : Writing r s) {u : Unit}
    (h : (rewriteAttributes e).runOn s = (.ok u, s')) :
    ∃ values, Plain s' e values ∧ Prepares s e s' ⟨[], values⟩ := by
  obtain ⟨values, hleaves, hplain⟩ :=
    rewriteAttributes_plain hwriting.sound (hwriting.unmarked.attributes e he) h
  unfold rewriteAttributes at h
  obtain ⟨_, s₁, hmessages, hreferences⟩ := Work.bind_ok h
  have hbut : TakesBut (· = e) s s' := IsTrans.trans _ _ _
    ((keeps_declareAttributeMessages e).keeps hmessages) (Keeps.keeps hreferences)
  exact ⟨values, hplain, hleaves, hbut, hplain.dressed, nofun, fun _ => rfl⟩

/-- The attributes of an element are rewritten, and it may get an id. -/
theorem prepares_of_bindField (he : r e) (hwriting : Writing r s) {s₁ : Session} {u u' : Unit}
    (h : (rewriteAttributes e).runOn s = (.ok u, s₁))
    (hbind : (bindField e).runOn s₁ = (.ok u', s')) :
    ∃ t, Prepares s e s' t := by
  obtain ⟨values, hplain, hprepares⟩ := prepares_of_rewriteAttributes he hwriting h
  have hsound := hprepares.leaves.reaches.sound hwriting.sound
  have hbut : TakesBut (· = e) s s' := IsTrans.trans _ _ _ hprepares.but (Keeps.keeps hbind)
  by_cases hkind : s.document.isImported e = true ∨ s.document.isBinder e = true
  · have hsame : s' = s₁ := by
      rw [← hprepares.but.shape.isImported, ← hprepares.but.shape.isBinder] at hkind
      rw [runOn_bindField hkind] at hbind
      cases hbind
      rfl
    rw [hsame]
    exact ⟨_, hprepares⟩
  · rcases bindField_ok hsound hbind with ⟨hleaves, htakes⟩ | ⟨holder, line, hidentified⟩
    · have hplain' : Plain s' e values := fun a ha hleft => by
        obtain ⟨hbase, hweighs⟩ := hplain a (htakes.left e id a ha hleft) hleft
        exact ⟨hbase, hweighs.later hleaves.reaches⟩
      refine ⟨_, hprepares.leaves.append hleaves, hbut, ?_, ?_, fun hother => absurd hother hkind⟩
      · have hdressed := hplain'.dressed
        rwa [show Trace.append ⟨[], values⟩ {} = ⟨[], values⟩ by simp [Trace.append]]
      · exact fun l hl => absurd hl List.not_mem_nil
    · refine ⟨_, hprepares.leaves.append hidentified.leaves, hbut, hplain.identified hidentified,
        fun l hl => ?_, fun hother => absurd hother hkind⟩
      obtain rfl := List.mem_singleton.mp hl
      exact ⟨rfl, rfl⟩

theorem weighs_silent {content : Text} {values : List Text} (h : Weighs s content u) :
    Weighs s content (Trace.append ⟨[], values⟩ u) := fun m name hreading => by
  rw [Trace.mentions_append, Trace.mentions_silent, Nat.zero_add]
  exact h m name (hreading.earlier (Reaches.refl s) (List.subset_append_right _ _))

/-- What was prepared of an element before what is looked for of it. -/
theorem interpret?_writes (hslot : Faithful r slot) {attached stamped : Bool} {panel : Option FieldId}
    {answer : Option Text} (he : r e) (hwriting : Writing r s)
    (h : (interpret? build (.markup attached panel stamped) slot e).runOn s = (.ok answer, s')) :
    ∃ t s₁, Prepares s e s₁ t ∧ Stands s.document e s₁ answer s' := by
  rw [interpret?_markup] at h
  obtain ⟨_, _, hget, h⟩ := Work.bind_ok h
  cases hget
  obtain ⟨_, s₁, hmessages, h⟩ := Work.bind_ok h
  obtain ⟨_, s₂, hreferences, h⟩ := Work.bind_ok h
  have hrewrite : (rewriteAttributes e).runOn s = (.ok (), s₂) := by
    unfold rewriteAttributes
    rw [Work.runOn_bind, hmessages]
    exact hreferences
  obtain ⟨t, s₃, hprepares, hstand⟩ : ∃ t s₃, Prepares s e s₃ t ∧
      (standIn? build (.markup attached panel stamped) slot e s.document panel stamped).runOn s₃ =
        (.ok answer, s') := by
    dsimp only at h
    split at h
    · obtain ⟨_, s₃, hbind, h⟩ := Work.bind_ok h
      obtain ⟨t, hprepares⟩ := prepares_of_bindField he hwriting hrewrite hbind
      exact ⟨t, s₃, hprepares, h⟩
    · obtain ⟨values, -, hprepares⟩ := prepares_of_rewriteAttributes he hwriting hrewrite
      exact ⟨_, s₂, hprepares, h⟩
  exact ⟨t, s₃, hprepares, standIn?_writes hslot (hprepares.underway he hwriting) hstand⟩

theorem renderElement_ok (hslot : Faithful r slot) {attached stamped : Bool} {panel : Option FieldId}
    {html : Html} (he : r e) (hwriting : Writing r s)
    (h : (renderElement build (.markup attached panel stamped) slot e).runOn s = (.ok html, s')) :
    ∃ t, Renders s s' [e] [html.render] t := by
  have hrender := h
  unfold renderElement at h
  obtain ⟨answer, s₂, hinterpret, h⟩ := Work.bind_ok h
  obtain ⟨t, s₁, hprepares, hstands⟩ := interpret?_writes hslot he hwriting hinterpret
  have hlies : ∀ l ∈ t.lookups, Lies s.document [e] l.shown l.element := by
    intro l hl
    obtain ⟨rfl, hshown⟩ := hprepares.lookups l hl
    rw [hshown]
    exact .here List.mem_cons_self
  cases answer with
  | some written =>
    cases h
    obtain ⟨hkind, u, hleaves, hpatch, hweighs, hlies'⟩ := hstands
    obtain ⟨lookups, values⟩ := t
    obtain rfl : lookups = [] := hprepares.other hkind
    exact ⟨_, wrote_one (hprepares.leaves.append hleaves) (hpatch _) (weighs_silent hweighs), hlies'⟩
  | none =>
    obtain rfl : s₂ = s₁ := hstands
    obtain ⟨himported, hbinder, h⟩ := markupElement_of_renderElement hinterpret hrender
    obtain ⟨u, hleaves, hweighs, hpatch, hlies'⟩ := markupElement_ok hslot
      (hprepares.underway he hwriting) hprepares.dressed himported hbinder h
    exact ⟨_, wrote_one (hprepares.leaves.append hleaves) (hpatch _) hweighs,
      List.forall_mem_append.mpr ⟨hlies, hlies'⟩⟩

/-- Every slot of content is written with all that is looked up in it. -/
theorem faithful_renderSlot [∀ e, Ensures (Document.Finished e) (build e)] (attached stamped : Bool)
    (panel : Option FieldId) (fuel : Nat) :
    Faithful r (renderSlot build (.markup attached panel stamped) fuel) := by
  induction fuel with
  | zero =>
    intro s n html s' _ _ h
    cases h
  | succ fuel ih =>
    intro s n html s' hn hwriting h
    unfold renderSlot at h
    obtain ⟨_, s₁, huse, h⟩ := Work.bind_ok h
    have huse' : Leaves s s₁ {} := (Leaves.refl s).next hwriting.sound huse
    have hused : Used s.document s₁.document := by
      cases huse
      exact fewer_useChild s.document n
    have hwriting₁ := hwriting.later huse' hused
    obtain ⟨_, _, hget, h⟩ := Work.bind_ok h
    cases hget
    suffices hslot : ∃ t, Renders s₁ s' [n] [html.render] t by
      obtain ⟨t, hrenders⟩ := hslot
      exact ⟨t, (renders_nil huse').append hused hrenders⟩
    have htext : ∀ {y : Text}, Marker.Covers (s₁.document.node n).content y →
        ∃ t, Renders s₁ s₁ [n] [y] t := by
      intro y hcovers
      have hplain : ¬ Marker.front <:+: y := fun hinside =>
        hwriting₁.unmarked.content n (hcovers.front hinside)
      exact ⟨⟨[], []⟩, wrote_one (Leaves.refl s₁) (.text hcovers) (weighs_plain hplain), nofun⟩
    split at h
    · rename_i x hbody
      cases h
      refine htext ?_
      unfold Markup.Node.content
      rw [hbody]
      exact Html.covers_escape x
    · rename_i x hbody
      cases h
      refine htext ?_
      unfold Markup.Node.content
      rw [hbody]
      exact Marker.Covers.refl x
    · exact renderElement_ok ih hn hwriting₁ h

end Content

end ViewBinder
