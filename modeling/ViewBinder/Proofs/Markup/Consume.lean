-- What consuming does to a document. It marks slots and attributes and moves nothing; an element
-- that is taken is finished before the work that took it is over: its attributes are all used, and
-- of its children at most blanks are left.
import ViewBinder.Proofs.Markup.Attributes

namespace ViewBinder.Markup

/-! ## One node -/

namespace Node

theorem children_withAttributes (f : List Attribute → List Attribute) (n : Node) :
    (n.withAttributes f).children = n.children := by
  obtain ⟨body, _, _, _⟩ := n
  cases body <;> rfl

theorem isElement_withAttributes (f : List Attribute → List Attribute) (n : Node) :
    (n.withAttributes f).isElement = n.isElement := by
  obtain ⟨body, _, _, _⟩ := n
  cases body <;> rfl

theorem content_withAttributes (f : List Attribute → List Attribute) (n : Node) :
    (n.withAttributes f).content = n.content := by
  obtain ⟨body, _, _, _⟩ := n
  cases body <;> rfl

theorem consumed_withAttributes (f : List Attribute → List Attribute) (n : Node) :
    (n.withAttributes f).consumed = n.consumed := by
  obtain ⟨body, _, _, _⟩ := n
  cases body <;> rfl

end Node

namespace Document

/-! ## Finished elements -/

/-- Two documents have the same nodes, whatever was used of them. -/
structure SameShape (d d' : Document) : Prop where
  name : ∀ n, (d'.node n).name = (d.node n).name
  children : ∀ n, (d'.node n).children = (d.node n).children
  isElement : ∀ n, (d'.node n).isElement = (d.node n).isElement
  content : ∀ n, (d'.node n).content = (d.node n).content

/-- Every attribute of the element was used. -/
def Bare (e : Nat) (d : Document) : Prop := ∀ a ∈ (d.node e).attributes, a.consumed = true

/-- The slot was used, or there is nothing to be read in it. -/
def Gone (n : Nat) (d : Document) : Prop :=
  (d.node n).consumed = true ∨ (d.node n).isBlank = true

/-- Nothing but blanks is left in the element. -/
def Empty (e : Nat) (d : Document) : Prop := ∀ c ∈ (d.node e).children, d.Gone c

/-- The element holds the attributes of a value, so that only its attributes count. -/
def HoldsAttributes (e : Nat) (d : Document) : Prop :=
  d.isBinderTag e "attributes" = true ∧
    ∃ p ∈ (d.node 0).children, d.isBinderTag p "with" = true ∧ e ∈ (d.node p).children

/-- Everything that counts was used of the element. -/
structure Finished (e : Nat) (d : Document) : Prop where
  bare : d.Bare e
  body : d.HoldsAttributes e ∨ d.Empty e

/-- All of the elements are finished. -/
def AllFinished (es : List Nat) (d : Document) : Prop := ∀ e ∈ es, d.Finished e

/-- Every element that was taken in between is finished, but for some that are still worked on;
those may also have got attributes. The attributes that are left of any other are as they were. -/
structure TakesBut (p : Nat → Prop) (d d' : Document) : Prop where
  shape : d.SameShape d'
  slots : ∀ n, (d.node n).consumed = true → (d'.node n).consumed = true
  left : ∀ e, ¬ p e → ∀ a ∈ (d'.node e).attributes, a.consumed = false → a ∈ (d.node e).attributes
  taken : ∀ n, (d'.node n).isElement = true → (d'.node n).consumed = true →
    (d.node n).consumed = true ∨ p n ∨ d'.Finished n

/-- Every element that was taken in between is finished. -/
def Takes : Document → Document → Prop := TakesBut fun _ => False

/-- What holds of a document while more is taken. -/
class Lasting (P : Document → Prop) : Prop where
  lasts : ∀ {d d' : Document}, d.Takes d' → P d → P d'

variable {d d' d'' : Document} {p : Nat → Prop}

theorem SameShape.refl (d : Document) : d.SameShape d :=
  ⟨fun _ => rfl, fun _ => rfl, fun _ => rfl, fun _ => rfl⟩

theorem SameShape.trans (h : d.SameShape d') (h' : d'.SameShape d'') : d.SameShape d'' :=
  ⟨fun n => (h'.name n).trans (h.name n), fun n => (h'.children n).trans (h.children n),
    fun n => (h'.isElement n).trans (h.isElement n), fun n => (h'.content n).trans (h.content n)⟩

theorem SameShape.symm (h : d.SameShape d') : d'.SameShape d :=
  ⟨fun n => (h.name n).symm, fun n => (h.children n).symm, fun n => (h.isElement n).symm,
    fun n => (h.content n).symm⟩

theorem SameShape.isBlank (h : d.SameShape d') (n : Nat) :
    (d'.node n).isBlank = (d.node n).isBlank := by
  unfold Node.isBlank
  rw [h.isElement, h.content]

theorem SameShape.isBinder (h : d.SameShape d') (n : Nat) : d'.isBinder n = d.isBinder n := by
  unfold Document.isBinder Document.name
  rw [h.name]

theorem SameShape.isImported (h : d.SameShape d') (n : Nat) :
    d'.isImported n = d.isImported n := by
  unfold Document.isImported Document.name
  rw [h.name]

theorem SameShape.isBinderTag (h : d.SameShape d') (n : Nat) (base : Text) :
    d'.isBinderTag n base = d.isBinderTag n base := by
  unfold Document.isBinderTag Document.name
  rw [h.isElement, h.isBinder, h.name]

theorem isBinder_of_isBinderTag {n : Nat} {base : Text} (h : d.isBinderTag n base = true) :
    d.isBinder n = true := by
  unfold Document.isBinderTag at h
  exact (Bool.and_eq_true_iff.mp (Bool.and_eq_true_iff.mp h).1).2

theorem isBinderTag_of_isBinder {n : Nat} {base : Text} (h : d.isBinder n = false) :
    d.isBinderTag n base = false := by
  unfold Document.isBinderTag
  rw [h]
  simp

/-- An element of the binder has one name. -/
theorem isBinderTag_ne {n : Nat} {base other : Text} (h : d.isBinderTag n base = true)
    (hne : base ≠ other) : d.isBinderTag n other = false := by
  unfold Document.isBinderTag at h ⊢
  simp only [Bool.and_eq_true, beq_iff_eq] at h
  simp [h.2, hne]

theorem SameShape.holdsAttributes (h : d.SameShape d') {e : Nat} (he : d.HoldsAttributes e) :
    d'.HoldsAttributes e := by
  obtain ⟨htag, p, hp, hwith, hchild⟩ := he
  refine ⟨by rw [h.isBinderTag, htag], p, by rwa [h.children], ?_, by rwa [h.children]⟩
  rw [h.isBinderTag, hwith]

theorem TakesBut.gone (h : TakesBut p d d') {n : Nat} (hn : d.Gone n) : d'.Gone n := by
  rcases hn with hused | hblank
  · exact .inl (h.slots n hused)
  · refine .inr ?_
    rw [h.shape.isBlank, hblank]

theorem TakesBut.empty (h : TakesBut p d d') {e : Nat} (he : d.Empty e) : d'.Empty e := by
  intro c hc
  rw [h.shape.children] at hc
  exact h.gone (he c hc)

theorem TakesBut.bare (h : TakesBut p d d') {e : Nat} (hp : ¬ p e) (he : d.Bare e) :
    d'.Bare e := by
  intro a ha
  by_contra hleft
  exact hleft (he a (h.left e hp a ha (Bool.not_eq_true _ ▸ hleft)))

theorem TakesBut.finished (h : TakesBut p d d') {e : Nat} (hp : ¬ p e) (he : d.Finished e) :
    d'.Finished e :=
  ⟨h.bare hp he.bare, he.body.imp h.shape.holdsAttributes h.empty⟩

theorem TakesBut.refl (p : Nat → Prop) (d : Document) : TakesBut p d d :=
  ⟨SameShape.refl d, fun _ h => h, fun _ _ _ ha _ => ha, fun _ _ h => .inl h⟩

theorem TakesBut.trans (h : TakesBut p d d') (h' : TakesBut p d' d'') : TakesBut p d d'' where
  shape := h.shape.trans h'.shape
  slots n hn := h'.slots n (h.slots n hn)
  left e hp a ha hleft := h.left e hp a (h'.left e hp a ha hleft) hleft
  taken n helement hused := by
    rcases h'.taken n helement hused with hused' | hlast
    · rcases h.taken n (by rwa [← h'.shape.isElement]) hused' with hfirst | hp | hfinished
      · exact .inl hfirst
      · exact .inr (.inl hp)
      · by_cases hp : p n
        · exact .inr (.inl hp)
        · exact .inr (.inr (h'.finished hp hfinished))
    · exact .inr hlast

theorem TakesBut.mono {q : Nat → Prop} (h : TakesBut p d d') (hpq : ∀ n, p n → q n) :
    TakesBut q d d' where
  shape := h.shape
  slots := h.slots
  left e hq := h.left e fun hp => hq (hpq e hp)
  taken n helement hused := (h.taken n helement hused).imp_right fun hlast =>
    hlast.imp_left (hpq n)

theorem Takes.but (h : d.Takes d') : TakesBut p d d' := TakesBut.mono h fun _ hf => hf.elim

/-- Of what was worked on, some is finished. -/
theorem TakesBut.close_to {q : Nat → Prop} (h : TakesBut p d d')
    (hfinished : ∀ n, p n → q n ∨ d'.Finished n) : TakesBut q d d' where
  shape := h.shape
  slots := h.slots
  left e hq a ha hleft := by
    by_cases hp : p e
    · rw [((hfinished e hp).resolve_left hq).bare a ha] at hleft
      cases hleft
    · exact h.left e hp a ha hleft
  taken n helement hused := by
    rcases h.taken n helement hused with hfirst | hp | hlast
    · exact .inl hfirst
    · exact .inr (hfinished n hp)
    · exact .inr (.inr hlast)

/-- The work is over once what it worked on is finished. -/
theorem TakesBut.close (h : TakesBut p d d') (hfinished : ∀ n, p n → d'.Finished n) :
    d.Takes d' := h.close_to fun n hp => .inr (hfinished n hp)

instance : Std.Refl Takes := ⟨fun d => TakesBut.refl _ d⟩

instance : IsTrans Document Takes := ⟨fun _ _ _ h h' => TakesBut.trans h h'⟩

instance (e : Nat) : Lasting (Bare e) := ⟨fun h he => h.bare id he⟩

instance (n : Nat) : Lasting (Gone n) := ⟨fun h hn => h.gone hn⟩

instance (e : Nat) : Lasting (Empty e) := ⟨fun h he => h.empty he⟩

instance (e : Nat) : Lasting (Finished e) := ⟨fun h he => h.finished id he⟩

instance (es : List Nat) : Lasting (AllFinished es) := ⟨fun h hes e he => h.finished id (hes e he)⟩

theorem bare_iff_remaining (d : Document) (e : Nat) : d.Bare e ↔ d.remaining e = [] := by
  unfold Bare remaining
  rw [List.map_eq_nil_iff, List.filter_eq_nil_iff]
  constructor
  · intro h a ha
    have hmem := List.fst_mem_of_mem_zipIdx ha
    simp [h a.1 hmem]
  · intro h a ha
    obtain ⟨i, hi⟩ := List.mem_iff_getElem?.mp ha
    have hzip : (a, i) ∈ (d.node e).attributes.zipIdx := List.mem_zipIdx_iff_getElem?.mpr hi
    simpa using h (a, i) hzip

/-- An element whose slot is finished is no text. -/
theorem Gone.consumed {n : Nat} (h : d.Gone n) (helement : (d.node n).isElement = true) :
    (d.node n).consumed = true := by
  refine h.resolve_right fun hblank => ?_
  unfold Node.isBlank at hblank
  rw [helement] at hblank
  cases hblank

/-! ## Changes of a document -/

theorem sameShape_change {e : Nat} {f : Node → Node} (hname : ∀ n, (f n).name = n.name)
    (hchildren : ∀ n, (f n).children = n.children) (helement : ∀ n, (f n).isElement = n.isElement)
    (hcontent : ∀ n, (f n).content = n.content) (d : Document) : d.SameShape (d.change e f) :=
  ⟨fun n => node_change_apply d e n f Node.name hname,
    fun n => node_change_apply d e n f Node.children hchildren,
    fun n => node_change_apply d e n f Node.isElement helement,
    fun n => node_change_apply d e n f Node.content hcontent⟩

/-- New attributes of an element change nothing else. -/
theorem takesBut_withAttributes (d : Document) (e : Nat) (f : List Attribute → List Attribute) :
    TakesBut (· = e) d (d.change e (·.withAttributes f)) where
  shape := sameShape_change (name_withAttributes f) (Node.children_withAttributes f)
    (Node.isElement_withAttributes f) (Node.content_withAttributes f) d
  slots n hn := by
    rw [node_change_apply d e n _ Node.consumed (Node.consumed_withAttributes f), hn]
  left n hne a ha _ := by
    rwa [node_change_ne (Ne.symm hne)] at ha
  taken n _ hused := by
    rw [node_change_apply d e n _ Node.consumed (Node.consumed_withAttributes f)] at hused
    exact .inl hused

theorem takesBut_replaceAttribute (d : Document) (e i : Nat) (value : Text) :
    TakesBut (· = e) d (d.replaceAttribute e i value) := takesBut_withAttributes d e _

theorem takes_useAttribute (d : Document) (e i : Nat) : d.Takes (d.useAttribute e i) := by
  have hbut := takesBut_withAttributes d e (·.modify i fun a => { a with consumed := true })
  refine ⟨hbut.shape, hbut.slots, fun n _ a ha hleft => ?_, fun n helement hused => ?_⟩
  · by_cases hne : n = e
    · subst hne
      unfold useAttribute at ha
      rw [attributes_changeAttribute] at ha
      obtain ⟨k, hk⟩ := List.mem_iff_getElem?.mp ha
      rw [List.getElem?_modify] at hk
      obtain ⟨b, hb, rfl⟩ := Option.map_eq_some_iff.mp hk
      split at hleft
      · cases hleft
      · rename_i hother
        rw [if_neg hother]
        exact List.mem_of_getElem? hb
    · exact hbut.left n hne a ha hleft
  · have hflag : ((d.useAttribute e i).node n).consumed = (d.node n).consumed :=
      node_change_apply d e n _ Node.consumed (Node.consumed_withAttributes _)
    exact .inl (hflag.symm.trans hused)

/-- An attribute is used after those at some places were. -/
theorem useAttributes_consumed {e : Nat} {places : List Nat} {k : Nat} {a : Attribute}
    (h : ((places.foldl (fun d i => d.useAttribute e i) d).node e).attributes[k]? = some a) :
    a.consumed = true ∨ k ∉ places ∧ (d.node e).attributes[k]? = some a := by
  induction places generalizing d with
  | nil => exact .inr ⟨List.not_mem_nil, h⟩
  | cons i places ih =>
    rcases ih (d := d.useAttribute e i) h with hused | ⟨hnot, hold⟩
    · exact .inl hused
    · unfold useAttribute at hold
      rw [attributes_changeAttribute, List.getElem?_modify] at hold
      obtain ⟨b, hb, hab⟩ := Option.map_eq_some_iff.mp hold
      by_cases hplace : i = k
      · rw [if_pos hplace] at hab
        exact .inl (hab ▸ rfl)
      · rw [if_neg hplace] at hab
        cases hab
        exact .inr ⟨fun hmem => (List.mem_cons.mp hmem).elim (fun hk => hplace hk.symm) hnot, hb⟩

/-- Nothing is left when every attribute that was left is used. -/
theorem bare_useAttributes (d : Document) (e : Nat) :
    (((d.remaining e).map (·.1)).foldl (fun d i => d.useAttribute e i) d).Bare e := by
  intro a ha
  obtain ⟨k, hk⟩ := List.mem_iff_getElem?.mp ha
  rcases useAttributes_consumed hk with hused | ⟨hnot, hold⟩
  · exact hused
  · refine Decidable.byContradiction fun hleft => hnot (List.mem_map.mpr ⟨(k, a), ?_, rfl⟩)
    refine List.mem_map.mpr ⟨(a, k), List.mem_filter.mpr ⟨?_, by simpa using hleft⟩, rfl⟩
    exact List.mem_zipIdx_iff_getElem?.mpr hold

theorem takesBut_setAttribute (d : Document) (e : Nat) (base value : Text) :
    TakesBut (· = e) d (d.setAttribute e base value) := by
  unfold setAttribute
  split
  · exact takesBut_replaceAttribute d e _ value
  · exact takesBut_withAttributes d e _

theorem attributes_useChild (d : Document) (c e : Nat) :
    ((d.useChild c).node e).attributes = (d.node e).attributes :=
  node_change_apply d c e (fun n => { n with consumed := true }) Node.attributes fun _ => rfl

theorem attributes_useChildren (d : Document) (cs : List Nat) (e : Nat) :
    ((cs.foldl useChild d).node e).attributes = (d.node e).attributes := by
  induction cs generalizing d with
  | nil => rfl
  | cons c cs ih => exact (ih _).trans (attributes_useChild d c e)

theorem takesBut_useChild {c : Nat} (h : (d.node c).isElement = true → p c) :
    TakesBut p d (d.useChild c) where
  shape := sameShape_change (f := fun n => { n with consumed := true }) (fun _ => rfl)
    (fun _ => rfl) (fun _ => rfl) (fun _ => rfl) d
  slots n hn := by
    unfold useChild
    rw [node_change]
    split
    · rfl
    · exact hn
  left e _ a ha _ := by rwa [attributes_useChild] at ha
  taken n helement hused := by
    have hkind : ((d.useChild c).node n).isElement = (d.node n).isElement :=
      node_change_apply d c n (fun n => { n with consumed := true }) Node.isElement fun _ => rfl
    by_cases hne : n = c
    · subst hne
      exact .inr (.inl (h (hkind.symm.trans helement)))
    · unfold useChild at hused
      rw [node_change_ne (Ne.symm hne)] at hused
      exact .inl hused

theorem gone_useChild (d : Document) (c : Nat) : (d.useChild c).Gone c := by
  unfold Gone useChild
  rw [node_change]
  split
  · exact .inl rfl
  · rename_i hout
    have hlt : ¬ c < d.nodes.size := fun hlt => hout ⟨rfl, hlt⟩
    refine .inr ?_
    unfold node
    rw [Array.getElem?_eq_none (Nat.not_lt.mp hlt)]
    rfl

theorem takesBut_useChildren {cs : List Nat} (h : ∀ c ∈ cs, (d.node c).isElement = true → p c) :
    TakesBut p d (cs.foldl useChild d) ∧ ∀ c ∈ cs, (cs.foldl useChild d).Gone c := by
  induction cs generalizing d with
  | nil => exact ⟨TakesBut.refl p d, fun _ hc => absurd hc List.not_mem_nil⟩
  | cons c cs ih =>
    obtain ⟨hc, hcs⟩ := List.forall_mem_cons.mp h
    have hfirst := takesBut_useChild (d := d) hc
    obtain ⟨hrest, hgone⟩ := ih (d := d.useChild c) fun n hn helement =>
      hcs n hn (by rwa [← hfirst.shape.isElement])
    refine ⟨hfirst.trans hrest, fun n hn => ?_⟩
    rcases List.mem_cons.mp hn with rfl | hn
    · exact hrest.gone (gone_useChild d n)
    · exact hgone n hn

/-- An element is empty once everything that was left in it is gone. -/
theorem TakesBut.empty_of_contents (h : TakesBut p d d') {e : Nat}
    (hgone : ∀ c ∈ d.contents e, d'.Gone c) : d'.Empty e := by
  intro c hc
  rw [h.shape.children] at hc
  by_cases hused : (d.node c).consumed = true
  · exact .inl (h.slots c hused)
  · exact hgone c (List.mem_filter.mpr ⟨hc, by simpa using hused⟩)

theorem empty_of_hasContent {e : Nat} (h : d.hasContent e = false) : d.Empty e := by
  refine (TakesBut.refl (fun _ => False) d).empty_of_contents fun c hc => .inr ?_
  simpa using List.any_eq_false.mp h c hc

/-! ## Assertions -/

theorem assertNoAttributes_ok {e : Nat} {u : Unit}
    (h : (assertNoAttributes e).runOn d = (.ok u, d')) : d' = d ∧ d.Bare e := by
  unfold assertNoAttributes at h
  obtain ⟨_, _, hget, h⟩ := Work.bind_ok h
  cases hget
  split at h
  · rename_i hnone
    cases h
    exact ⟨rfl, (bare_iff_remaining d e).mpr hnone⟩
  · cases h

theorem assertNoText_ok {e : Nat} {u : Unit} (h : (assertNoText e).runOn d = (.ok u, d')) :
    d' = d ∧ ∀ c ∈ d.contents e, (d.node c).isElement = true ∨ (d.node c).isBlank = true := by
  unfold assertNoText at h
  obtain ⟨_, _, hget, h⟩ := Work.bind_ok h
  cases hget
  split at h
  · cases h
  · rename_i hnone
    cases h
    refine ⟨rfl, fun c hc => ?_⟩
    have hnot := List.find?_eq_none.mp hnone c hc
    rw [← Bool.or_eq_true]
    revert hnot
    cases (d.node c).isElement <;> cases (d.node c).isBlank <;> simp

theorem assertNoBody_ok {e : Nat} {u : Unit} (h : (assertNoBody e).runOn d = (.ok u, d')) :
    d' = d ∧ d.Empty e := by
  unfold assertNoBody at h
  obtain ⟨_, _, hget, h⟩ := Work.bind_ok h
  cases hget
  split at h
  · cases h
  · rename_i hnone
    cases h
    refine ⟨rfl, (TakesBut.refl (fun _ => False) d).empty_of_contents fun c hleft => .inr ?_⟩
    simpa using List.find?_eq_none.mp hnone c hleft

/-! ## Taking -/

instance (e : Nat) (uri base : Text) : Work.Leads Takes (takeIn e uri base) := by
  refine ⟨fun d => ?_⟩
  show d.Takes (d.take? e uri base).2
  unfold take?
  split
  · exact takes_useAttribute d e _
  · exact Std.Refl.refl _

theorem takeChildrenWhere_ok {e : Nat} {passes : Nat → Bool} {cs : List Nat}
    (h : (takeChildrenWhere e passes).runOn d = (.ok cs, d')) :
    cs = (d.childElements e).filter passes ∧ TakesBut (· ∈ cs) d d' ∧ ∀ c ∈ cs, d'.Gone c := by
  cases h
  exact ⟨rfl, takesBut_useChildren fun c hc _ => hc⟩

theorem takeChildren_ok {e : Nat} {cs : List Nat}
    (h : (takeChildren e).runOn d = (.ok cs, d')) :
    cs = d.childElements e ∧ TakesBut (· ∈ cs) d d' ∧ d'.Empty e := by
  unfold takeChildren at h
  obtain ⟨_, d₁, htext, hrest⟩ := Work.bind_ok h
  rw [(assertNoText_ok htext).1] at hrest
  cases hrest
  have hslots : ∀ c ∈ d.contents e, (d.node c).isElement = true → c ∈ d.childElements e :=
    fun c hc helement => List.mem_filter.mpr ⟨hc, helement⟩
  obtain ⟨htakes, hgone⟩ := takesBut_useChildren hslots
  exact ⟨rfl, htakes, htakes.empty_of_contents hgone⟩

theorem takeSlots_ok {escape : Bool} {e : Nat} {slots : List Nat} {text : Text}
    (h : (takeSlots escape e slots).runOn d = (.ok text, d')) :
    d.Takes d' ∧ ∀ c ∈ slots, d'.Gone c := by
  induction slots generalizing d text with
  | nil =>
    cases h
    exact ⟨Std.Refl.refl _, fun _ hc => absurd hc List.not_mem_nil⟩
  | cons c slots ih =>
    -- a slot is text or it is refused
    have hstep : ∀ {rest : Text}, (d.node c).isElement = false →
        (takeSlots escape e slots).runOn (d.useChild c) = (.ok rest, d') →
        d.Takes d' ∧ ∀ n ∈ c :: slots, d'.Gone n := by
      intro rest hnot hrest
      have hfirst : d.Takes (d.useChild c) := takesBut_useChild fun helement => by
        rw [hnot] at helement
        cases helement
      obtain ⟨hlater, hgone⟩ := ih hrest
      refine ⟨IsTrans.trans _ _ _ hfirst hlater, fun n hn => ?_⟩
      rcases List.mem_cons.mp hn with rfl | hn
      · exact hlater.gone (gone_useChild d n)
      · exact hgone n hn
    unfold takeSlots at h
    obtain ⟨_, _, hget, h⟩ := Work.bind_ok h
    cases hget
    simp only at h
    split at h
    · cases h
    · rename_i hbody
      obtain ⟨_, _, huse, h⟩ := Work.bind_ok h
      cases huse
      obtain ⟨rest, _, hrest, hlast⟩ := Work.bind_ok h
      cases hlast
      exact hstep (by simp [Node.isElement, hbody]) hrest
    · rename_i hbody
      obtain ⟨_, _, huse, h⟩ := Work.bind_ok h
      cases huse
      obtain ⟨rest, _, hrest, hlast⟩ := Work.bind_ok h
      cases hlast
      exact hstep (by simp [Node.isElement, hbody]) hrest

theorem takePlainText_ok {e : Nat} {text : Text}
    (h : (takePlainText e).runOn d = (.ok text, d')) : d.Takes d' ∧ d'.Empty e := by
  unfold takePlainText at h
  obtain ⟨_, _, hget, h⟩ := Work.bind_ok h
  cases hget
  obtain ⟨htakes, hgone⟩ := takeSlots_ok h
  exact ⟨htakes, htakes.empty_of_contents hgone⟩

end Document

end ViewBinder.Markup
