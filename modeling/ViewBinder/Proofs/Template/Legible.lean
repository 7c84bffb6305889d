-- Plain markup in content. Elements without a namespace that refer to nothing are written with
-- their attributes and content as they are, one slot after the other: rendering a slot uses up what
-- is in it and nothing else. So from the markup of plain content the content can be read back.
import ViewBinder.Proofs.Html.Legible
import ViewBinder.Proofs.Markup.Once
import ViewBinder.Proofs.Markup.Prefixes
import ViewBinder.Proofs.Template.Rendering
import ViewBinder.Proofs.Template.Verbatim

namespace ViewBinder

open Markup (Document Name Attribute Node)
open Session

/-! ## What lies in slots -/

namespace Content

variable {d : Document} {n m q x : Nat} {ns : List Nat}

theorem Below.mono {slots more : List Nat} (h : Below d slots x) (hsub : slots ⊆ more) :
    Below d more x := by
  induction h with
  | here hn => exact .here (hsub hn)
  | inside _ hn ih => exact .inside ih hn

theorem Below.slot (h : Below d ns x) : ∃ n ∈ ns, Below d [n] x := by
  induction h with
  | here hn => exact ⟨_, hn, .here (List.mem_singleton_self _)⟩
  | inside _ hx ih =>
    obtain ⟨n, hn, hbelow⟩ := ih
    exact ⟨n, hn, .inside hbelow hx⟩

theorem Below.le (hordered : d.Ordered) (h : Below d [n] x) : n ≤ x := by
  induction h with
  | here hx => exact Nat.le_of_eq (List.mem_singleton.mp hx).symm
  | inside _ hx ih => exact Nat.le_of_lt (Nat.lt_of_le_of_lt ih (hordered _ _ hx).1)

theorem Below.lt (hordered : d.Ordered) (h : Below d (d.node n).children x) : n < x := by
  obtain ⟨c, hc, hbelow⟩ := h.slot
  exact Nat.lt_of_lt_of_le (hordered _ _ hc).1 (hbelow.le hordered)

theorem parent_eq_of_mem (hd : d.InDocumentOrder) (hx : x ∈ (d.node q).children) :
    (d.node x).parent = some q := by
  have hcount := hd.listed q x
  by_contra hother
  rw [if_neg hother] at hcount
  exact List.count_eq_zero.mp hcount hx

/-- Of two slots that hold a node, one holds the other. -/
theorem Below.nested (hd : d.InDocumentOrder) (h : Below d [n] x) (h' : Below d [m] x) :
    Below d [n] m ∨ Below d [m] n := by
  induction h with
  | here hx =>
    obtain rfl := List.mem_singleton.mp hx
    exact .inr h'
  | @inside p x hp hx ih =>
    cases h' with
    | here hm =>
      obtain rfl := List.mem_singleton.mp hm
      exact .inl (.inside hp hx)
    | @inside p' _ hp' hx' =>
      have hsame := (parent_eq_of_mem hd hx).symm.trans (parent_eq_of_mem hd hx')
      cases hsame
      exact ih hp'

/-- A child lies in no other child of its parent. -/
theorem eq_of_below_sibling (hd : d.InDocumentOrder) (hordered : d.Ordered)
    (hn : n ∈ (d.node q).children) (hm : m ∈ (d.node q).children) (h : Below d [n] m) : n = m := by
  cases h with
  | here h => exact (List.mem_singleton.mp h).symm
  | @inside p _ hp hmem =>
    have hsame := (parent_eq_of_mem hd hmem).symm.trans (parent_eq_of_mem hd hm)
    cases hsame
    exact absurd (hp.le hordered) (Nat.not_le.mpr (hordered _ _ hn).1)

/-- What lies in a slot lies in none of the slots behind it. -/
theorem not_below_rest (hd : d.InDocumentOrder) (hordered : d.Ordered)
    (hslots : n :: ns <:+ (d.node q).children) (h : Below d [n] x) : ¬ Below d ns x := by
  intro hrest
  obtain ⟨m, hm, hbelow⟩ := hrest.slot
  have hless : n < m := (List.pairwise_cons.mp ((hd.sorted q).sublist hslots.sublist)).1 m hm
  have hn : n ∈ (d.node q).children := hslots.subset List.mem_cons_self
  have hm' : m ∈ (d.node q).children := hslots.subset (List.mem_cons_of_mem n hm)
  refine Nat.ne_of_lt hless ?_
  rcases h.nested hd hbelow with hnested | hnested
  · exact eq_of_below_sibling hd hordered hn hm' hnested
  · exact (eq_of_below_sibling hd hordered hm' hn hnested).symm

/-! ## Changes of sessions -/

/-- The tree of the document stays, and so do all nodes but some. -/
structure ChangesOnly (p : Nat → Prop) (s s' : Session) : Prop where
  tree : s.document.SameTree s'.document
  rest : ∀ n, ¬ p n → s'.document.node n = s.document.node n

variable {s s' s'' : Session} {p r : Nat → Prop}

theorem ChangesOnly.refl (p : Nat → Prop) (s : Session) : ChangesOnly p s s :=
  ⟨.refl _, fun _ _ => rfl⟩

theorem ChangesOnly.trans (h : ChangesOnly p s s') (h' : ChangesOnly p s' s'') :
    ChangesOnly p s s'' :=
  ⟨h.tree.trans h'.tree, fun n hn => (h'.rest n hn).trans (h.rest n hn)⟩

theorem ChangesOnly.mono (h : ChangesOnly p s s') (hpr : ∀ n, p n → r n) : ChangesOnly r s s' :=
  ⟨h.tree, fun n hn => h.rest n fun hp => hn (hpr n hp)⟩

theorem changesOnly_of_document (h : s'.document = s.document) : ChangesOnly p s s' :=
  ⟨h ▸ .refl _, fun _ _ => by rw [h]⟩

theorem changesOnly_useChild (s : Session) (n : Nat) :
    ChangesOnly (· = n) s { s with document := s.document.useChild n } :=
  ⟨Document.sameTree_useChild s.document n,
    fun _ hm => Document.node_change_ne fun hsame => hm hsame.symm⟩

theorem changesOnly_useAttribute (s : Session) (e i : Nat) :
    ChangesOnly (· = e) s { s with document := s.document.useAttribute e i } :=
  ⟨Document.sameTree_useAttribute s.document e i,
    fun _ hm => Document.node_change_ne fun hsame => hm hsame.symm⟩

/-- What is in some slots is as the template has it. -/
structure Intact (d : Document) (slots : List Nat) (s : Session) : Prop where
  tree : d.SameTree s.document
  same : ∀ n, Below d slots n → s.document.node n = d.node n

theorem Intact.mono {slots fewer : List Nat} (h : Intact d slots s)
    (hsub : ∀ n, Below d fewer n → Below d slots n) : Intact d fewer s :=
  ⟨h.tree, fun n hn => h.same n (hsub n hn)⟩

theorem Intact.after {slots : List Nat} (h : Intact d slots s) (hchanges : ChangesOnly p s s')
    (hapart : ∀ n, Below d slots n → ¬ p n) : Intact d slots s' :=
  ⟨h.tree.trans hchanges.tree, fun n hn => (hchanges.rest n (hapart n hn)).trans (h.same n hn)⟩

/-! ## Elements of plain markup -/

variable {e : Nat}

/-- Attributes without a namespace make no field. -/
theorem runOn_bindField_of_none (h : ∀ a ∈ s.document.remaining e, a.2.name.uri = []) :
    (bindField e).runOn s = (.ok (), s) := by
  have hnone : ∀ uri : Text, uri ≠ [] → s.document.find? e uri "field" = none := by
    intro uri huri
    refine List.find?_eq_none.mpr fun a ha => ?_
    have hother : ([] == uri) = false := by simpa using huri.symm
    rw [h a ha, hother]
    simp
  by_cases hkind : s.document.isImported e = true ∨ s.document.isBinder e = true
  · exact runOn_bindField hkind
  · have htake : (liftM (Document.takeBinder e "field") : Work Session (Option Text)).runOn s =
        (.ok none, s) := by
      have hin : ∀ uri : Text, uri ≠ [] →
          s.document.take? e uri "field" = (none, s.document) := fun uri huri => by
        unfold Document.take?
        rw [hnone uri huri]
      have hwork : (Document.takeBinder e "field").runOn s.document = (.ok none, s.document) := by
        unfold Document.takeBinder Document.takeIn
        simp only [Work.runOn_bind, Work.runOn_modifyGet, hin _ (by decide : Markup.binderUri ≠ []),
          hin _ (by decide : Markup.formerBinderUri ≠ [])]
      rw [runOn_document, hwork]
    unfold bindField
    rw [Work.runOn_bind]
    show (if (s.document.isImported e || s.document.isBinder e) = true then _ else _ :
      Work Session Unit).runOn s = _
    rw [if_neg (by simpa using hkind), Work.runOn_bind, htake]
    rfl

/-- An element of markup that has only attributes without namespaces and references. -/
structure IsPlain (d : Document) (e : Nat) : Prop where
  uri : (d.name e).uri = []
  attributes : ∀ a ∈ d.remaining e, a.2.name.uri = [] ∧ Segment.hasReference a.2.value = false
  children : ∀ child ∈ d.childElements e, (d.name child).uri = []

theorem isBinder_of_uri (h : (d.name e).uri = []) : d.isBinder e = false := by
  unfold Document.isBinder
  rw [h]
  decide

theorem isImported_of_uri (h : (d.name e).uri = []) : d.isImported e = false := by
  unfold Document.isImported
  rw [h]
  decide

variable {build : Builder} {slot : Nat → Work Session Html} {attached stamped : Bool}
  {panel : Option FieldId}

/-- Nothing stands for plain markup, and it is not changed. -/
theorem runOn_interpret?_of_plain (h : IsPlain s.document e) :
    (interpret? build (.markup attached panel stamped) slot e).runOn s = (.ok none, s) := by
  have hmessages : ∀ value, (declareAttributeMessages e value).runOn s = (.ok (), s) :=
    runOn_declareAttributeMessages_of_none fun child hchild =>
      Document.isBinderTag_of_isBinder (isBinder_of_uri (h.children child hchild))
  have hcompute : (computeAttributes e).runOn s = (.ok (), s) :=
    runOn_computeAttributes_of_none fun a ha => by simp [h.attributes a ha]
  have hbind : (bindField e).runOn s = (.ok (), s) :=
    runOn_bindField_of_none fun a ha => (h.attributes a ha).1
  rw [interpret?_markup, Work.runOn_bind]
  show (do
    declareAttributeMessages e fun method => do splice e (← escaped (method ++ "()"))
    computeAttributes e
    if attached then bindField e
    standIn? build (.markup attached panel stamped) slot e s.document panel stamped :
      Work Session (Option Text)).runOn s = _
  rw [Work.runOn_bind, hmessages]
  dsimp only
  rw [Work.runOn_bind, hcompute,
    standIn?_of_markup (isBinder_of_uri h.uri) (isImported_of_uri h.uri)]
  cases attached with
  | false => rfl
  | true =>
    show (do
      bindField e
      pure none : Work Session (Option Text)).runOn s = _
    rw [Work.runOn_bind, hbind]
    rfl

theorem runOn_renderElement_of_plain (h : IsPlain s.document e) :
    (renderElement build (.markup attached panel stamped) slot e).runOn s =
      (markupElement slot e).runOn s := by
  unfold renderElement
  rw [Work.runOn_bind, runOn_interpret?_of_plain h]
  show (do
    if s.document.isBinder e then failOn e fun d => .binderInHtml (d.tag e)
    if s.document.isImported e then failOn e fun d => .widgetInHtml (d.tag e)
    markupElement slot e : Work Session Html).runOn s = _
  rw [isBinder_of_uri h.uri, isImported_of_uri h.uri]
  rfl

/-- An element that nobody knows is only warned of. -/
theorem runOn_checkName (e : Nat) (s : Session) :
    ∃ s', (checkName e).runOn s = (.ok (), s') ∧ s'.document = s.document := by
  unfold checkName
  rw [Work.runOn_bind]
  show ∃ s', (if (!Text.contains (s.document.name e).base "-" &&
    !Html.isKnownName (s.document.name e).base) = true then _ else _ :
      Work Session Unit).runOn s = _ ∧ _
  split
  · exact ⟨_, rfl, rfl⟩
  · exact ⟨_, rfl, rfl⟩

/-- Attributes without a namespace are all taken. -/
theorem runOn_markupAttributes {attributes : List (Nat × Attribute)}
    (h : ∀ a ∈ attributes, a.2.name.uri = []) (s : Session) :
    ∃ s', (markupAttributes e attributes).runOn s =
      (.ok (attributes.map fun a => (a.2.name.base, a.2.value)), s') ∧
        ChangesOnly (· = e) s s' := by
  induction attributes generalizing s with
  | nil => exact ⟨s, rfl, .refl _ s⟩
  | cons x rest ih =>
    obtain ⟨i, a⟩ := x
    obtain ⟨s', hrun, hchanges⟩ := ih (fun b hb => h b (List.mem_cons_of_mem _ hb))
      { s with document := s.document.useAttribute e i }
    refine ⟨s', ?_, (changesOnly_useAttribute s e i).trans hchanges⟩
    unfold markupAttributes
    dsimp only
    rw [h _ List.mem_cons_self]
    show (do
      modify fun s => { s with document := s.document.useAttribute e i }
      return (a.name.base, a.value) :: (← markupAttributes e rest) :
        Work Session (List (Text × Text))).runOn s = _
    rw [Work.runOn_bind, Work.runOn_modify]
    dsimp only
    rw [Work.runOn_bind, hrun]
    rfl

/-! ## Plain markup -/

/-- Slots that hold plain markup, and that markup as trees: texts that are there, without null bytes
and none right behind another one, and elements without a namespace that have an end, whose
attributes have no namespace and refer to nothing. -/
inductive PlainMarkup (d : Document) : List Nat → List Html → Prop
  | nil : PlainMarkup d [] []
  | text {n : Nat} {t : Text} {ns : List Nat} {trees : List Html} :
      (d.node n).body = .text t → t ≠ [] → 0 ∉ t → (∀ next ∈ trees.head?, next.isText = false) →
      PlainMarkup d ns trees → PlainMarkup d (n :: ns) (.text t :: trees)
  | element {n : Nat} {name : Name} {attributes : List Attribute} {nodes ns : List Nat}
      {children trees : List Html} :
      (d.node n).body = .element name attributes nodes → name.uri = [] →
      Html.isVoid name.base = false →
      (∀ a ∈ attributes, a.name.uri = [] ∧ Segment.hasReference a.value = false) →
      PlainMarkup d nodes children → PlainMarkup d ns trees →
      PlainMarkup d (n :: ns)
        (.element name.base (attributes.map fun a => (a.name.base, a.value)) children :: trees)

/-- The markup of plain content can be read back. -/
theorem PlainMarkup.legible {source url : Text} (hload : Document.load source url = .ok d)
    {trees : List Html} (h : PlainMarkup d ns trees) : Html.AllLegible trees := by
  induction h with
  | nil => trivial
  | text _ hne hnull hnext _ ih => exact ⟨⟨hne, hnull⟩, fun _ => hnext, ih⟩
  | element hbody _ hvoid _ _ _ ihchildren ih =>
    obtain ⟨hname, hattributes⟩ := Document.spelt_of_load hload hbody
    refine ⟨⟨hvoid, hname, fun a ha => ?_, ihchildren⟩,
      fun htext => absurd htext Bool.false_ne_true, ih⟩
    obtain ⟨written, hwritten, rfl⟩ := List.mem_map.mp ha
    obtain ⟨hspelt, hnull, -⟩ := hattributes written hwritten
    exact ⟨hspelt, hnull⟩

theorem PlainMarkup.uri {trees : List Html} (h : PlainMarkup d ns trees) :
    ∀ n ∈ ns, (d.name n).uri = [] := by
  induction h with
  | nil => nofun
  | text hbody _ _ _ _ ih =>
    refine List.forall_mem_cons.mpr ⟨?_, ih⟩
    simp [Document.name, Node.name, hbody]
  | element hbody huri _ _ _ _ _ ih =>
    refine List.forall_mem_cons.mpr ⟨?_, ih⟩
    simpa [Document.name, Node.name, hbody] using huri

/-! ## Writing plain markup -/

/-- A document as it is when its template was read. -/
structure Unused (d : Document) : Prop where
  fresh : d.Fresh
  order : d.InDocumentOrder
  attributes : ∀ n, ∀ a ∈ (d.node n).attributes, a.consumed = false

theorem unused_of_load {source url : Text} (hload : Document.load source url = .ok d) :
    Unused d where
  fresh := Document.fresh_of_load hload
  order := Document.inDocumentOrder_of_load hload
  attributes n a ha := by
    cases hbody : (d.node n).body with
    | element name attributes nodes =>
      simp only [Node.attributes, hbody] at ha
      exact ((Document.spelt_of_load hload hbody).2 a ha).2.2
    | text t => simp [Node.attributes, hbody] at ha
    | cdata t => simp [Node.attributes, hbody] at ha

/-- Unused attributes remain. -/
theorem map_remaining {β : Type} (h : ∀ a ∈ (d.node e).attributes, a.consumed = false)
    (f : Attribute → β) : (d.remaining e).map (fun a => f a.2) = (d.node e).attributes.map f := by
  have hall : (d.node e).attributes.zipIdx.filter (fun a => !a.1.consumed) =
      (d.node e).attributes.zipIdx :=
    List.filter_eq_self.mpr fun a ha => by simp [h a.1 (List.fst_mem_of_mem_zipIdx ha)]
  unfold Document.remaining
  rw [hall, List.map_map]
  show (d.node e).attributes.zipIdx.map (f ∘ Prod.fst) = _
  rw [← List.map_map, List.zipIdx_map_fst]

theorem runOn_getDocument_bind {α : Type} (k : Document → Work Session α) (s : Session) :
    (getDocument >>= k).runOn s = (k s.document).runOn s := rfl

theorem runOn_renderSlots (slot : Nat → Work Session Html) (e : Nat) (s : Session) :
    (renderSlots slot e).runOn s = ((s.document.contents e).mapM slot).runOn s := by
  unfold renderSlots
  rw [runOn_getDocument_bind]

variable {trees : List Html} {fuel : Nat}

/-- A slot is used before what is in it is written. -/
theorem body_useChild (d : Document) (n m : Nat) :
    ((d.useChild n).node m).body = (d.node m).body :=
  Document.node_change_apply d n m _ Node.body fun _ => rfl

theorem runOn_renderSlot_text {t : Text} (hbody : (s.document.node n).body = .text t) :
    (renderSlot build (.markup attached panel stamped) (fuel + 1) n).runOn s =
      (.ok (.text t), { s with document := s.document.useChild n }) := by
  unfold renderSlot
  rw [Work.runOn_bind, Work.runOn_modify]
  dsimp only
  rw [runOn_getDocument_bind, body_useChild, hbody]
  rfl

theorem runOn_renderSlot_of_plain {name : Name} {attributes : List Attribute} {nodes : List Nat}
    (hbody : (s.document.node n).body = .element name attributes nodes)
    (hplain : IsPlain (s.document.useChild n) n) :
    (renderSlot build (.markup attached panel stamped) (fuel + 1) n).runOn s =
      (markupElement (renderSlot build (.markup attached panel stamped) fuel) n).runOn
        { s with document := s.document.useChild n } := by
  have helement : (renderSlot build (.markup attached panel stamped) (fuel + 1) n).runOn s =
      (renderElement build (.markup attached panel stamped)
        (renderSlot build (.markup attached panel stamped) fuel) n).runOn
          { s with document := s.document.useChild n } := by
    unfold renderSlot
    rw [Work.runOn_bind, Work.runOn_modify]
    dsimp only
    rw [runOn_getDocument_bind, body_useChild, hbody]
  rw [helement]
  exact runOn_renderElement_of_plain hplain

/-- An element is written with the attributes that remain, and with its slots. -/
theorem runOn_markupElement {slot : Nat → Work Session Html} (h : IsPlain s.document e)
    (hslots : ∀ s', ChangesOnly (· = e) s s' → ∃ s'',
      ((s'.document.contents e).mapM slot).runOn s' = (.ok trees, s'') ∧ ChangesOnly p s' s'')
    (hp : ∀ n, n = e → p n) :
    ∃ s', (markupElement slot e).runOn s = (.ok (.element (s.document.name e).base
      ((s.document.remaining e).map fun a => (a.2.name.base, a.2.value)) trees), s') ∧
        ChangesOnly p s s' := by
  obtain ⟨s₁, hname, hsame⟩ := runOn_checkName e s
  obtain ⟨s₂, hwritten, hchanges⟩ :=
    runOn_markupAttributes (fun a ha => (h.attributes a ha).1) s₁
  have hbefore : ChangesOnly (· = e) s s₂ := (changesOnly_of_document hsame).trans hchanges
  obtain ⟨s₃, hinside, hchanges₃⟩ := hslots s₂ hbefore
  have hwhole : ChangesOnly p s s₃ := (hbefore.mono hp).trans hchanges₃
  refine ⟨s₃, ?_, hwhole⟩
  unfold markupElement
  rw [Work.runOn_bind, hname]
  show (do
    let attributes ← markupAttributes e (s₁.document.remaining e)
    let children ← renderSlots slot e
    return .element ((← getDocument).name e).base attributes children :
      Work Session Html).runOn s₁ = _
  rw [hsame, Work.runOn_bind, hwritten]
  dsimp only
  rw [Work.runOn_bind, runOn_renderSlots, hinside]
  show (Except.ok (Html.element (s₃.document.name e).base _ trees), s₃) = _
  rw [Document.name, hwhole.tree.shape.name, ← Document.name]

/-- What is left in an element that is intact is all that is in it. -/
theorem Intact.contents (h : Intact d (d.node n).children s) (hunused : Unused d) :
    s.document.contents n = (d.node n).children := by
  unfold Document.contents
  rw [h.tree.shape.children]
  refine List.filter_eq_self.mpr fun c hc => ?_
  rw [h.same c (.here hc), hunused.fresh.unused c]
  rfl

/-- Slots that are left stay intact, since none of them lies in the slot that is written. -/
theorem Intact.rest (h : Intact d (n :: ns) s) (hunused : Unused d)
    (hslots : n :: ns <:+ (d.node q).children) (hchanges : ChangesOnly (Below d [n]) s s') :
    Intact d ns s' :=
  (h.mono fun _ hm => hm.mono (List.subset_cons_self n ns)).after hchanges fun _ hm hn =>
    not_below_rest hunused.order hunused.fresh.ordered hslots hn hm

/-- An element of plain markup is written with its attributes and with what is written of its slots,
and nothing outside it is used. -/
theorem runOn_renderSlot_element {name : Name} {attributes : List Attribute} {nodes : List Nat}
    (hunused : Unused d) (hbody : (d.node n).body = .element name attributes nodes)
    (huri : name.uri = [])
    (hattributes : ∀ a ∈ attributes, a.name.uri = [] ∧ Segment.hasReference a.value = false)
    (hnames : ∀ c ∈ nodes, (d.name c).uri = []) (hintact : Intact d [n] s)
    (hinside : ∀ {s : Session}, Intact d nodes s → ∃ s',
      (nodes.mapM (renderSlot build (.markup attached panel stamped) fuel)).runOn s =
        (.ok trees, s') ∧ ChangesOnly (Below d nodes) s s') :
    ∃ s', (renderSlot build (.markup attached panel stamped) (fuel + 1) n).runOn s =
      (.ok (.element name.base (attributes.map fun a => (a.name.base, a.value)) trees), s') ∧
        ChangesOnly (Below d [n]) s s' := by
  have hhere : Below d [n] n := .here (List.mem_singleton_self n)
  obtain rfl : (d.node n).children = nodes := by simp [Node.children, hbody]
  have houter : ∀ m, Below d (d.node n).children m → Below d [n] m :=
    fun _ hm => .outer (List.mem_singleton_self n) hm
  have huse := changesOnly_useChild s n
  have htree : d.SameTree (s.document.useChild n) := hintact.tree.trans huse.tree
  have hbody' : (s.document.node n).body = .element name attributes (d.node n).children :=
    (congrArg Node.body (hintact.same n hhere)).trans hbody
  have hlabel : (s.document.useChild n).name n = name := by
    simp [Document.name, Node.name, body_useChild, hbody']
  have hwritten : ((s.document.useChild n).node n).attributes = attributes := by
    simp [Node.attributes, body_useChild, hbody']
  have hleft : ∀ a ∈ attributes, a.consumed = false := by
    simpa [Node.attributes, hbody] using hunused.attributes n
  have hplain : IsPlain (s.document.useChild n) n := by
    refine ⟨hlabel ▸ huri, fun a ha => ?_, fun child hchild => ?_⟩
    · exact hattributes a.2 (hwritten ▸ (Document.mem_remaining ha).1)
    · have hmem := Document.mem_children_of_childElements hchild
      rw [htree.shape.children] at hmem
      rw [Document.name, htree.shape.name]
      exact hnames child hmem
  have hslots : ∀ s₁,
      ChangesOnly (· = n) { s with document := s.document.useChild n } s₁ → ∃ s₂,
        ((s₁.document.contents n).mapM
          (renderSlot build (.markup attached panel stamped) fuel)).runOn s₁ = (.ok trees, s₂) ∧
        ChangesOnly (Below d [n]) s₁ s₂ := by
    intro s₁ hchanges
    have hintact₁ : Intact d (d.node n).children s₁ :=
      (hintact.mono houter).after (huse.trans hchanges)
        fun _ hm => Nat.ne_of_gt (hm.lt hunused.fresh.ordered)
    obtain ⟨s₂, hrun, hlater⟩ := hinside hintact₁
    exact ⟨s₂, hintact₁.contents hunused ▸ hrun, hlater.mono houter⟩
  obtain ⟨s', hrun, hchanges⟩ := runOn_markupElement hplain hslots fun _ hm => hm ▸ hhere
  refine ⟨s', ?_, (huse.mono fun _ hm => hm ▸ hhere).trans hchanges⟩
  rw [runOn_renderSlot_of_plain hbody' hplain, hrun, hlabel,
    map_remaining (hwritten.symm ▸ hleft) fun a => (a.name.base, a.value), hwritten]

/-- What is written of some slots is what is written of the first one, and then of the others. -/
theorem runOn_slots_cons {slot : Nat → Work Session Html} {tree : Html}
    (hfirst : ∃ s', (slot n).runOn s = (.ok tree, s') ∧ ChangesOnly (Below d [n]) s s')
    (hrest : ∀ {s'}, ChangesOnly (Below d [n]) s s' → ∃ s'',
      (ns.mapM slot).runOn s' = (.ok trees, s'') ∧ ChangesOnly (Below d ns) s' s'') :
    ∃ s', ((n :: ns).mapM slot).runOn s = (.ok (tree :: trees), s') ∧
      ChangesOnly (Below d (n :: ns)) s s' := by
  obtain ⟨s₁, hrun, hchanges⟩ := hfirst
  obtain ⟨s₂, hlater, hchanges₂⟩ := hrest hchanges
  refine ⟨s₂, ?_, ?_⟩
  · rw [List.mapM_cons, Work.runOn_bind, hrun]
    dsimp only
    rw [Work.runOn_bind, hlater]
    rfl
  · exact (hchanges.mono fun _ hm => hm.mono (List.cons_subset_cons n (List.nil_subset ns))).trans
      (hchanges₂.mono fun _ hm => hm.mono (List.subset_cons_self n ns))

/-- Plain markup is written as it is, and only what is in its slots is used. -/
theorem PlainMarkup.runOn (h : PlainMarkup d ns trees) (hunused : Unused d)
    (hslots : ns <:+ (d.node q).children) (hfuel : ∀ n ∈ ns, d.nodes.size < fuel + n)
    (hintact : Intact d ns s) :
    ∃ s', (ns.mapM (renderSlot build (.markup attached panel stamped) fuel)).runOn s =
      (.ok trees, s') ∧ ChangesOnly (Below d ns) s s' := by
  -- the slots of an element are deeper than the element, so one unit of fuel less is enough
  have hspare : ∀ {n ns fuel q}, n :: ns <:+ (d.node q).children → d.nodes.size < fuel + n →
      ∃ k, fuel = k + 1 ∧ ∀ c ∈ (d.node n).children, d.nodes.size < k + c := by
    intro n ns fuel q hslots hfuel
    have hin := (hunused.fresh.ordered q n (hslots.subset List.mem_cons_self)).2
    refine ⟨fuel - 1, by omega, fun c hc => ?_⟩
    have hdeeper := (hunused.fresh.ordered n c hc).1
    omega
  induction h generalizing q fuel s with
  | nil => exact ⟨s, rfl, .refl _ s⟩
  | @text n t ns trees hbody _ _ _ _ ih =>
    obtain ⟨hfirst, hlater⟩ := List.forall_mem_cons.mp hfuel
    obtain ⟨k, rfl, -⟩ := hspare hslots hfirst
    have hbody' : (s.document.node n).body = .text t :=
      (congrArg Node.body (hintact.same n (.here List.mem_cons_self))).trans hbody
    have huse := (changesOnly_useChild s n).mono (r := Below d [n]) fun _ hm =>
      .here (List.mem_singleton.mpr hm)
    exact runOn_slots_cons ⟨_, runOn_renderSlot_text hbody', huse⟩ fun hchanges =>
      ih ((List.suffix_cons n ns).trans hslots) hlater (hintact.rest hunused hslots hchanges)
  | @element n name attributes nodes ns children trees hbody huri _ hattributes hinside _ ihchildren
      ih =>
    obtain ⟨hfirst, hlater⟩ := List.forall_mem_cons.mp hfuel
    obtain ⟨k, rfl, hdeeper⟩ := hspare hslots hfirst
    obtain rfl : (d.node n).children = nodes := by simp [Node.children, hbody]
    have hone : Intact d [n] s :=
      hintact.mono fun _ hm => hm.mono (List.cons_subset_cons n (List.nil_subset ns))
    refine runOn_slots_cons (runOn_renderSlot_element hunused hbody huri hattributes hinside.uri
      hone fun hintact' => ?_) fun hchanges => ?_
    · exact ihchildren List.suffix_rfl hdeeper hintact'
    · exact ih ((List.suffix_cons n ns).trans hslots) hlater
        (hintact.rest hunused hslots hchanges)

theorem runOn_withSplices {w : Work Session α} {a : α}
    (h : w.runOn { s with splices := [] } = (.ok a, s')) :
    (withSplices w).runOn s = (.ok a, { s' with splices := s.splices }) := by
  unfold withSplices
  rw [Work.runOn_bind]
  show (do
    modify fun s => { s with splices := [] }
    w.andThenAlways fun s₁ => { s₁ with splices := s.splices } : Work Session α).runOn s = _
  rw [Work.runOn_bind, Work.runOn_modify]
  dsimp only
  rw [Work.runOn_andThenAlways, h]

/-- The content of an element that holds plain markup is what is written of its trees. -/
theorem PlainMarkup.runOn_inner (h : PlainMarkup d (d.node e).children trees) (hunused : Unused d)
    (hintact : Intact d (d.node e).children s) {kind : ContentKind} (hkind : kind.isText = false)
    (build : Builder) :
    ∃ s', (inner build kind e).runOn s = (.ok (Html.renderAll trees), s') := by
  obtain ⟨attached, panel, stamped, rfl⟩ :
      ∃ attached panel stamped, kind = .markup attached panel stamped := by
    cases kind with
    | plainText => cases hkind
    | markup attached panel stamped => exact ⟨attached, panel, stamped, rfl⟩
  have hopen : Intact d (d.node e).children { s with splices := [] } := ⟨hintact.tree, hintact.same⟩
  have hfuel : ∀ n ∈ (d.node e).children, d.nodes.size < s.document.nodes.size + n := by
    intro n hn
    have hdeeper := (hunused.fresh.ordered e n hn).1
    rw [hintact.tree.size]
    omega
  obtain ⟨s', hrun⟩ : ∃ s', ((d.node e).children.mapM (renderSlot build
      (.markup attached panel stamped) s.document.nodes.size)).runOn { s with splices := [] } =
        (.ok trees, s') :=
    (h.runOn hunused List.suffix_rfl hfuel hopen).imp fun _ hwritten => hwritten.1
  refine ⟨{ s' with splices := s.splices }, ?_⟩
  unfold inner
  refine runOn_withSplices ?_
  rw [Work.runOn_bind]
  show (do
    let pieces ← renderSlots (renderSlot build (.markup attached panel stamped)
      s.document.nodes.size) e
    return Html.renderAll pieces : Work Session Text).runOn { s with splices := [] } = _
  rw [Work.runOn_bind, runOn_renderSlots, hopen.contents hunused, hrun]
  rfl

/-! ## Reading content back -/

/-- Plain content of loaded templates is always written, in whatever session it is as the template
has it, and what is written is the same exactly if the content is: its elements with their
attributes in order, and its texts. -/
theorem plain_content_is_told_apart {source url source' url' : Text} {d d' : Document}
    (hload : Document.load source url = .ok d) (hload' : Document.load source' url' = .ok d')
    {e e' : Nat} {trees trees' : List Html} (h : PlainMarkup d (d.node e).children trees)
    (h' : PlainMarkup d' (d'.node e').children trees') {s s' : Session}
    (hintact : Intact d (d.node e).children s) (hintact' : Intact d' (d'.node e').children s')
    {kind kind' : ContentKind} (hkind : kind.isText = false) (hkind' : kind'.isText = false)
    (build build' : Builder) :
    ∃ html s₁ html' s₁', (inner build kind e).runOn s = (.ok html, s₁) ∧
      (inner build' kind' e').runOn s' = (.ok html', s₁') ∧ (html = html' ↔ trees = trees') := by
  obtain ⟨s₁, hrun⟩ := h.runOn_inner (unused_of_load hload) hintact hkind build
  obtain ⟨s₁', hrun'⟩ := h'.runOn_inner (unused_of_load hload') hintact' hkind' build'
  exact ⟨_, s₁, _, s₁', hrun, hrun',
    Html.renderAll_inj (h.legible hload) (h'.legible hload'), congrArg Html.renderAll⟩

end Content

namespace Template

open Content

deriving instance DecidableEq for Markup.Body

/-- An element in a panel. -/
def quotedMarkup : Template := templateOf "<g:HTMLPanel><i title='\"'>a</i></g:HTMLPanel>"

/-- A text in a panel that reads like what is written of that element. -/
def lookalike : Template :=
  templateOf "<g:HTMLPanel>&lt;i title=&#34;&amp;#34;&#34;>a&lt;/i></g:HTMLPanel>"

/-- The element, as a tree. -/
def quotedTrees : List Html := [.element "i" [("title", "\"")] [.text "a"]]

/-- The text, as a tree. -/
def lookalikeTrees : List Html := [.text "<i title=\"&#34;\">a</i>"]

theorem exists_of_loads {t : Template} {test : Document → Bool}
    (h : ((Document.load t.source t.url).toOption.any test) = true) :
    ∃ d, Document.load t.source t.url = .ok d ∧ test d = true := by
  obtain ⟨d, hload, htest⟩ := (Option.any_eq_true _ _).mp h
  exact ⟨d, ok_of_toOption hload, htest⟩

theorem quotedMarkup_holds_its_trees : ∃ d,
    Document.load quotedMarkup.source quotedMarkup.url = .ok d ∧
      PlainMarkup d (d.node 1).children quotedTrees := by
  have h : ((Document.load quotedMarkup.source quotedMarkup.url).toOption.any fun d => decide
      ((d.node 1).children = [2] ∧
        (d.node 2).body = .element ⟨[], "i", []⟩ (d.node 2).attributes [3] ∧
        (d.node 3).body = .text "a" ∧
        (d.node 2).attributes.map (fun a => (a.name.base, a.value)) =
          [(Text.ofString "title", Text.ofString "\"")] ∧
        ∀ a ∈ (d.node 2).attributes,
          a.name.uri = [] ∧ Segment.hasReference a.value = false)) = true := by
    decide +kernel
  obtain ⟨d, hload, htest⟩ := exists_of_loads h
  obtain ⟨hchildren, helement, htext, hwritten, hattributes⟩ := of_decide_eq_true htest
  refine ⟨d, hload, ?_⟩
  rw [hchildren]
  unfold quotedTrees
  rw [← hwritten]
  exact .element helement rfl (by decide) hattributes
    (.text htext (by decide) (by decide) nofun .nil) .nil

theorem lookalike_holds_its_trees : ∃ d,
    Document.load lookalike.source lookalike.url = .ok d ∧
      PlainMarkup d (d.node 1).children lookalikeTrees := by
  have h : ((Document.load lookalike.source lookalike.url).toOption.any fun d => decide
      ((d.node 1).children = [2] ∧
        (d.node 2).body = .text "<i title=\"&#34;\">a</i>")) = true := by
    decide +kernel
  obtain ⟨d, hload, htest⟩ := exists_of_loads h
  obtain ⟨hchildren, htext⟩ := of_decide_eq_true htest
  refine ⟨d, hload, ?_⟩
  rw [hchildren]
  exact .text htext (by decide) (by decide) nofun .nil

/-- A text is written differently from the element whose markup it spells. -/
theorem content_of_lookalike_is_told_apart : ∃ d d' html s₁ html' s₁',
    Document.load quotedMarkup.source quotedMarkup.url = .ok d ∧
      Document.load lookalike.source lookalike.url = .ok d' ∧
      PlainMarkup d (d.node 1).children quotedTrees ∧
      PlainMarkup d' (d'.node 1).children lookalikeTrees ∧
      (inner (Element.buildWithin 0) (.markup true (some 0) false) 1).runOn
        (quotedMarkup.start sampleCatalog sampleSettings (· + 1) d) = (.ok html, s₁) ∧
      (inner (Element.buildWithin 0) (.markup false none false) 1).runOn
        (lookalike.start sampleCatalog sampleSettings (· + 1) d') = (.ok html', s₁') ∧
      html ≠ html' := by
  obtain ⟨d, hload, hholds⟩ := quotedMarkup_holds_its_trees
  obtain ⟨d', hload', hholds'⟩ := lookalike_holds_its_trees
  have hintact : ∀ (t : Template) (d : Document), Intact d (d.node 1).children
      (t.start sampleCatalog sampleSettings (· + 1) d) := fun _ d => ⟨.refl d, fun _ _ => rfl⟩
  have hattached : (ContentKind.markup true (some 0) false).isText = false := rfl
  have hliteral : (ContentKind.markup false none false).isText = false := rfl
  obtain ⟨html, s₁, html', s₁', hrun, hrun', hsame⟩ :=
    plain_content_is_told_apart hload hload' hholds hholds' (hintact quotedMarkup d)
      (hintact lookalike d') hattached hliteral (Element.buildWithin 0) (Element.buildWithin 0)
  have hdifferent : quotedTrees ≠ lookalikeTrees := fun heq => by cases heq
  exact ⟨d, d', html, s₁, html', s₁', hload, hload', hholds, hholds', hrun, hrun',
    fun heq => hdifferent (hsame.mp heq)⟩

end Template

end ViewBinder
