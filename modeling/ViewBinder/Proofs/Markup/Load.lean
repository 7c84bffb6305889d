-- Documents as they are loaded: nothing of them was used yet, every node but the root is listed by an
-- element before it, and what an element lists comes behind it.
import ViewBinder.Markup.Load
import ViewBinder.Proofs.Markup.Consume

namespace ViewBinder.Markup

/-! ## Nodes that are added -/

namespace Document

/-- The node stands behind another one. -/
def Below (d : Document) (e c : Nat) : Prop := e < c ∧ c < d.nodes.size

/-- Children come behind their parents. -/
def Ordered (d : Document) : Prop := ∀ e, ∀ c ∈ (d.node e).children, d.Below e c

/-- Nothing was used, every node but the root is a child of an element before it, and children come
behind their parents. -/
structure Fresh (d : Document) : Prop where
  unused : ∀ n, (d.node n).consumed = false
  listed : ∀ n, 0 < n → n < d.nodes.size → ∃ p < n, n ∈ (d.node p).children
  ordered : d.Ordered

theorem node_push (d : Document) (x : Node) (n : Nat) :
    ({ d with nodes := d.nodes.push x } : Document).node n =
      if n = d.nodes.size then x else d.node n := by
  unfold node
  simp only [Array.getElem?_push]
  split <;> rfl

theorem size_push (d : Document) (x : Node) : (d.push x).nodes.size = d.nodes.size + 1 := by
  unfold push
  cases x.parent with
  | none => exact Array.size_push x
  | some parent =>
    show ((d.nodes.push x).modify parent _).size = _
    rw [Array.size_modify, Array.size_push]

theorem consumed_withChild (c : Nat) (x : Node) : (x.withChild c).consumed = x.consumed := by
  obtain ⟨body, _, _, _⟩ := x
  cases body <;> rfl

theorem isElement_withChild (c : Nat) (x : Node) : (x.withChild c).isElement = x.isElement := by
  obtain ⟨body, _, _, _⟩ := x
  cases body <;> rfl

theorem mem_children_withChild {c n : Nat} {x : Node} (h : n ∈ x.children) :
    n ∈ (x.withChild c).children := by
  obtain ⟨body, _, _, _⟩ := x
  cases body with
  | element name attributes children => exact List.mem_append_left _ h
  | text content => exact h
  | cdata content => exact h

theorem self_mem_children_withChild {c : Nat} {x : Node} (h : x.isElement = true) :
    c ∈ (x.withChild c).children := by
  obtain ⟨body, _, _, _⟩ := x
  cases body with
  | element name attributes children => exact List.mem_append_right _ List.mem_cons_self
  | text content => cases h
  | cdata content => cases h

/-- What a child more does not touch is that of the nodes that are there. -/
theorem node_push_apply {α : Type} (d : Document) (x : Node) (n : Nat) (p : Node → α)
    (h : ∀ c y, p (y.withChild c) = p y) :
    p ((d.push x).node n) = if n = d.nodes.size then p x else p (d.node n) := by
  have hadded : p (({ d with nodes := d.nodes.push x } : Document).node n) =
      if n = d.nodes.size then p x else p (d.node n) := by
    rw [node_push]
    split <;> rfl
  unfold push
  cases x.parent with
  | none => exact hadded
  | some parent => exact (node_change_apply _ parent n _ p (h d.nodes.size)).trans hadded

theorem mem_children_push {d : Document} {p n : Nat} (x : Node) (hp : p < d.nodes.size)
    (h : n ∈ (d.node p).children) : n ∈ ((d.push x).node p).children := by
  have hadded : n ∈ (({ d with nodes := d.nodes.push x } : Document).node p).children := by
    rwa [node_push, if_neg (Nat.ne_of_lt hp)]
  unfold push
  cases x.parent with
  | none => exact hadded
  | some parent =>
    show n ∈ ((change _ parent _).node p).children
    rw [node_change]
    split
    · exact mem_children_withChild hadded
    · exact hadded

/-- The parent of a new node lists it. -/
theorem self_mem_children_push {d : Document} {p : Nat} {x : Node} (hparent : x.parent = some p)
    (hp : p < d.nodes.size) (helement : (d.node p).isElement = true) :
    d.nodes.size ∈ ((d.push x).node p).children := by
  unfold push
  rw [hparent]
  show _ ∈ ((change _ p _).node p).children
  rw [node_change, if_pos ⟨rfl, by simp; omega⟩]
  refine self_mem_children_withChild ?_
  rwa [node_push, if_neg (Nat.ne_of_lt hp)]

theorem mem_children_of_withChild {c n : Nat} {x : Node} (h : n ∈ (x.withChild c).children) :
    n ∈ x.children ∨ n = c := by
  obtain ⟨body, _, _, _⟩ := x
  cases body with
  | element name attributes children =>
    exact (List.mem_append.mp h).imp_right List.mem_singleton.mp
  | text content => exact .inl h
  | cdata content => exact .inl h

/-- A new node without children comes behind its parent. -/
theorem Ordered.push {d : Document} (hd : d.Ordered) {x : Node} (hx : x.children = [])
    (hparent : ∀ p ∈ x.parent, p < d.nodes.size) : (d.push x).Ordered := by
  have hadded : ∀ e, ∀ c ∈ (({ d with nodes := d.nodes.push x } : Document).node e).children,
      d.Below e c := by
    intro e c hc
    rw [node_push] at hc
    split at hc
    · rw [hx] at hc
      cases hc
    · exact hd e c hc
  intro e c hc
  unfold Below
  rw [size_push]
  unfold Document.push at hc
  cases hp : x.parent with
  | none =>
    rw [hp] at hc
    exact (hadded e c hc).imp_right Nat.lt_succ_of_lt
  | some p =>
    rw [hp] at hc
    simp only [node_change] at hc
    split at hc
    · rename_i hsame
      rcases mem_children_of_withChild hc with hold | rfl
      · exact (hadded e c hold).imp_right Nat.lt_succ_of_lt
      · exact ⟨hsame.1 ▸ hparent p hp, Nat.lt_succ_self _⟩
    · exact (hadded e c hc).imp_right Nat.lt_succ_of_lt

theorem Fresh.push {d : Document} (hd : d.Fresh) {x : Node} (hx : x.consumed = false)
    (hchildren : x.children = [])
    (hparent : d.nodes.size = 0 ∧ x.parent = none ∨ ∃ p < d.nodes.size, x.parent = some p ∧
      (d.node p).isElement = true) : (d.push x).Fresh where
  ordered := by
    refine hd.ordered.push hchildren fun p hp => ?_
    rcases hparent with ⟨-, hnone⟩ | ⟨q, hq, hx, -⟩
    · rw [hnone] at hp
      cases hp
    · rw [hx] at hp
      cases hp
      exact hq
  unused n := by
    rw [node_push_apply d x n Node.consumed consumed_withChild]
    split
    · exact hx
    · exact hd.unused n
  listed n hpos hlt := by
    rw [size_push] at hlt
    rcases Nat.lt_succ_iff_lt_or_eq.mp hlt with hold | rfl
    · obtain ⟨p, hp, hmem⟩ := hd.listed n hpos hold
      exact ⟨p, hp, mem_children_push x (Nat.lt_trans hp hold) hmem⟩
    · rcases hparent with ⟨hempty, -⟩ | ⟨p, hp, hx, helement⟩
      · omega
      · exact ⟨p, hp, self_mem_children_push hx hp helement⟩

/-- The node stands somewhere inside an element that holds the attributes of a value. -/
inductive InAttributes (d : Document) : Nat → Prop
  | child {e n : Nat} : d.HoldsAttributes e → n ∈ (d.node e).children → InAttributes d n
  | deeper {e n : Nat} : InAttributes d e → n ∈ (d.node e).children → InAttributes d n

/-- What is no element is finished. -/
theorem finished_of_isElement {d : Document} {n : Nat} (h : (d.node n).isElement = false) :
    d.Finished n := by
  unfold Node.isElement at h
  split at h
  · cases h
  · rename_i hbody
    refine ⟨fun a ha => ?_, .inr fun c hc => ?_⟩
    · unfold Node.attributes at ha
      split at ha
      · rename_i hbody'
        exact absurd hbody' (hbody _ _ _)
      · cases ha
    · unfold Node.children at hc
      split at hc
      · rename_i hbody'
        exact absurd hbody' (hbody _ _ _)
      · cases hc

/-- Once the root of a fresh document is finished, so is everything in it but what stands inside
attributes of a value: an element is listed by a finished one, so it was taken, and whatever was
taken is finished. -/
theorem Fresh.finished {d d' : Document} (hd : d.Fresh) (htakes : d.Takes d')
    (hroot : d'.Finished 0) (n : Nat) : d.InAttributes n ∨ d'.Finished n := by
  induction n using Nat.strongRecOn with
  | _ n ih =>
    rcases Nat.eq_zero_or_pos n with rfl | hpos
    · exact .inr hroot
    cases helement : (d'.node n).isElement with
    | false => exact .inr (finished_of_isElement helement)
    | true =>
      have hlt : n < d.nodes.size := by
        by_contra hout
        rw [htakes.shape.isElement] at helement
        unfold node at helement
        rw [Array.getElem?_eq_none (Nat.not_lt.mp hout)] at helement
        cases helement
      obtain ⟨p, hp, hmem⟩ := hd.listed n hpos hlt
      rcases ih p hp with hinside | hfinished
      · exact .inl (.deeper hinside hmem)
      rcases hfinished.body with hholds | hempty
      · exact .inl (.child (htakes.shape.symm.holdsAttributes hholds) hmem)
      · have hused : (d'.node n).consumed = true := by
          rw [← htakes.shape.children] at hmem
          exact (hempty n hmem).consumed helement
        rcases htakes.taken n helement hused with hbefore | hnone | hdone
        · rw [hd.unused n] at hbefore
          cases hbefore
        · exact hnone.elim
        · exact .inr hdone

end Document

/-! ## Loading -/

namespace Loading

/-- How far loading has come: the document is fresh, elements that are open are in it, and it has no
node before the root. -/
structure Sound (l : Loading) : Prop where
  fresh : l.document.Fresh
  opened : ∀ o ∈ l.opened, o.id < l.document.nodes.size ∧
    (l.document.node o.id).isElement = true
  root : l.opened = [] → l.closed = true ∨ l.document.nodes.size = 0

theorem Sound.push {l : Loading} (hl : l.Sound) {x : Node} (hx : x.consumed = false)
    (hchildren : x.children = []) (hparent : x.parent = l.parent) (hroot : l.closed = false ∨ l.opened ≠ []) :
    (l.document.push x).Fresh ∧ ∀ o ∈ l.opened, o.id < (l.document.push x).nodes.size ∧
      ((l.document.push x).node o.id).isElement = true := by
  refine ⟨hl.fresh.push hx hchildren ?_, fun o ho => ?_⟩
  · cases hopened : l.opened with
    | nil =>
      refine .inl ⟨(hl.root hopened).resolve_left fun hclosed => ?_, ?_⟩
      swap
      · rw [hparent, parent, hopened]
        rfl
      rcases hroot with hopen | hsome
      · rw [hopen] at hclosed
        cases hclosed
      · exact hsome hopened
    | cons top rest =>
      obtain ⟨hlt, helement⟩ := hl.opened top (by rw [hopened]; exact List.mem_cons_self)
      refine .inr ⟨top.id, hlt, ?_, helement⟩
      rw [hparent, parent, hopened]
      rfl
  · obtain ⟨hlt, helement⟩ := hl.opened o ho
    rw [Document.size_push, Document.node_push_apply _ x _ Node.isElement
      Document.isElement_withChild, if_neg (Nat.ne_of_lt hlt)]
    exact ⟨Nat.lt_succ_of_lt hlt, helement⟩

theorem Sound.pop {l : Loading} (hl : l.Sound) : l.pop.Sound where
  fresh := hl.fresh
  opened o ho := hl.opened o (List.mem_of_mem_drop ho)
  root hnone := by
    have hrest : l.opened.drop 1 = [] := hnone
    left
    show (l.closed || (l.opened.drop 1).isEmpty) = true
    rw [hrest]
    exact Bool.or_true _

/-- An element is opened. -/
theorem Sound.enter {l : Loading} (hl : l.Sound) (hopen : l.closed = false) (name : Name)
    (attributes : List Attribute) (place : Location) {top : OpenElement}
    (htop : top.id = l.document.nodes.size) :
    Sound { l with
      document := l.document.push ⟨.element name attributes [], l.parent, place, false⟩
      opened := top :: l.opened } := by
  obtain ⟨hfresh, hopened⟩ := hl.push (x := ⟨.element name attributes [], l.parent, place, false⟩)
    rfl rfl rfl (.inl hopen)
  refine ⟨hfresh, List.forall_mem_cons.mpr ⟨?_, hopened⟩, nofun⟩
  rw [htop, Document.size_push, Document.node_push_apply _ _ _ Node.isElement
    Document.isElement_withChild, if_pos rfl]
  exact ⟨Nat.lt_succ_self _, rfl⟩

theorem Sound.start {l l' : Loading} {place : Location} {raw : RawName}
    {attributes : List (RawName × Text)} {empty : Bool} (hl : l.Sound)
    (h : l.start place raw attributes empty = .ok l') : l'.Sound := by
  unfold Loading.start at h
  simp only at h
  split at h
  · cases h
  · rename_i hopen
    rw [Bool.not_eq_true] at hopen
    obtain ⟨name, -, h⟩ := answer_bind h
    obtain ⟨kept, -, h⟩ := answer_bind h
    cases h
    split
    · exact (hl.enter hopen name kept place rfl).pop
    · exact hl.enter hopen name kept place rfl

theorem Sound.text {l l' : Loading} {place : Location} {body : Body} {ignorable : Bool}
    (hl : l.Sound) (hbody : ∀ parent, (Node.mk body parent place false).children = [])
    (h : l.text place body ignorable = .ok l') : l'.Sound := by
  unfold Loading.text at h
  split at h
  · split at h
    · cases h
      exact hl
    · cases h
  · rename_i p hparent
    cases h
    have hsome : l.opened ≠ [] := by
      rintro hnil
      rw [Loading.parent, hnil] at hparent
      cases hparent
    obtain ⟨hfresh, hopened⟩ := hl.push (x := ⟨body, some p, place, false⟩) rfl
      (hbody _) hparent.symm (.inr hsome)
    exact ⟨hfresh, hopened, fun hnil => absurd hnil hsome⟩

theorem Sound.close {l l' : Loading} {rest : Text} {name : RawName} (hl : l.Sound)
    (h : l.close rest name = .ok l') : l'.Sound := by
  unfold Loading.close at h
  split at h
  · cases h
  · split at h
    · cases h
    · split at h
      · cases h
      · cases h
        exact hl.pop

theorem Sound.step {l l' : Loading} {start : Nat} {rest : Text} {token : Token} (hl : l.Sound)
    (h : l.step start rest token = .ok l') : l'.Sound := by
  unfold Loading.step at h
  cases token with
  | start name attributes empty => exact hl.start h
  | close name =>
    simp only at h
    split at h
    · rename_i hclose
      cases h
      exact hl.close hclose
    · cases h
  | text content => exact hl.text (fun _ => rfl) h
  | cdata content => exact hl.text (fun _ => rfl) h
  | comment =>
    cases h
    exact hl
  | instruction target =>
    simp only at h
    split at h
    · cases h
    · cases h
      exact hl
  | declaration body =>
    simp only at h
    split at h
    · cases h
    · cases h
      exact hl

theorem Sound.run {fuel : Nat} {l l' : Loading} {source : Text} (hl : l.Sound)
    (h : Loading.run fuel l source = .ok l') : l'.Sound := by
  induction fuel generalizing l source with
  | zero =>
    cases h
    exact hl
  | succ fuel ih =>
    unfold Loading.run at h
    simp only at h
    split at h
    · split at h
      · cases h
        exact hl
      · cases h
    · split at h
      · cases h
      · split at h
        · cases h
        · rename_i hstep
          exact ih (hl.step hstep) h

end Loading

/-- A document that was loaded is fresh. -/
theorem Document.fresh_of_load {source url : Text} {d : Document}
    (h : Document.load source url = .ok d) : d.Fresh := by
  unfold Document.load at h
  simp only at h
  split at h
  · cases h
  · rename_i l hrun
    split at h
    · cases h
    · cases h
      refine (Loading.Sound.run ?_ hrun).fresh
      refine ⟨⟨fun n => ?_, fun n _ hlt => absurd hlt (Nat.not_lt_zero n), nofun⟩, ?_,
        fun _ => .inr rfl⟩
      · rfl
      · exact fun _ ho => absurd ho List.not_mem_nil

/-! ## Failing -/

/-- If there is no answer, there is one problem of the kind. -/
def FailsBy {α : Type} (kind : ErrorKind) (answer : Except Failure α) : Prop :=
  ∀ failure, answer = .error failure → ∃ d, failure = .one d ∧ d.kind = kind

namespace FailsBy

variable {α β : Type} {kind : ErrorKind}

theorem ok (a : α) : FailsBy kind (.ok a) := by
  intro _ h
  cases h

theorem problem {p : Problem} (h : p.kind = kind) (place : Option Location) :
    FailsBy (α := α) kind (.error (p.failure place)) := by
  rintro _ ⟨⟩
  exact ⟨_, rfl, h⟩

/-- What stops the first part of some work stops all of it. -/
theorem relay {failure : Failure} (h : FailsBy (α := α) kind (.error failure)) :
    FailsBy (α := β) kind (.error failure) := by
  rintro _ ⟨⟩
  exact h failure rfl

theorem bind {answer : Except Failure α} {k : α → Except Failure β} (h : FailsBy kind answer)
    (hk : ∀ a, FailsBy kind (k a)) : FailsBy kind (answer >>= k) := by
  cases answer with
  | error failure => exact h.relay
  | ok a => exact hk a

theorem mapM {f : α → Except Failure β} (h : ∀ a, FailsBy kind (f a)) (xs : List α) :
    FailsBy kind (xs.mapM f) := by
  induction xs with
  | nil => exact ok _
  | cons x xs ih =>
    rw [List.mapM_cons]
    exact (h x).bind fun _ => ih.bind fun _ => ok _

end FailsBy

namespace Loading

theorem failsBy_scanFailure {α : Type} (file : SourceFile) (start : Nat) (e : ScanError) :
    FailsBy (α := α) .structural (.error (scanFailure file start e)) := by
  unfold scanFailure
  dsimp only
  split
  · exact .problem rfl _
  · exact .problem rfl _

/-- A namespace without an abbreviation is a problem. -/
theorem failsBy_lead (lead : Option Text) (uri base : Text) (place : Location) :
    FailsBy .structural (match lead with
      | some lead => .ok ⟨uri, base, lead⟩
      | none => .error ((Problem.unboundPrefix uri).failure (some place)) :
        Except Failure Name) := by
  cases lead with
  | none => exact .problem rfl _
  | some lead => exact .ok _

theorem failsBy_start (l : Loading) (place : Location) (raw : RawName)
    (attributes : List (RawName × Text)) (empty : Bool) :
    FailsBy .structural (l.start place raw attributes empty) := by
  unfold Loading.start
  dsimp only
  split
  · exact .problem rfl _
  · refine (failsBy_lead _ _ _ _).bind fun name => ?_
    refine FailsBy.bind (.mapM (fun a => ?_) _) fun kept => .ok _
    exact (failsBy_lead _ _ _ _).bind fun name => .ok _

theorem failsBy_text (l : Loading) (place : Location) (body : Body) (ignorable : Bool) :
    FailsBy .structural (l.text place body ignorable) := by
  unfold Loading.text
  split
  · split
    · exact .ok _
    · exact .problem rfl _
  · exact .ok _

theorem failsBy_step (l : Loading) (start : Nat) (rest : Text) (token : Token) :
    FailsBy .structural (l.step start rest token) := by
  unfold Loading.step
  cases token with
  | start name attributes empty => exact failsBy_start _ _ _ _ _
  | close name =>
    dsimp only
    split
    · exact .ok _
    · exact failsBy_scanFailure _ _ _
  | text content => exact failsBy_text _ _ _ _
  | cdata content => exact failsBy_text _ _ _ _
  | comment => exact .ok _
  | instruction target =>
    dsimp only
    split
    · exact .problem rfl _
    · exact .ok _
  | declaration body =>
    dsimp only
    split
    · exact .problem rfl _
    · exact .ok _

theorem failsBy_run (fuel : Nat) (l : Loading) (source : Text) :
    FailsBy .structural (run fuel l source) := by
  induction fuel generalizing l source with
  | zero => exact .ok _
  | succ fuel ih =>
    unfold run
    dsimp only
    split
    · split
      · exact .ok _
      · exact failsBy_scanFailure _ _ _
    · split
      · exact failsBy_scanFailure _ _ _
      · rename_i token rest _
        have hstep := failsBy_step l (l.document.file.content.length - source.length) rest token
        split
        · rename_i hfailed
          rwa [hfailed] at hstep
        · exact ih _ _

end Loading

/-- A source that cannot be loaded has a problem of its structure. -/
theorem Document.failsBy_load (source url : Text) :
    FailsBy .structural (Document.load source url) := by
  unfold Document.load
  dsimp only
  have hrun := Loading.failsBy_run (source.length + 1) ⟨⟨⟨source, url⟩, #[]⟩, [], false⟩ source
  split
  · rename_i hfailed
    rw [hfailed] at hrun
    exact hrun.relay
  · split
    · exact .problem rfl _
    · exact .ok _

/-- A source that cannot be loaded has a problem that is told. -/
theorem Document.load_ne_crash (source url : Text) :
    Document.load source url ≠ .error .crash := by
  intro h
  obtain ⟨_, hone, -⟩ := Document.failsBy_load source url _ h
  cases hone

end ViewBinder.Markup
