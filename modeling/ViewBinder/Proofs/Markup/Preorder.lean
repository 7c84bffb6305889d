-- The tree of a loaded document. Nodes are numbered as their tokens stand in the source, so a walk
-- that enters every element before what follows it meets the numbers in their order: the elements that
-- are open are the ones such a walk is in when it comes to the next node.
import Mathlib.Data.List.Nodup
import ViewBinder.Proofs.Markup.Load
import ViewBinder.Proofs.Markup.Tokens

namespace ViewBinder.Markup

/-! ## Walks -/

namespace Document

variable {d d' : Document}

/-- From some nodes to do, a walk visits nodes one by one, each before its children and these before
what follows, and leaves some to do. -/
inductive Walks (d : Document) : List Nat → List Nat → List Nat → Prop
  | stay (todo : List Nat) : Walks d todo [] todo
  | visit {n : Nat} {todo visited left : List Nat} :
    Walks d ((d.node n).children ++ todo) visited left → Walks d (n :: todo) (n :: visited) left

namespace Walks

variable {todo mid left visited later : List Nat}

theorem trans (h : d.Walks todo visited mid) (h' : d.Walks mid later left) :
    d.Walks todo (visited ++ later) left := by
  induction h with
  | stay => exact h'
  | visit _ ih => exact .visit (ih h')

/-- What stands behind the nodes to do stays behind them. -/
theorem before (h : d.Walks todo visited left) (behind : List Nat) :
    d.Walks (todo ++ behind) visited (left ++ behind) := by
  induction h with
  | stay => exact .stay _
  | visit _ ih =>
    rw [List.append_assoc] at ih
    exact .visit ih

/-- A walk depends on the children of the nodes it visits. -/
theorem congr (h : d.Walks todo visited left)
    (hsame : ∀ n ∈ visited, (d'.node n).children = (d.node n).children) :
    d'.Walks todo visited left := by
  induction h with
  | stay => exact .stay _
  | visit _ ih =>
    obtain ⟨hhere, hlater⟩ := List.forall_mem_cons.mp hsame
    refine .visit ?_
    rw [hhere]
    exact ih hlater

/-- There is one walk only, so one that goes on goes on from where a shorter one stops. -/
theorem rest (h : d.Walks todo visited mid) (h' : d.Walks todo (visited ++ later) left) :
    d.Walks mid later left := by
  induction h with
  | stay => exact h'
  | visit _ ih =>
    cases h' with
    | visit h' => exact ih h'

end Walks

/-! ## One node more -/

theorem parent_withChild (c : Nat) (x : Node) : (x.withChild c).parent = x.parent := by
  obtain ⟨body, _, _, _⟩ := x
  cases body <;> rfl

theorem children_withChild {c : Nat} {x : Node} (h : x.isElement = true) :
    (x.withChild c).children = x.children ++ [c] := by
  obtain ⟨body, _, _, _⟩ := x
  cases body with
  | element name attributes children => rfl
  | text content => cases h
  | cdata content => cases h

/-- The new node stands for itself, and is listed last by its parent. -/
theorem children_push {x : Node} (hx : x.children = [])
    (hparent : ∀ p ∈ x.parent, p < d.nodes.size ∧ (d.node p).isElement = true) (q : Nat) :
    ((d.push x).node q).children =
      (d.node q).children ++ if x.parent = some q then [d.nodes.size] else [] := by
  have hadded : (({ d with nodes := d.nodes.push x } : Document).node q).children =
      (d.node q).children := by
    rw [node_push]
    split
    · rename_i hlast
      have hout : d.node q = d.noNode := by
        unfold node
        rw [hlast, Array.getElem?_eq_none le_rfl]
        rfl
      rw [hx, hout]
      rfl
    · rfl
  unfold push
  cases hp : x.parent with
  | none => simpa using hadded
  | some p =>
    obtain ⟨hlt, helement⟩ := hparent p hp
    show ((change _ p _).node q).children = _
    rw [node_change]
    by_cases hsame : q = p
    · subst hsame
      have hkept : ({ d with nodes := d.nodes.push x } : Document).node q = d.node q := by
        rw [node_push, if_neg (Nat.ne_of_lt hlt)]
      rw [if_pos ⟨rfl, by simp; omega⟩, hkept, children_withChild helement, if_pos rfl]
    · rw [if_neg (fun h => hsame h.1.symm), hadded, if_neg (by simpa using Ne.symm hsame),
        List.append_nil]

/-! ## Documents in order -/

/-- Node 0 is the root. Every other node has a parent before it, which lists it once, and no other
node does. Children are listed in order, and a walk from the root meets all nodes in order. -/
structure InDocumentOrder (d : Document) : Prop where
  root : 0 < d.nodes.size ∧ (d.node 0).isElement = true ∧ (d.node 0).parent = none
  parent : ∀ n, 0 < n → n < d.nodes.size → ∃ p < n, (d.node n).parent = some p
  listed : ∀ q n, (d.node q).children.count n = if (d.node n).parent = some q then 1 else 0
  sorted : ∀ q, (d.node q).children.Pairwise (· < ·)
  walk : d.Walks [0] (List.range d.nodes.size) []

end Document

/-- What a node holds, but for what the tag of an element writes. -/
inductive Piece where
  | element
  | text (content : Text)
  | cdata (content : Text)
  deriving DecidableEq, Repr

/-- What the node holds. -/
def Node.piece (n : Node) : Piece :=
  match n.body with
  | .element _ _ _ => .element
  | .text content => .text content
  | .cdata content => .cdata content

/-- What the nodes of a document hold and their parents, in order. -/
def Document.outline (d : Document) : List (Piece × Option Nat) :=
  (List.range d.nodes.size).map fun n => ((d.node n).piece, (d.node n).parent)

/-- What tokens add to a document: an opening tag adds an element, and text inside an element adds
itself. `opened` are the elements that are open, innermost first, and `next` is the number of the
next node. -/
def outlineOf (opened : List Nat) (next : Nat) : List Token → List (Piece × Option Nat)
  | [] => []
  | .start _ _ empty :: rest =>
    (.element, opened.head?) ::
      outlineOf (if empty then opened else next :: opened) (next + 1) rest
  | .close _ :: rest => outlineOf (opened.drop 1) next rest
  | .text content :: rest =>
    if opened = [] then outlineOf opened next rest
    else (.text content, opened.head?) :: outlineOf opened (next + 1) rest
  | .cdata content :: rest =>
    if opened = [] then outlineOf opened next rest
    else (.cdata content, opened.head?) :: outlineOf opened (next + 1) rest
  | .comment :: rest => outlineOf opened next rest
  | .instruction _ :: rest => outlineOf opened next rest
  | .declaration _ :: rest => outlineOf opened next rest

theorem piece_withChild (c : Nat) (x : Node) : (x.withChild c).piece = x.piece := by
  obtain ⟨body, _, _, _⟩ := x
  cases body <;> rfl

theorem Document.outline_push (d : Document) (x : Node) :
    (d.push x).outline = d.outline ++ [(x.piece, x.parent)] := by
  have hnode (n : Nat) := d.node_push_apply x n (fun y => (y.piece, y.parent)) fun c y => by
    rw [piece_withChild, parent_withChild]
  unfold outline
  rw [size_push, List.range_succ, List.map_append]
  congr 1
  · refine List.map_congr_left fun n hn => ?_
    rw [hnode, if_neg (Nat.ne_of_lt (List.mem_range.mp hn))]
  · rw [List.map_singleton, hnode, if_pos rfl]

/-! ## Loading -/

namespace Loading

/-- Loading with an element more, which is open. -/
def entered (l : Loading) (top : OpenElement) (name : Name) (attributes : List Attribute)
    (place : Location) : Loading :=
  { l with
    document := l.document.push ⟨.element name attributes [], l.parent, place, false⟩
    opened := top :: l.opened }

/-- Loading with a node more that is no element. -/
def added (l : Loading) (body : Body) (place : Location) : Loading :=
  { l with document := l.document.push ⟨body, l.parent, place, false⟩ }

/-- What a token does to loading: an opening tag adds an element that is open from then on unless the
tag closes it as well, a closing tag closes one, text inside an element is added, and nothing else
counts. -/
inductive Steps (l : Loading) : Token → Loading → Prop
  | enter (raw : RawName) (written : List (RawName × Text)) (empty : Bool) (top : OpenElement)
      (name : Name) (attributes : List Attribute) (place : Location) :
    l.closed = false → top.id = l.document.nodes.size →
    Steps l (.start raw written empty) (if empty then (l.entered top name attributes place).pop
      else l.entered top name attributes place)
  | leave (name : RawName) : Steps l (.close name) l.pop
  | text (content : Text) (place : Location) : l.opened ≠ [] →
    Steps l (.text content) (l.added (.text content) place)
  | cdata (content : Text) (place : Location) : l.opened ≠ [] →
    Steps l (.cdata content) (l.added (.cdata content) place)
  | outside (content : Text) : l.opened = [] → Steps l (.text content) l
  | comment : Steps l .comment l
  | instruction (target : Text) : Steps l (.instruction target) l
  | declaration (body : Text) : Steps l (.declaration body) l

variable {l l' : Loading} {token : Token}

theorem parent_eq_none_iff : l.parent = none ↔ l.opened = [] := by
  unfold parent
  cases l.opened <;> simp

theorem opened_ne_nil {p : Nat} (h : l.parent = some p) : l.opened ≠ [] := by
  intro hnil
  rw [parent_eq_none_iff.mpr hnil] at h
  cases h

theorem steps_of_start {place : Location} {raw : RawName} {attributes : List (RawName × Text)}
    {empty : Bool} (h : l.start place raw attributes empty = .ok l') :
    l.Steps (.start raw attributes empty) l' := by
  unfold Loading.start at h
  simp only at h
  split at h
  · cases h
  · rename_i hopen
    obtain ⟨name, -, h⟩ := answer_bind h
    obtain ⟨kept, -, h⟩ := answer_bind h
    cases h
    exact .enter _ _ _ _ _ _ _ (by simpa using hopen) rfl

theorem steps_of_close {rest : Text} {name : RawName} (h : l.close rest name = .ok l') :
    l.Steps (.close name) l' := by
  unfold Loading.close at h
  split at h
  · cases h
  · split at h
    · cases h
    · split at h
      · cases h
      · cases h
        exact .leave name

theorem steps_of_step {start : Nat} {rest : Text} (h : l.step start rest token = .ok l') :
    l.Steps token l' := by
  unfold Loading.step at h
  cases token with
  | start name attributes empty => exact steps_of_start h
  | close name =>
    simp only at h
    split at h
    · rename_i hclose
      cases h
      exact steps_of_close hclose
    · cases h
  | text content =>
    simp only [Loading.text] at h
    split at h
    · rename_i hnone
      split at h
      · cases h
        exact .outside content (parent_eq_none_iff.mp hnone)
      · cases h
    · rename_i p hparent
      cases h
      rw [← hparent]
      exact .text content _ (opened_ne_nil hparent)
  | cdata content =>
    simp only [Loading.text] at h
    split at h
    · cases h
    · rename_i p hparent
      cases h
      rw [← hparent]
      exact .cdata content _ (opened_ne_nil hparent)
  | comment =>
    cases h
    exact .comment
  | instruction target =>
    simp only at h
    split at h
    · cases h
    · cases h
      exact .instruction target
  | declaration body =>
    simp only at h
    split at h
    · cases h
    · cases h
      exact .declaration body

/-- The document is in order as far as it goes. A walk from the root comes to every element that is
open when it has met the nodes before it and has nothing else to do, so what is added to the
innermost one is met last. -/
structure InOrder (l : Loading) : Prop where
  sound : l.Sound
  root : (l.document.node 0).parent = none ∧
    (0 < l.document.nodes.size → (l.document.node 0).isElement = true)
  parent : ∀ q, ∀ c ∈ (l.document.node q).children, (l.document.node c).parent = some q
  sorted : ∀ q, (l.document.node q).children.Pairwise (· < ·)
  nested : (l.opened.map (·.id)).Pairwise (· > ·)
  reached : ∀ o ∈ l.opened, l.document.Walks [0] (List.range o.id) [o.id]
  walk : 0 < l.document.nodes.size → l.document.Walks [0] (List.range l.document.nodes.size) []

theorem InOrder.pop (h : l.InOrder) : l.pop.InOrder where
  sound := h.sound.pop
  root := h.root
  parent := h.parent
  sorted := h.sorted
  nested := h.nested.sublist ((List.drop_sublist 1 l.opened).map _)
  reached o ho := h.reached o (List.mem_of_mem_drop ho)
  walk := h.walk

section Push

variable {x : Node}

/-- Only the innermost element that is open gets another child. -/
theorem InOrder.children_push (h : l.InOrder) (hx : x.children = []) (hparent : x.parent = l.parent)
    (q : Nat) : ((l.document.push x).node q).children = (l.document.node q).children ++
      if l.parent = some q then [l.document.nodes.size] else [] := by
  rw [← hparent]
  refine Document.children_push hx (fun p hp => ?_) q
  rw [hparent] at hp
  obtain ⟨o, ho, rfl⟩ := Option.map_eq_some_iff.mp hp
  exact h.sound.opened o (List.mem_of_mem_head? ho)

theorem InOrder.parent_push (h : l.InOrder) (hx : x.children = []) (hparent : x.parent = l.parent)
    (q : Nat) : ∀ c ∈ ((l.document.push x).node q).children,
      ((l.document.push x).node c).parent = some q := by
  intro c hc
  rw [Document.node_push_apply _ _ _ Node.parent Document.parent_withChild]
  rw [h.children_push hx hparent, List.mem_append] at hc
  rcases hc with hold | hnew
  · rw [if_neg (Nat.ne_of_lt (h.sound.fresh.ordered q c hold).2)]
    exact h.parent q c hold
  · split at hnew
    · rename_i hq
      rw [List.mem_singleton.mp hnew, if_pos rfl, hparent, hq]
    · cases hnew

theorem InOrder.sorted_push (h : l.InOrder) (hx : x.children = []) (hparent : x.parent = l.parent)
    (q : Nat) : ((l.document.push x).node q).children.Pairwise (· < ·) := by
  rw [h.children_push hx hparent]
  refine List.pairwise_append.mpr ⟨h.sorted q, ?_, fun c hc n hn => ?_⟩
  · split
    · exact List.pairwise_singleton _ _
    · exact List.Pairwise.nil
  · split at hn
    · rw [List.mem_singleton.mp hn]
      exact (h.sound.fresh.ordered q c hc).2
    · cases hn

/-- A walk that has not met the innermost open element yet does not change. -/
theorem InOrder.walks_push (h : l.InOrder) (hx : x.children = []) (hparent : x.parent = l.parent)
    {visited todo left : List Nat} (hvisited : ∀ n ∈ visited, l.parent ≠ some n)
    (hwalk : l.document.Walks todo visited left) :
    (l.document.push x).Walks todo visited left := by
  refine hwalk.congr fun n hn => ?_
  rw [h.children_push hx hparent, if_neg (hvisited n hn), List.append_nil]

theorem InOrder.reached_push (h : l.InOrder) (hx : x.children = []) (hparent : x.parent = l.parent)
    {o : OpenElement} (ho : o ∈ l.opened) :
    (l.document.push x).Walks [0] (List.range o.id) [o.id] := by
  refine h.walks_push hx hparent (fun n hn hinner => ?_) (h.reached o ho)
  obtain ⟨top, htop, rfl⟩ := Option.map_eq_some_iff.mp hinner
  obtain ⟨outer, hopened⟩ := List.head?_eq_some_iff.mp htop
  have hle : o.id ≤ top.id := by
    have hnested := h.nested
    rw [hopened] at hnested ho
    rcases List.mem_cons.mp ho with rfl | houter
    · exact le_rfl
    · exact Nat.le_of_lt ((List.pairwise_cons.mp hnested).1 _ (List.mem_map_of_mem houter))
  have hlt := List.mem_range.mp hn
  omega

/-- A walk comes to the new node last: from the innermost open element on, it meets what stands in it
and then the new node. -/
theorem InOrder.walk_push (h : l.InOrder) (hx : x.children = []) (hparent : x.parent = l.parent)
    (hroot : l.document.nodes.size = 0 ∨ l.opened ≠ []) :
    (l.document.push x).Walks [0] (List.range l.document.nodes.size) [l.document.nodes.size] := by
  cases hopened : l.opened with
  | nil =>
    have hempty := hroot.resolve_right fun hsome => hsome hopened
    rw [hempty]
    exact .stay _
  | cons top outer =>
    have hmem : top ∈ l.opened := hopened ▸ List.mem_cons_self
    have htop : l.parent = some top.id := by
      unfold Loading.parent
      rw [hopened]
      rfl
    obtain ⟨hlt, -⟩ := h.sound.opened top hmem
    obtain ⟨k, hk⟩ := Nat.exists_eq_add_of_lt hlt
    have hsplit : List.range l.document.nodes.size =
        List.range top.id ++ top.id :: List.range' (top.id + 1) k := by
      rw [hk, List.range_eq_range', List.range_eq_range', Nat.add_assoc,
        ← List.range'_append_1, Nat.zero_add, List.range'_succ]
    have hwalk := h.walk (by omega)
    rw [hsplit] at hwalk ⊢
    refine (h.reached_push hx hparent hmem).trans (.visit ?_)
    cases (h.reached top hmem).rest hwalk with
    | visit hinside =>
      rw [h.children_push hx hparent, if_pos htop, List.append_assoc]
      rw [List.append_nil] at hinside
      refine (h.walks_push hx hparent (fun n hn hn' => ?_) hinside).before _
      rw [htop, Option.some.injEq] at hn'
      have hge := (List.mem_range'_1.mp hn).1
      omega

theorem InOrder.children_self (h : l.InOrder) (hx : x.children = []) (hparent : x.parent = l.parent) :
    ((l.document.push x).node l.document.nodes.size).children = [] := by
  rw [h.children_push hx hparent, if_neg, List.append_nil]
  · unfold Document.node
    rw [Array.getElem?_eq_none le_rfl]
    rfl
  · intro htop
    obtain ⟨top, htop, hid⟩ := Option.map_eq_some_iff.mp htop
    have hlt := (h.sound.opened top (List.mem_of_mem_head? htop)).1
    omega

theorem InOrder.walk_all (h : l.InOrder) (hx : x.children = []) (hparent : x.parent = l.parent)
    (hroot : l.document.nodes.size = 0 ∨ l.opened ≠ []) :
    (l.document.push x).Walks [0] (List.range (l.document.push x).nodes.size) [] := by
  rw [Document.size_push, List.range_succ]
  refine (h.walk_push hx hparent hroot).trans (.visit ?_)
  rw [h.children_self hx hparent]
  exact .stay _

theorem InOrder.root_push (h : l.InOrder) (hparent : x.parent = l.parent)
    (hroot : l.opened = [] → l.document.nodes.size = 0 ∧ x.isElement = true)
    (hsome : l.opened ≠ [] → 0 < l.document.nodes.size) :
    ((l.document.push x).node 0).parent = none ∧
      (0 < (l.document.push x).nodes.size → ((l.document.push x).node 0).isElement = true) := by
  rw [Document.node_push_apply _ _ _ Node.parent Document.parent_withChild,
    Document.node_push_apply _ _ _ Node.isElement Document.isElement_withChild]
  by_cases hnil : l.opened = []
  · obtain ⟨hempty, helement⟩ := hroot hnil
    rw [hempty, if_pos rfl, if_pos rfl, hparent]
    exact ⟨parent_eq_none_iff.mpr hnil, fun _ => helement⟩
  · have hpos := hsome hnil
    rw [if_neg (Nat.ne_of_lt hpos), if_neg (Nat.ne_of_lt hpos)]
    exact ⟨h.root.1, fun _ => h.root.2 hpos⟩

end Push

theorem InOrder.size_pos (h : l.InOrder) (hopened : l.opened ≠ []) : 0 < l.document.nodes.size := by
  obtain ⟨o, ho⟩ := List.exists_mem_of_ne_nil _ hopened
  exact Nat.zero_lt_of_lt (h.sound.opened o ho).1

theorem InOrder.entered (h : l.InOrder) (hopen : l.closed = false) {top : OpenElement}
    (htop : top.id = l.document.nodes.size) (name : Name) (attributes : List Attribute)
    (place : Location) : (l.entered top name attributes place).InOrder := by
  have hempty : l.opened = [] → l.document.nodes.size = 0 := by
    intro hnil
    refine (h.sound.root hnil).resolve_left fun hclosed => ?_
    rw [hopen] at hclosed
    cases hclosed
  have hroot : l.document.nodes.size = 0 ∨ l.opened ≠ [] := by
    by_cases hnil : l.opened = []
    · exact .inl (hempty hnil)
    · exact .inr hnil
  exact {
    sound := h.sound.enter hopen name attributes place htop
    root := h.root_push rfl (fun hnil => ⟨hempty hnil, rfl⟩) h.size_pos
    parent := h.parent_push rfl rfl
    sorted := h.sorted_push rfl rfl
    nested := by
      refine List.pairwise_cons.mpr ⟨fun n hn => ?_, h.nested⟩
      obtain ⟨o, ho, rfl⟩ := List.mem_map.mp hn
      show o.id < top.id
      rw [htop]
      exact (h.sound.opened o ho).1
    reached := by
      refine List.forall_mem_cons.mpr ⟨?_, fun o ho => h.reached_push rfl rfl ho⟩
      rw [htop]
      exact h.walk_push rfl rfl hroot
    walk := fun _ => h.walk_all rfl rfl hroot }

theorem InOrder.added (h : l.InOrder) (hopened : l.opened ≠ []) {body : Body} (place : Location)
    (hbody : (Node.mk body l.parent place false).children = []) : (l.added body place).InOrder where
  sound := by
    obtain ⟨hfresh, hstill⟩ := h.sound.push (x := ⟨body, l.parent, place, false⟩) rfl hbody rfl
      (.inr hopened)
    exact ⟨hfresh, hstill, fun hnil => absurd hnil hopened⟩
  root := h.root_push rfl (fun hnil => absurd hnil hopened) h.size_pos
  parent := h.parent_push hbody rfl
  sorted := h.sorted_push hbody rfl
  nested := h.nested
  reached _ ho := h.reached_push hbody rfl ho
  walk _ := h.walk_all hbody rfl (.inr hopened)

/-- A token keeps the order, and adds to the outline what it stands for. -/
theorem InOrder.step (h : l.InOrder) (hstep : l.Steps token l') :
    l'.InOrder ∧ ∀ rest,
      l.document.outline ++
          outlineOf (l.opened.map (·.id)) l.document.nodes.size (token :: rest) =
        l'.document.outline ++ outlineOf (l'.opened.map (·.id)) l'.document.nodes.size rest := by
  cases hstep with
  | enter raw written empty top name attributes place hopen htop =>
    have hentered := h.entered hopen htop name attributes place
    cases empty with
    | true =>
      refine ⟨hentered.pop, fun rest => ?_⟩
      simp [outlineOf, Loading.entered, Loading.pop, Loading.parent, Document.outline_push,
        Document.size_push, Node.piece]
    | false =>
      refine ⟨hentered, fun rest => ?_⟩
      simp [outlineOf, Loading.entered, Loading.parent, Document.outline_push,
        Document.size_push, Node.piece, htop]
  | leave name =>
    refine ⟨h.pop, fun rest => ?_⟩
    simp [outlineOf, Loading.pop]
  | text content place hopened =>
    refine ⟨h.added hopened place rfl, fun rest => ?_⟩
    simp [outlineOf, Loading.added, Loading.parent, Document.outline_push, Document.size_push,
      Node.piece, hopened]
  | cdata content place hopened =>
    refine ⟨h.added hopened place rfl, fun rest => ?_⟩
    simp [outlineOf, Loading.added, Loading.parent, Document.outline_push, Document.size_push,
      Node.piece, hopened]
  | outside content hnil =>
    refine ⟨h, fun rest => ?_⟩
    simp [outlineOf, hnil]
  | comment => exact ⟨h, fun rest => rfl⟩
  | instruction target => exact ⟨h, fun rest => rfl⟩
  | declaration body => exact ⟨h, fun rest => rfl⟩

theorem InOrder.run (h : l.InOrder) {fuel : Nat} {source : Text} (hfuel : source.length < fuel)
    (hrun : Loading.run fuel l source = .ok l') :
    l'.InOrder ∧ l'.document.outline = l.document.outline ++
      outlineOf (l.opened.map (·.id)) l.document.nodes.size (tokens source) := by
  induction fuel generalizing l source with
  | zero => omega
  | succ fuel ih =>
    unfold Loading.run at hrun
    simp only at hrun
    split at hrun
    · split at hrun
      · cases hrun
        exact ⟨h, by simp [outlineOf]⟩
      · cases hrun
    · split at hrun
      · cases hrun
      · rename_i token rest hscan
        have hless := length_of_scan hscan
        split at hrun
        · cases hrun
        · rename_i next hstep
          obtain ⟨hnext, houtline⟩ := h.step (steps_of_step hstep)
          obtain ⟨hend, hall⟩ := ih hnext (by omega) hrun
          rw [tokens_of_scan hscan, houtline]
          exact ⟨hend, hall⟩

end Loading

namespace Document

variable {source url : Text} {d : Document}

/-- What loading makes is in order, and has the outline that its source says. -/
theorem inOrder_of_load (h : load source url = .ok d) :
    (∃ l : Loading, l.InOrder ∧ l.document = d) ∧ 0 < d.nodes.size ∧
      d.outline = outlineOf [] 0 (tokens source) := by
  unfold load at h
  simp only at h
  split at h
  · cases h
  · rename_i l hrun
    split at h
    · cases h
    · rename_i hsome
      cases h
      have hstart : Loading.InOrder ⟨⟨⟨source, url⟩, #[]⟩, [], false⟩ := {
        sound := ⟨⟨fun _ => rfl, fun n _ hlt => absurd hlt (Nat.not_lt_zero n), nofun⟩, nofun,
          fun _ => .inr rfl⟩
        root := ⟨rfl, nofun⟩
        parent := nofun
        sorted := fun _ => List.Pairwise.nil
        nested := List.Pairwise.nil
        reached := nofun
        walk := nofun }
      obtain ⟨hend, houtline⟩ := hstart.run (Nat.lt_succ_self _) hrun
      refine ⟨⟨l, hend, rfl⟩, ?_, houtline⟩
      rw [Array.isEmpty_iff_size_eq_zero] at hsome
      exact Nat.pos_of_ne_zero hsome

/-- A loaded document is a tree in the order of its source. -/
theorem inDocumentOrder_of_load (h : load source url = .ok d) : d.InDocumentOrder := by
  obtain ⟨⟨l, hl, rfl⟩, hpos, -⟩ := inOrder_of_load h
  have hparent : ∀ n, 0 < n → n < l.document.nodes.size →
      ∃ p < n, (l.document.node n).parent = some p ∧ n ∈ (l.document.node p).children := by
    intro n hn hlt
    obtain ⟨p, hp, hmem⟩ := hl.sound.fresh.listed n hn hlt
    exact ⟨p, hp, hl.parent p n hmem, hmem⟩
  refine ⟨⟨hpos, hl.root.2 hpos, hl.root.1⟩, fun n hn hlt => ?_, fun q n => ?_, hl.sorted,
    hl.walk hpos⟩
  · obtain ⟨p, hp, hfound, -⟩ := hparent n hn hlt
    exact ⟨p, hp, hfound⟩
  · split
    · rename_i hq
      have hn : 0 < n := by
        refine Nat.pos_of_ne_zero ?_
        rintro rfl
        rw [hl.root.1] at hq
        cases hq
      have hlt : n < l.document.nodes.size := by
        by_contra hout
        unfold node at hq
        rw [Array.getElem?_eq_none (Nat.not_lt.mp hout)] at hq
        cases hq
      obtain ⟨p, -, hfound, hmem⟩ := hparent n hn hlt
      rw [hq, Option.some.injEq] at hfound
      subst hfound
      have hnodup : (l.document.node q).children.Nodup :=
        (hl.sorted q).imp fun hab => Nat.ne_of_lt hab
      exact List.count_eq_one_of_mem hnodup hmem
    · rename_i hq
      exact List.count_eq_zero_of_not_mem fun hmem => hq (hl.parent q n hmem)

/-- A loaded document is a tree in the order of its source: its nodes are the opening tags and the
texts inside the root, each in the innermost element that is open there. Comments, the declaration of
the document and its type add none. -/
theorem loaded_documents_are_in_document_order (h : load source url = .ok d) :
    d.InDocumentOrder ∧ d.outline = outlineOf [] 0 (tokens source) :=
  ⟨inDocumentOrder_of_load h, (inOrder_of_load h).2.2⟩

/-- Elements and texts among what adds no node. -/
def minglingMarkup : Text :=
  "<?xml version=\"1.0\"?><!DOCTYPE r><r>a<!-- b -->c<d><e/></d><![CDATA[f]]></r> <!-- g -->"

theorem minglingMarkup_is_in_document_order : ∃ d,
    load minglingMarkup "View.ui.xml" = .ok d ∧ d.InDocumentOrder ∧
      outlineOf [] 0 (tokens minglingMarkup) =
        [(.element, none), (.text "a", some 0), (.text "c", some 0), (.element, some 0),
          (.element, some 3), (.cdata "f", some 0)] := by
  obtain ⟨d, hd, houtline⟩ := Option.map_eq_some_iff.mp
    (show (load minglingMarkup "View.ui.xml").toOption.map outline = some
      [(.element, none), (.text "a", some 0), (.text "c", some 0), (.element, some 0),
        (.element, some 3), (.cdata "f", some 0)] by decide)
  obtain ⟨horder, htokens⟩ := loaded_documents_are_in_document_order (ok_of_toOption hd)
  exact ⟨d, ok_of_toOption hd, horder, htokens.symm.trans houtline⟩

end Document

end ViewBinder.Markup
