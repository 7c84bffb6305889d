-- The tree of a document. Work on a document leaves the tree as it is and never crashes, and the
-- children it takes of an element are children of that element.
import ViewBinder.Proofs.Markup.Load
import ViewBinder.Proofs.Safe

namespace ViewBinder.Markup.Document

open Work (Safe)

/-- The nodes are the same, and none is new. -/
structure SameTree (d d' : Document) : Prop where
  shape : d.SameShape d'
  size : d'.nodes.size = d.nodes.size

variable {d d' d'' : Document}

theorem SameTree.refl (d : Document) : d.SameTree d := ⟨SameShape.refl d, rfl⟩

theorem SameTree.trans (h : d.SameTree d') (h' : d'.SameTree d'') : d.SameTree d'' :=
  ⟨h.shape.trans h'.shape, h'.size.trans h.size⟩

instance : Std.Refl SameTree := ⟨SameTree.refl⟩

instance : IsTrans Document SameTree := ⟨fun _ _ _ => SameTree.trans⟩

theorem sameTree_withAttributes (d : Document) (e : Nat) (f : List Attribute → List Attribute) :
    d.SameTree (d.change e (·.withAttributes f)) where
  shape := (takesBut_withAttributes d e f).shape
  size := Array.size_modify

theorem sameTree_useAttribute (d : Document) (e i : Nat) : d.SameTree (d.useAttribute e i) :=
  sameTree_withAttributes d e _

theorem sameTree_replaceAttribute (d : Document) (e i : Nat) (value : Text) :
    d.SameTree (d.replaceAttribute e i value) := sameTree_withAttributes d e _

theorem sameTree_setAttribute (d : Document) (e : Nat) (base value : Text) :
    d.SameTree (d.setAttribute e base value) := by
  unfold setAttribute
  split
  · exact sameTree_replaceAttribute d e _ value
  · exact sameTree_withAttributes d e _

theorem sameTree_useChild (d : Document) (child : Nat) : d.SameTree (d.useChild child) where
  shape := (takesBut_useChild (p := fun _ => True) fun _ => trivial).shape
  size := Array.size_modify

theorem sameTree_take? (d : Document) (e : Nat) (uri base : Text) :
    d.SameTree (d.take? e uri base).2 := by
  unfold take?
  split
  · exact sameTree_useAttribute d e _
  · exact SameTree.refl d

/-! ## Work on a document -/

variable {D : Document} {B : Document → Prop}

theorem safe_change {f : Document → Document} (h : ∀ d, SameTree d (f d)) :
    Safe D.SameTree B (modify f : Work Document Unit) :=
  Safe.modify fun d hd => hd.trans (h d)

/-- Work that looks at the document and then sets it to another one with the same tree. -/
theorem safe_set {f : Document → Document} {g : Document → α} (h : ∀ d, SameTree d (f d)) :
    Safe D.SameTree B (do
      let d ← get
      set (f d)
      return g d : Work Document α) :=
  Safe.of_ok fun d hd => ⟨g d, rfl, hd.trans (h d)⟩

instance (e : Nat) (uri base : Text) : Safe D.SameTree B (takeIn e uri base) :=
  Safe.modifyGet fun d hd => hd.trans (sameTree_take? d e uri base)

instance (e : Nat) (base : Text) : Safe D.SameTree B (takeRaw e base) := by
  unfold takeRaw
  infer_instance

instance (e : Nat) (base otherwise : Text) : Safe D.SameTree B (takeDefault e base otherwise) := by
  unfold takeDefault
  infer_instance

instance (e : Nat) (p : Document → Problem) : Safe D.SameTree B (failOn e p : Work Document α) := by
  unfold failOn
  infer_instance

instance (e : Nat) (base : Text) : Safe D.SameTree B (takeRequired e base) := by
  unfold takeRequired
  refine Safe.bind' inferInstance fun found => ?_
  split <;> infer_instance

instance (e : Nat) (base : Text) (otherwise : Bool) :
    Safe D.SameTree B (takeBoolean e base otherwise) := by
  unfold takeBoolean
  refine Safe.bind' inferInstance fun found => ?_
  split <;> infer_instance

instance (e : Nat) (base : Text) : Safe D.SameTree B (takeBinder e base) := by
  unfold takeBinder
  refine Safe.bind' inferInstance fun found => ?_
  split <;> infer_instance

instance (e : Nat) : Safe D.SameTree B (assertNoText e) := by
  unfold assertNoText
  refine Safe.bind' inferInstance fun d => ?_
  split <;> infer_instance

instance (e : Nat) : Safe D.SameTree B (assertNoAttributes e) := by
  unfold assertNoAttributes
  refine Safe.bind' inferInstance fun d => ?_
  split <;> infer_instance

instance (e : Nat) : Safe D.SameTree B (assertNoBody e) := by
  unfold assertNoBody
  refine Safe.bind' inferInstance fun d => ?_
  split <;> infer_instance

instance (e : Nat) (passes : Nat → Bool) : Safe D.SameTree B (takeChildrenWhere e passes) :=
  safe_set fun d => useChildren sameTree_useChild d _

instance (e : Nat) (base : Text) : Safe D.SameTree B (takeBinderChildren e base) := by
  unfold takeBinderChildren
  infer_instance

instance (e : Nat) : Safe D.SameTree B (takeImportedChildren e) := by
  unfold takeImportedChildren
  infer_instance

instance (e : Nat) : Safe D.SameTree B (takeChildren e) := by
  unfold takeChildren
  exact Safe.bind' inferInstance fun _ => safe_set fun d => useChildren sameTree_useChild d _

instance (e : Nat) : Safe D.SameTree B (takeSingleChild e) := by
  unfold takeSingleChild
  refine Safe.bind' inferInstance fun children => ?_
  split <;> infer_instance

instance (escape : Bool) (e : Nat) (slots : List Nat) :
    Safe D.SameTree B (takeSlots escape e slots) := by
  induction slots with
  | nil => exact Safe.pure []
  | cons slot rest ih =>
    unfold takeSlots
    refine Safe.bind' inferInstance fun d => ?_
    dsimp only
    split
    · infer_instance
    · exact Safe.bind' (safe_change fun d => sameTree_useChild d slot) fun _ => inferInstance
    · exact Safe.bind' (safe_change fun d => sameTree_useChild d slot) fun _ => inferInstance

instance (e : Nat) : Safe D.SameTree B (takePlainText e) := by
  unfold takePlainText
  infer_instance

/-! ## Children that are taken -/

/-- Children are children of the document as it was as well, so they stand behind their parents. -/
theorem SameTree.below (h : D.SameTree d) (hordered : D.Ordered) {e c : Nat}
    (hc : c ∈ (d.node e).children) : D.Below e c := hordered e c (h.shape.children e ▸ hc)

theorem mem_children_of_contents {e c : Nat} (h : c ∈ d.contents e) : c ∈ (d.node e).children :=
  (List.mem_filter.mp h).1

theorem mem_children_of_childElements {e c : Nat} (h : c ∈ d.childElements e) :
    c ∈ (d.node e).children := mem_children_of_contents (List.mem_filter.mp h).1

theorem children_of_takeChildrenWhere {e : Nat} {passes : Nat → Bool} {cs : List Nat}
    (h : (takeChildrenWhere e passes).runOn d = (.ok cs, d')) :
    ∀ c ∈ cs, c ∈ (d.node e).children := by
  rw [(takeChildrenWhere_ok h).1]
  exact fun c hc => mem_children_of_childElements (List.mem_filter.mp hc).1

theorem children_of_takeImportedChildren {e : Nat} {cs : List Nat}
    (h : (takeImportedChildren e).runOn d = (.ok cs, d')) : ∀ c ∈ cs, c ∈ (d.node e).children := by
  unfold takeImportedChildren at h
  obtain ⟨_, _, hget, h⟩ := Work.bind_ok h
  cases hget
  exact children_of_takeChildrenWhere h

theorem children_of_takeChildren {e : Nat} {cs : List Nat}
    (h : (takeChildren e).runOn d = (.ok cs, d')) : ∀ c ∈ cs, c ∈ (d.node e).children := by
  rw [(takeChildren_ok h).1]
  exact fun c hc => mem_children_of_childElements hc

theorem child_of_takeSingleChild {e c : Nat}
    (h : (takeSingleChild e).runOn d = (.ok c, d')) : c ∈ (d.node e).children := by
  unfold takeSingleChild at h
  obtain ⟨cs, d₁, htake, h⟩ := Work.bind_ok h
  split at h
  · cases h
    exact children_of_takeChildren htake c (List.mem_singleton_self c)
  · cases h

end ViewBinder.Markup.Document
