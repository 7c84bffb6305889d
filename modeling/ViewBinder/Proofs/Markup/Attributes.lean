-- What changing a document leaves alone: using or rewriting an attribute of an element keeps every
-- name, the attributes of all other elements, and the place of each attribute among its own.
import Mathlib.Data.List.Basic
import ViewBinder.Proofs.Work
import ViewBinder.Template.Namespace

namespace ViewBinder.Markup

namespace Document

open Work (Leads)

/-! ## One node -/

theorem node_change (d : Document) (id n : Nat) (f : Node → Node) :
    (d.change id f).node n = if id = n ∧ n < d.nodes.size then f (d.node n) else d.node n := by
  unfold node change
  simp only [Array.getElem?_modify]
  by_cases hid : id = n
  · subst hid
    by_cases hlt : id < d.nodes.size
    · simp [hlt]
    · simp only [hlt, and_false, if_false, if_true]
      rw [Array.getElem?_eq_none (Nat.not_lt.mp hlt)]
      rfl
  · simp only [hid, false_and, if_false]
    rfl

theorem node_change_ne {d : Document} {id n : Nat} {f : Node → Node} (h : id ≠ n) :
    (d.change id f).node n = d.node n := by
  rw [node_change, if_neg fun hand => h hand.1]

/-- What a change of a node does not touch stays. -/
theorem node_change_apply {α : Type} (d : Document) (id n : Nat) (f : Node → Node)
    (p : Node → α) (h : ∀ x, p (f x) = p x) : p ((d.change id f).node n) = p (d.node n) := by
  rw [node_change]
  split
  · exact h _
  · rfl

theorem name_withAttributes (f : List Attribute → List Attribute) (n : Node) :
    (n.withAttributes f).name = n.name := by
  obtain ⟨body, _, _, _⟩ := n
  cases body <;> rfl

theorem attributes_withAttributes {f : List Attribute → List Attribute} (hf : f [] = [])
    (n : Node) : (n.withAttributes f).attributes = f n.attributes := by
  obtain ⟨body, _, _, _⟩ := n
  cases body with
  | element name attributes children => rfl
  | text content => exact hf.symm
  | cdata content => exact hf.symm

/-! ## One attribute -/

theorem zipIdx_modify (attributes : List Attribute) (i : Nat) (f : Attribute → Attribute) :
    (attributes.modify i f).zipIdx =
      attributes.zipIdx.map fun a => (if a.2 = i then f a.1 else a.1, a.2) := by
  apply List.ext_getElem?
  intro k
  simp only [List.getElem?_zipIdx, List.getElem?_modify, List.getElem?_map, Option.map_map]
  cases attributes[k]? with
  | none => rfl
  | some a =>
    simp only [Option.map_some, Function.comp_apply, Nat.zero_add, eq_comm (a := i)]
    rfl

theorem attributes_changeAttribute (d : Document) (e i : Nat) (f : Attribute → Attribute) :
    ((d.changeAttribute e i f).node e).attributes = (d.node e).attributes.modify i f := by
  unfold changeAttribute
  rw [node_change]
  split
  · exact attributes_withAttributes (List.modify_nil f i) _
  · rename_i hout
    have hnone : (d.node e).attributes = [] := by
      have hlt : ¬e < d.nodes.size := fun hlt => hout ⟨rfl, hlt⟩
      unfold node
      rw [Array.getElem?_eq_none (Nat.not_lt.mp hlt)]
      rfl
    rw [hnone, List.modify_nil]

/-- An attribute that is rewritten keeps its place among those that are left. -/
theorem remaining_replaceAttribute (d : Document) (e i : Nat) (value : Text) :
    (d.replaceAttribute e i value).remaining e =
      (d.remaining e).map fun a => (a.1, if a.1 = i then { a.2 with value } else a.2) := by
  unfold remaining replaceAttribute
  rw [attributes_changeAttribute, zipIdx_modify, List.filter_map, List.map_map, List.map_map]
  congr 1
  refine List.filter_congr fun a _ => ?_
  simp only [Function.comp_apply]
  split <;> rfl

theorem find?_replaceAttribute (d : Document) (e i : Nat) (value uri base : Text) :
    (d.replaceAttribute e i value).find? e uri base =
      (d.find? e uri base).map fun a => (a.1, if a.1 = i then { a.2 with value } else a.2) := by
  unfold find?
  rw [remaining_replaceAttribute, List.find?_map]
  congr 2
  funext a
  simp only [Function.comp_apply]
  split <;> rfl

/-- Attributes that are left have different places. -/
theorem remaining_inj {d : Document} {e i : Nat} {a b : Attribute}
    (ha : (i, a) ∈ d.remaining e) (hb : (i, b) ∈ d.remaining e) : a = b := by
  have hplace : ∀ {a : Attribute}, (i, a) ∈ d.remaining e → (d.node e).attributes[i]? = some a := by
    intro a ha
    obtain ⟨⟨a', i'⟩, hmem, heq⟩ := List.mem_map.mp ha
    cases heq
    exact List.mem_zipIdx_iff_getElem?.mp (List.mem_of_mem_filter hmem)
  exact Option.some.inj ((hplace ha).symm.trans (hplace hb))

theorem mem_remaining_of_find? {d : Document} {e : Nat} {uri base : Text} {a : Nat × Attribute}
    (h : d.find? e uri base = some a) :
    a ∈ d.remaining e ∧ a.2.name.uri = uri ∧ a.2.name.base = base := by
  have hnamed := List.find?_some h
  simp only [Bool.and_eq_true, beq_iff_eq] at hnamed
  exact ⟨List.mem_of_find?_eq_some h, hnamed⟩

theorem mem_remaining {d : Document} {e : Nat} {x : Nat × Attribute} (h : x ∈ d.remaining e) :
    x.2 ∈ (d.node e).attributes ∧ x.2.consumed = false := by
  obtain ⟨⟨a, i⟩, hmem, rfl⟩ := List.mem_map.mp h
  obtain ⟨hplace, hleft⟩ := List.mem_filter.mp hmem
  exact ⟨List.fst_mem_of_mem_zipIdx hplace, by simpa using hleft⟩

/-- An attribute without a namespace does not change when one of another name is set. -/
theorem find?_setAttribute_ne {d : Document} {e : Nat} {base other : Text} (h : other ≠ base)
    (value : Text) : (d.setAttribute e other value).find? e [] base = d.find? e [] base := by
  unfold setAttribute
  split
  · rename_i i a hother
    rw [find?_replaceAttribute]
    cases hfound : d.find? e [] base with
    | none => rfl
    | some found =>
      -- a place has one name
      obtain ⟨j, b⟩ := found
      obtain ⟨hmem, -, hname⟩ := mem_remaining_of_find? hother
      obtain ⟨hmem', -, hname'⟩ := mem_remaining_of_find? hfound
      have hne : j ≠ i := by
        rintro rfl
        rw [remaining_inj hmem hmem'] at hname
        exact h (hname.symm.trans hname')
      simp [hne]
  · unfold find? remaining
    rw [node_change]
    split
    · have happend : ∀ a : Attribute, ((d.node e).withAttributes (· ++ [a])).attributes =
          (d.node e).attributes ∨
          ((d.node e).withAttributes (· ++ [a])).attributes = (d.node e).attributes ++ [a] := by
        intro a
        generalize d.node e = n
        obtain ⟨body, _, _, _⟩ := n
        cases body with
        | element name attributes children => exact Or.inr rfl
        | text content => exact Or.inl rfl
        | cdata content => exact Or.inl rfl
      rcases happend ⟨⟨[], other, []⟩, value, d.location e, false⟩ with hsame | hnew
      · rw [hsame]
      · rw [hnew, List.zipIdx_append, List.filter_append, List.map_append, List.find?_append]
        simp [h]
    · rfl

theorem isElement_of_mem {n : Node} {a : Attribute} (h : a ∈ n.attributes) : n.isElement = true := by
  obtain ⟨body, _, _, _⟩ := n
  cases body with
  | element name attributes children => rfl
  | text content => cases h
  | cdata content => cases h

theorem lt_of_isElement {d : Document} {e : Nat} (h : (d.node e).isElement = true) :
    e < d.nodes.size := by
  by_contra hout
  unfold node at h
  rw [Array.getElem?_eq_none (Nat.not_lt.mp hout)] at h
  cases h

/-- An attribute that an element gets stands behind those it has. -/
theorem remaining_setAttribute {d : Document} {e : Nat} {base : Text}
    (helement : (d.node e).isElement = true) (hfree : d.has e base = false) (value : Text) :
    ∃ i, (d.setAttribute e base value).remaining e =
      d.remaining e ++ [(i, ⟨⟨[], base, []⟩, value, d.location e, false⟩)] := by
  have hnew : ∀ n : Node, n.isElement = true → ∀ a : Attribute,
      (n.withAttributes (· ++ [a])).attributes = n.attributes ++ [a] := by
    intro n hn a
    obtain ⟨body, _, _, _⟩ := n
    cases body with
    | element name attributes children => rfl
    | text content => cases hn
    | cdata content => cases hn
  have hnone : d.find? e [] base = none := by
    unfold has at hfree
    simpa using hfree
  refine ⟨(d.node e).attributes.length, ?_⟩
  unfold setAttribute
  rw [hnone]
  unfold remaining
  rw [node_change, if_pos ⟨rfl, lt_of_isElement helement⟩, hnew _ helement, List.zipIdx_append,
    List.filter_append, List.map_append]
  simp

/-! ## Frames -/

theorem find?_change_ne {d : Document} {id e : Nat} {f : Node → Node} (h : id ≠ e)
    (uri base : Text) : (d.change id f).find? e uri base = d.find? e uri base := by
  unfold find? remaining
  rw [node_change_ne h]

/-- Every element has the name it had. -/
def SameNames (d d' : Document) : Prop := ∀ n, d'.name n = d.name n

instance : Std.Refl SameNames := ⟨fun _ _ => rfl⟩

instance : IsTrans Document SameNames := ⟨fun _ _ _ h h' n => (h' n).trans (h n)⟩

theorem name_changeAttribute (d : Document) (e i : Nat) (f : Attribute → Attribute) (n : Nat) :
    (d.changeAttribute e i f).name n = d.name n :=
  node_change_apply d e n _ (·.name) fun _ => name_withAttributes _ _

theorem sameNames_useChild (d : Document) (child : Nat) : SameNames d (d.useChild child) :=
  fun n => node_change_apply d child n _ (·.name) fun _ => rfl

theorem sameNames_take? (d : Document) (e : Nat) (uri base : Text) :
    SameNames d (d.take? e uri base).2 := by
  intro n
  unfold take?
  split
  · exact name_changeAttribute d e _ _ n
  · rfl

theorem sameNames_replaceAttribute (d : Document) (e i : Nat) (value : Text) :
    SameNames d (d.replaceAttribute e i value) := name_changeAttribute d e i _

theorem sameNames_setAttribute (d : Document) (e : Nat) (name value : Text) :
    SameNames d (d.setAttribute e name value) := by
  intro n
  unfold setAttribute
  split
  · exact name_changeAttribute d e _ _ n
  · exact node_change_apply d e n _ (·.name) fun _ => name_withAttributes _ _

/-- An element has the same attribute of a name left. -/
def Spares (e : Nat) (base : Text) (d d' : Document) : Prop :=
  d'.find? e [] base = d.find? e [] base

variable {e : Nat} {base : Text}

instance : Std.Refl (Spares e base) := ⟨fun _ => rfl⟩

instance : IsTrans Document (Spares e base) := ⟨fun _ _ _ h h' => Eq.trans h' h⟩

theorem spares_useChild (d : Document) (child : Nat) : Spares e base d (d.useChild child) := by
  have hsame : ((d.useChild child).node e).attributes = (d.node e).attributes :=
    node_change_apply d child e _ (·.attributes) fun _ => rfl
  unfold Spares find? remaining
  rw [hsame]

/-- Taking an attribute of another element. -/
theorem spares_take? {other : Nat} (h : other ≠ e) (d : Document) (uri name : Text) :
    Spares e base d (d.take? other uri name).2 := by
  unfold take?
  split
  · exact find?_change_ne h _ _
  · rfl

/-- Setting an attribute of another name. -/
theorem spares_setAttribute {other : Text} (h : other ≠ base) (d : Document) (value : Text) :
    Spares e base d (d.setAttribute e other value) := find?_setAttribute_ne h value

/-- What the use of one child keeps, the use of several keeps. -/
theorem useChildren {R : Document → Document → Prop} [Std.Refl R] [IsTrans Document R]
    (h : ∀ d child, R d (d.useChild child)) (d : Document) (children : List Nat) :
    R d (children.foldl useChild d) := by
  induction children generalizing d with
  | nil => exact Std.Refl.refl d
  | cons child rest ih => exact IsTrans.trans _ _ _ (h d child) (ih _)

/-! ## Work on documents -/

section Assertions

variable {R : Document → Document → Prop} [Std.Refl R] [IsTrans Document R]

instance (n : Nat) (p : Document → Problem) : Leads R (failOn n p : Work Document α) :=
  ⟨fun _ => Std.Refl.refl _⟩

instance (n : Nat) : Leads R (assertNoAttributes n) := by
  unfold assertNoAttributes
  refine Leads.bind' inferInstance fun d => ?_
  split <;> infer_instance

instance (n : Nat) : Leads R (assertNoBody n) := by
  unfold assertNoBody
  refine Leads.bind' inferInstance fun d => ?_
  split <;> infer_instance

instance (n : Nat) (name otherwise : Text) [Leads R (takeRaw n name)] :
    Leads R (takeDefault n name otherwise) := by
  unfold takeDefault
  infer_instance

instance (n : Nat) (name : Text) [Leads R (takeRaw n name)] : Leads R (takeRequired n name) := by
  unfold takeRequired
  refine Leads.bind' inferInstance fun value => ?_
  split <;> infer_instance

end Assertions

instance (n : Nat) (name : Text) : Leads SameNames (takeRaw n name) :=
  ⟨fun d => sameNames_take? d n [] name⟩

instance (n : Nat) (name : Text) : Leads SameNames (takeBinderChildren n name) :=
  ⟨fun d => useChildren sameNames_useChild d _⟩

/-- Taking attributes of another element. -/
theorem leads_takeRaw {n : Nat} (h : n ≠ e) (name : Text) :
    Leads (Spares e base) (takeRaw n name) := ⟨fun d => spares_take? h d [] name⟩

end Document

end ViewBinder.Markup
