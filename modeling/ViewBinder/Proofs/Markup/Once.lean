-- Everything is taken once. Operations on elements mark attributes and children as used and never
-- take that back, so what one of them gives out none of those behind it gives out again, whatever
-- else runs in between and however it fails.
import ViewBinder.Proofs.Markup.Preorder
import ViewBinder.Proofs.Markup.Tree

namespace ViewBinder.Markup

open Work (Leads)

/-- The node without its attributes and without the mark of its slot. -/
def Node.stripped (n : Node) : Node := { n.withAttributes fun _ => [] with consumed := false }

theorem stripped_withAttributes (f : List Attribute → List Attribute) (n : Node) :
    (n.withAttributes f).stripped = n.stripped := by
  obtain ⟨body, _, _, _⟩ := n
  cases body <;> rfl

theorem stripped_used (n : Node) : ({ n with consumed := true } : Node).stripped = n.stripped := by
  obtain ⟨body, _, _, _⟩ := n
  cases body <;> rfl

theorem children_stripped (n : Node) : n.stripped.children = n.children := by
  obtain ⟨body, _, _, _⟩ := n
  cases body <;> rfl

/-- A later state of an attribute: it has its name, and is used if it was. -/
def Attribute.Later (a a' : Attribute) : Prop :=
  a'.name = a.name ∧ (a.consumed = true → a'.consumed = true)

theorem Attribute.Later.refl (a : Attribute) : a.Later a := ⟨rfl, id⟩

namespace Document

variable {d d' d'' : Document}

/-! ## What stays -/

/-- A later state of a document. The nodes are the same but for their attributes and marks, slots
that were used stay used, and every attribute keeps its place and its name and stays used if it
was. -/
structure Later (d d' : Document) : Prop where
  file : d'.file = d.file
  size : d'.nodes.size = d.nodes.size
  stripped : ∀ n, (d'.node n).stripped = (d.node n).stripped
  used : ∀ n, (d.node n).consumed = true → (d'.node n).consumed = true
  slot : ∀ {n i : Nat} {a : Attribute}, (d.node n).attributes[i]? = some a →
    ∃ a', (d'.node n).attributes[i]? = some a' ∧ a.Later a'

theorem Later.refl (d : Document) : d.Later d :=
  ⟨rfl, rfl, fun _ => rfl, fun _ => id, fun h => ⟨_, h, .refl _⟩⟩

theorem Later.trans (h : d.Later d') (h' : d'.Later d'') : d.Later d'' where
  file := h'.file.trans h.file
  size := h'.size.trans h.size
  stripped n := (h'.stripped n).trans (h.stripped n)
  used n hn := h'.used n (h.used n hn)
  slot ha := by
    obtain ⟨a', ha', hname, hused⟩ := h.slot ha
    obtain ⟨a'', ha'', hname', hused'⟩ := h'.slot ha'
    exact ⟨a'', ha'', hname'.trans hname, fun hu => hused' (hused hu)⟩

instance : Std.Refl Later := ⟨Later.refl⟩

instance : IsTrans Document Later := ⟨fun _ _ _ => Later.trans⟩

theorem Later.children (h : d.Later d') (n : Nat) : (d'.node n).children = (d.node n).children := by
  rw [← children_stripped, h.stripped, children_stripped]

theorem later_change {id : Nat} {f : Node → Node} (hstripped : ∀ x, (f x).stripped = x.stripped)
    (hused : ∀ x, x.consumed = true → (f x).consumed = true)
    (hslot : ∀ (x : Node) (i : Nat) (a : Attribute), x.attributes[i]? = some a →
      ∃ a', (f x).attributes[i]? = some a' ∧ a.Later a') : d.Later (d.change id f) where
  file := rfl
  size := Array.size_modify
  stripped n := node_change_apply d id n f Node.stripped hstripped
  used n hn := by
    rw [node_change]
    split
    · exact hused _ hn
    · exact hn
  slot ha := by
    rw [node_change]
    split
    · exact hslot _ _ _ ha
    · exact ⟨_, ha, .refl _⟩

theorem later_changeAttribute (e i : Nat) {f : Attribute → Attribute}
    (hf : ∀ a : Attribute, a.Later (f a)) : d.Later (d.changeAttribute e i f) := by
  refine later_change (fun x => stripped_withAttributes _ x) (fun x hx => ?_) fun x k a ha => ?_
  · rw [Node.consumed_withAttributes]
    exact hx
  · rw [attributes_withAttributes (f := (·.modify i f)) (List.modify_nil f i), List.getElem?_modify, ha]
    refine ⟨if i = k then f a else a, rfl, ?_⟩
    split
    · exact hf a
    · exact .refl a

theorem later_useAttribute (d : Document) (e i : Nat) : d.Later (d.useAttribute e i) :=
  later_changeAttribute e i fun _ => ⟨rfl, fun _ => rfl⟩

theorem later_replaceAttribute (d : Document) (e i : Nat) (value : Text) :
    d.Later (d.replaceAttribute e i value) := later_changeAttribute e i fun _ => ⟨rfl, id⟩

/-- An attribute that is added comes behind all others, also behind used ones of its name. -/
theorem later_setAttribute (d : Document) (e : Nat) (base value : Text) :
    d.Later (d.setAttribute e base value) := by
  unfold setAttribute
  split
  · exact later_replaceAttribute d e _ value
  · refine later_change (fun x => stripped_withAttributes _ x) (fun x hx => ?_) fun x i a ha => ?_
    · rw [Node.consumed_withAttributes]
      exact hx
    · refine ⟨a, ?_, .refl a⟩
      obtain ⟨body, _, _, _⟩ := x
      cases body with
      | element name attributes children =>
        exact List.getElem?_append_left (List.getElem?_eq_some_iff.mp ha).1 ▸ ha
      | text content => exact ha
      | cdata content => exact ha

theorem later_useChild (d : Document) (c : Nat) : d.Later (d.useChild c) :=
  later_change stripped_used (fun _ _ => rfl) fun _ _ _ ha => ⟨_, ha, .refl _⟩

theorem later_useChildren (d : Document) (cs : List Nat) : d.Later (cs.foldl useChild d) :=
  useChildren later_useChild d cs

theorem later_take? (d : Document) (e : Nat) (uri base : Text) :
    d.Later (d.take? e uri base).2 := by
  unfold take?
  split
  · exact later_useAttribute d e _
  · exact Later.refl d

/-! ## Work on a document -/

section Checks

variable {R : Document → Document → Prop} [Std.Refl R] [IsTrans Document R]

instance (e : Nat) : Leads R (assertNoText e) := by
  unfold assertNoText
  refine Leads.bind' inferInstance fun d => ?_
  split <;> infer_instance

end Checks

instance (e : Nat) (uri base : Text) : Leads Later (takeIn e uri base) :=
  ⟨fun d => later_take? d e uri base⟩

instance (e : Nat) (base : Text) : Leads Later (takeRaw e base) :=
  inferInstanceAs (Leads Later (takeIn e [] base))

instance (e : Nat) (base : Text) (otherwise : Bool) : Leads Later (takeBoolean e base otherwise) := by
  unfold takeBoolean
  refine Leads.bind' inferInstance fun value => ?_
  split <;> infer_instance

instance (e : Nat) (passes : Nat → Bool) : Leads Later (takeChildrenWhere e passes) :=
  ⟨fun d => later_useChildren d _⟩

instance (e : Nat) : Leads Later (takeChildren e) := by
  unfold takeChildren
  exact Leads.bind' inferInstance fun _ => ⟨fun d => later_useChildren d _⟩

instance (e : Nat) : Leads Later (takeSingleChild e) := by
  unfold takeSingleChild
  refine Leads.bind' inferInstance fun children => ?_
  split <;> infer_instance

instance (c : Nat) : Leads Later (modify (·.useChild c) : Work Document Unit) :=
  ⟨fun d => later_useChild d c⟩

instance (escape : Bool) (e : Nat) (slots : List Nat) : Leads Later (takeSlots escape e slots) := by
  induction slots with
  | nil => exact Leads.pure []
  | cons slot rest ih =>
    unfold takeSlots
    refine Leads.bind' inferInstance fun d => ?_
    dsimp only
    split
    · infer_instance
    · infer_instance
    · infer_instance

instance (e : Nat) : Leads Later (takeInnerText e) := by
  unfold takeInnerText
  infer_instance

instance (e : Nat) : Leads Later (takePlainText e) := by
  unfold takePlainText
  infer_instance

instance (e : Nat) : Leads Later (takeBody e) := ⟨fun d => later_useChildren d _⟩

instance (e : Nat) (base value : Text) :
    Leads Later (modify (·.setAttribute e base value) : Work Document Unit) :=
  ⟨fun d => later_setAttribute d e base value⟩

/-! ## Operations -/

/-- An attribute that was given out before. When attributes are added it may be left behind: then what
happens to it does not reach the document. -/
structure Handle where
  element : Nat
  place : Nat
  stale : Bool

/-- An operation on an element. -/
inductive Op where
  | has (e : Nat) (uri base : Text)
  | peek (e : Nat) (base : Text)
  | take (e : Nat) (uri base : Text)
  | takeDefault (e : Nat) (base otherwise : Text)
  | takeRequired (e : Nat) (base : Text)
  | takeBoolean (e : Nat) (base : Text) (otherwise : Bool)
  | set (e : Nat) (base value : Text)
  | replace (a : Handle) (value : Text)
  | use (a : Handle)
  | remaining (e : Nat)
  | contents (e : Nat)
  | childElements (e : Nat)
  | hasContent (e : Nat)
  | useChild (c : Nat)
  | takeChildrenWhere (e : Nat) (passes : Nat → Bool)
  | takeChildren (e : Nat)
  | takeSingleChild (e : Nat)
  | takeInnerText (e : Nat)
  | takePlainText (e : Nat)
  | takeBody (e : Nat)
  | assertNoAttributes (e : Nat)
  | assertNoText (e : Nat)
  | assertNoBody (e : Nat)
  | openingTag (e : Nat)
  | closingTag (e : Nat)
  | parent (e : Nat)
  | consumed (e : Nat)

/-- What an operation answers. -/
inductive Answer where
  | done
  | flag (b : Bool)
  | value (found : Option Text)
  | attributes (left : List (Nat × Attribute))
  | nodes (ns : List Nat)

namespace Op

/-- What an operation does. -/
def work : Op → Work Document Answer
  | has e uri base => do return .flag ((← get).find? e uri base).isSome
  | peek e base => do return .value ((← get).peek e base)
  | take e uri base => return .value (← Document.takeIn e uri base)
  | takeDefault e base otherwise => return .value (some (← Document.takeDefault e base otherwise))
  | takeRequired e base => return .value (some (← Document.takeRequired e base))
  | takeBoolean e base otherwise => return .flag (← Document.takeBoolean e base otherwise)
  | set e base value => do
    modify (·.setAttribute e base value)
    return .done
  | replace a value => do
    modify fun d => if a.stale then d else d.replaceAttribute a.element a.place value
    return .done
  | use a => do
    modify fun d => if a.stale then d else d.useAttribute a.element a.place
    return .done
  | remaining e => do return .attributes ((← get).remaining e)
  | contents e => do return .nodes ((← get).contents e)
  | childElements e => do return .nodes ((← get).childElements e)
  | hasContent e => do return .flag ((← get).hasContent e)
  | useChild c => do
    modify (·.useChild c)
    return .done
  | takeChildrenWhere e passes => return .nodes (← Document.takeChildrenWhere e passes)
  | takeChildren e => return .nodes (← Document.takeChildren e)
  | takeSingleChild e => return .nodes [← Document.takeSingleChild e]
  | takeInnerText e => return .value (some (← Document.takeInnerText e))
  | takePlainText e => return .value (some (← Document.takePlainText e))
  | takeBody e => do
    Document.takeBody e
    return .done
  | assertNoAttributes e => do
    Document.assertNoAttributes e
    return .done
  | assertNoText e => do
    Document.assertNoText e
    return .done
  | assertNoBody e => do
    Document.assertNoBody e
    return .done
  | openingTag e => do return .value (some ((← get).tag e))
  | closingTag e => do return .value (some ((← get).closingTag e))
  | parent e => do return .nodes ((← get).node e).parent.toList
  | consumed e => do return .flag ((← get).node e).consumed

/-- The operation only looks at the document, or asserts something of it. -/
def reads : Op → Bool
  | has .. | peek .. | remaining _ | contents _ | childElements _ | hasContent _
  | assertNoAttributes _ | assertNoText _ | assertNoBody _
  | openingTag _ | closingTag _ | parent _ | consumed _ => true
  | _ => false

/-- The attribute an operation takes: its element, its namespace and its name. -/
def taken? : Op → Option (Nat × Text × Text)
  | take e uri base => some (e, uri, base)
  | takeDefault e base _ | takeRequired e base | takeBoolean e base _ => some (e, [], base)
  | _ => none

/-- The element an operation takes child elements of. -/
def childrenOf? : Op → Option Nat
  | takeChildrenWhere e _ | takeChildren e | takeSingleChild e => some e
  | _ => none

/-- What an operation that takes an attribute answers for a value. -/
def answerFor (value : Text) : Op → Answer
  | takeBoolean .. => .flag (Text.trim value == "true")
  | _ => .value (some value)

instance (a : Handle) (value : Text) : Leads Later (replace a value).work := by
  refine ⟨fun d => ?_⟩
  show d.Later (if a.stale then d else d.replaceAttribute a.element a.place value)
  split
  · exact Later.refl d
  · exact later_replaceAttribute d _ _ value

instance (a : Handle) : Leads Later (use a).work := by
  refine ⟨fun d => ?_⟩
  show d.Later (if a.stale then d else d.useAttribute a.element a.place)
  split
  · exact Later.refl d
  · exact later_useAttribute d _ _

/-- An operation takes nothing back, however it ends. -/
theorem later (op : Op) (d : Document) : d.Later (op.work.runOn d).2 := by
  have h : Leads Later op.work := by
    cases op with
    | replace a value => infer_instance
    | use a => infer_instance
    | _ =>
      dsimp only [work]
      infer_instance
  exact h.leads d

/-- An operation that reads changes nothing. -/
theorem unchanged {op : Op} (h : op.reads = true) (d : Document) : (op.work.runOn d).2 = d := by
  have hsame : Leads Eq op.work := by
    cases op <;> first | (dsimp only [work]; infer_instance) | cases h
  exact (hsame.leads d).symm

variable {op : Op}

/-- What an operation that takes an attribute answers, and which attribute it uses. -/
theorem take_attribute {e i : Nat} {uri base : Text} {a : Attribute} {answer : Answer}
    (hop : op.taken? = some (e, uri, base)) (hfound : d.find? e uri base = some (i, a))
    (hrun : op.work.runOn d = (.ok answer, d')) :
    answer = op.answerFor a.value ∧ d' = d.useAttribute e i := by
  have htake : (takeIn e uri base).runOn d = (.ok (some a.value), d.useAttribute e i) := by
    unfold takeIn take?
    rw [Work.runOn_modifyGet, hfound]
  cases op with
  | take e' uri' base' =>
    cases hop
    simp only [work, Work.runOn_bind, htake] at hrun
    cases hrun
    exact ⟨rfl, rfl⟩
  | takeDefault e' base' otherwise =>
    cases hop
    simp only [work, Document.takeDefault, takeRaw, Work.runOn_bind, htake] at hrun
    cases hrun
    exact ⟨rfl, rfl⟩
  | takeRequired e' base' =>
    cases hop
    simp only [work, Document.takeRequired, takeRaw, Work.runOn_bind, htake] at hrun
    cases hrun
    exact ⟨rfl, rfl⟩
  | takeBoolean e' base' otherwise =>
    cases hop
    obtain ⟨b, d₁, htaken, hrun⟩ := Work.bind_ok hrun
    cases hrun
    simp only [Document.takeBoolean, takeRaw, Work.runOn_bind, htake] at htaken
    by_cases htrue : (Text.trim a.value == "true") = true
    · rw [if_pos htrue] at htaken
      cases htaken
      exact ⟨congrArg Answer.flag htrue.symm, rfl⟩
    · rw [if_neg htrue] at htaken
      split at htaken
      · cases htaken
        exact ⟨congrArg Answer.flag (Bool.not_eq_true _ ▸ htrue).symm, rfl⟩
      · cases htaken
  | _ => cases hop

/-- What an operation that takes child elements answers are unused ones, in their order, and it uses
them. -/
theorem take_children {e : Nat} {answer : Answer} (hop : op.childrenOf? = some e)
    (hrun : op.work.runOn d = (.ok answer, d')) :
    ∃ ns, answer = .nodes ns ∧ ns.Sublist (d.childElements e) ∧
      ∀ n ∈ ns, (d'.node n).consumed = true := by
  have hall {ns : List Nat} (htaken : (Document.takeChildren e).runOn d = (.ok ns, d')) :
      ns = d.childElements e ∧ ∀ n ∈ ns, (d'.node n).consumed = true := by
    obtain ⟨rfl, htakes, hempty⟩ := takeChildren_ok htaken
    refine ⟨rfl, fun n hn => Gone.consumed (hempty n ?_) ?_⟩
    · rw [htakes.shape.children]
      exact mem_children_of_childElements hn
    · rw [htakes.shape.isElement]
      exact (List.mem_filter.mp hn).2
  cases op with
  | takeChildrenWhere e' passes =>
    cases hop
    obtain ⟨ns, d₁, htaken, hrun⟩ := Work.bind_ok hrun
    cases hrun
    obtain ⟨rfl, htakes, hgone⟩ := takeChildrenWhere_ok htaken
    refine ⟨_, rfl, List.filter_sublist, fun n hn => (hgone n hn).consumed ?_⟩
    rw [htakes.shape.isElement]
    exact (List.mem_filter.mp (List.mem_filter.mp hn).1).2
  | takeChildren e' =>
    cases hop
    obtain ⟨ns, d₁, htaken, hrun⟩ := Work.bind_ok hrun
    cases hrun
    obtain ⟨rfl, hused⟩ := hall htaken
    exact ⟨_, rfl, List.Sublist.refl _, hused⟩
  | takeSingleChild e' =>
    cases hop
    obtain ⟨n, d₁, htaken, hrun⟩ := Work.bind_ok hrun
    cases hrun
    unfold Document.takeSingleChild at htaken
    obtain ⟨ns, d₁, hchildren, htaken⟩ := Work.bind_ok htaken
    split at htaken
    · cases htaken
      obtain ⟨hns, hused⟩ := hall hchildren
      exact ⟨_, rfl, hns ▸ List.Sublist.refl _, hused⟩
    · cases htaken
  | _ => cases hop

end Op

/-! ## Runs -/

/-- One operation of a run. -/
structure Call where
  op : Op
  before : Document
  answer : Except Failure Answer
  after : Document

/-- Operations one after the other, whether they fail or not. -/
def calls : List Op → Document → List Call
  | [], _ => []
  | op :: ops, d =>
    let (answer, after) := op.work.runOn d
    ⟨op, d, answer, after⟩ :: calls ops after

namespace Call

/-- The attribute whose value the operation gave out, as the place it has in its element. -/
def attribute? (c : Call) : Option (Nat × Nat) :=
  match c.answer with
  | .ok _ => c.op.taken?.bind fun (e, uri, base) => (c.before.find? e uri base).map fun a => (e, a.1)
  | .error _ => none

/-- The child elements that the operation gave out. -/
def elements (c : Call) : List Nat :=
  match c.op.childrenOf?, c.answer with
  | some _, .ok (.nodes ns) => ns
  | _, _ => []

end Call

theorem runOn_of_mem_calls {ops : List Op} {c : Call} (hc : c ∈ calls ops d) :
    d.Later c.before ∧ c.op.work.runOn c.before = (c.answer, c.after) := by
  induction ops generalizing d with
  | nil => cases hc
  | cons op ops ih =>
    rcases List.mem_cons.mp hc with rfl | hlater
    · exact ⟨Later.refl d, rfl⟩
    · obtain ⟨hbefore, hrun⟩ := ih hlater
      exact ⟨(op.later d).trans hbefore, hrun⟩

/-- An operation finds the document as an earlier one left it, or a later state of that. -/
theorem calls_pairwise (ops : List Op) (d : Document) :
    (calls ops d).Pairwise fun c c' => c.after.Later c'.before := by
  induction ops generalizing d with
  | nil => exact List.Pairwise.nil
  | cons op ops ih =>
    exact List.pairwise_cons.mpr ⟨fun c hc => (runOn_of_mem_calls hc).1, ih _⟩

theorem attribute_of_find? {e i : Nat} {uri base : Text} {a : Attribute}
    (h : d.find? e uri base = some (i, a)) :
    (d.node e).attributes[i]? = some a ∧ a.consumed = false := by
  obtain ⟨⟨a', i'⟩, hmem, heq⟩ := List.mem_map.mp (mem_remaining_of_find? h).1
  cases heq
  obtain ⟨hplace, hunused⟩ := List.mem_filter.mp hmem
  exact ⟨List.mem_zipIdx_iff_getElem?.mp hplace, by simpa using hunused⟩

namespace Call

variable {c : Call}

/-- An attribute that is given out was not used before and is used afterwards, and its value is what
the operation answers. -/
theorem attribute_taken (hrun : c.op.work.runOn c.before = (c.answer, c.after)) {e i : Nat}
    (h : c.attribute? = some (e, i)) :
    ∃ a, (c.before.node e).attributes[i]? = some a ∧ a.consumed = false ∧
      c.answer = .ok (c.op.answerFor a.value) ∧
      (c.after.node e).attributes[i]? = some { a with consumed := true } := by
  obtain ⟨op, before, answer, after⟩ := c
  unfold attribute? at h
  dsimp only at h hrun ⊢
  cases answer with
  | error failure => cases h
  | ok answer =>
    obtain ⟨⟨e', uri, base⟩, hop, h⟩ := Option.bind_eq_some_iff.mp h
    obtain ⟨⟨i', a⟩, hfound, heq⟩ := Option.map_eq_some_iff.mp h
    cases heq
    obtain ⟨hplace, hunused⟩ := attribute_of_find? hfound
    obtain ⟨rfl, rfl⟩ := Op.take_attribute hop hfound hrun
    refine ⟨a, hplace, hunused, rfl, ?_⟩
    unfold useAttribute
    rw [attributes_changeAttribute, List.getElem?_modify, hplace]
    simp

/-- Child elements that are given out were not used before and are used afterwards. -/
theorem elements_taken (hrun : c.op.work.runOn c.before = (c.answer, c.after)) :
    (∃ e, c.elements.Sublist (c.before.childElements e)) ∧
      ∀ n ∈ c.elements, (c.after.node n).consumed = true := by
  obtain ⟨op, before, answer, after⟩ := c
  unfold elements
  dsimp only at hrun ⊢
  cases hop : op.childrenOf? with
  | none => exact ⟨⟨0, List.nil_sublist _⟩, nofun⟩
  | some e =>
    cases answer with
    | error failure => exact ⟨⟨e, List.nil_sublist _⟩, nofun⟩
    | ok answer =>
      obtain ⟨ns, rfl, hsub, hused⟩ := Op.take_children hop hrun
      exact ⟨⟨e, hsub⟩, hused⟩

theorem unused_of_elements (hrun : c.op.work.runOn c.before = (c.answer, c.after)) {n : Nat}
    (hn : n ∈ c.elements) : (c.before.node n).consumed = false ∧
      (c.before.node n).isElement = true ∧ ∃ e, n ∈ (c.before.node e).children := by
  obtain ⟨⟨e, hsub⟩, -⟩ := elements_taken hrun
  obtain ⟨hcontents, helement⟩ := List.mem_filter.mp (hsub.subset hn)
  obtain ⟨hchild, hunused⟩ := List.mem_filter.mp hcontents
  exact ⟨by simpa using hunused, helement, e, hchild⟩

end Call

/-- On a loaded document, every attribute and every child element is given out once at most, whatever
operations run on it. Each leaves the tree as it is and takes no mark back, and those that only read
or assert leave everything as it is. -/
theorem everything_is_taken_once {source url : Text} (h : load source url = .ok d)
    (ops : List Op) :
    (∀ c ∈ calls ops d, c.op.work.runOn c.before = (c.answer, c.after) ∧ d.Later c.before ∧
      c.before.Later c.after ∧ (c.op.reads = true → c.after = c.before) ∧
      (∀ e i, c.attribute? = some (e, i) →
        ∃ a, (c.before.node e).attributes[i]? = some a ∧ a.consumed = false ∧
          c.answer = .ok (c.op.answerFor a.value) ∧
          (c.after.node e).attributes[i]? = some { a with consumed := true }) ∧
      ∀ n ∈ c.elements, (c.before.node n).consumed = false ∧ (c.after.node n).consumed = true) ∧
    (calls ops d).Pairwise (fun c c' => c.after.Later c'.before) ∧
    ((calls ops d).filterMap Call.attribute?).Nodup ∧
    ((calls ops d).flatMap Call.elements).Nodup := by
  refine ⟨fun c hc => ?_, calls_pairwise ops d, ?_, ?_⟩
  · obtain ⟨hbefore, hrun⟩ := runOn_of_mem_calls hc
    have hafter : c.after = (c.op.work.runOn c.before).2 := by rw [hrun]
    refine ⟨hrun, hbefore, ?_, fun hreads => ?_, fun e i => Call.attribute_taken hrun, fun n hn => ?_⟩
    · rw [hafter]
      exact c.op.later _
    · rw [hafter]
      exact Op.unchanged hreads _
    · exact ⟨(Call.unused_of_elements hrun hn).1, (Call.elements_taken hrun).2 n hn⟩
  · rw [List.Nodup, List.pairwise_filterMap]
    refine (calls_pairwise ops d).imp_of_mem fun {c c'} hc hc' hlater => ?_
    rintro ⟨e, i⟩ hfirst _ hsecond rfl
    -- the slot was used by the first, so it is not unused for the second
    obtain ⟨a, -, -, -, hused⟩ := Call.attribute_taken (runOn_of_mem_calls hc).2 hfirst
    obtain ⟨a', hplace, hunused, -, -⟩ := Call.attribute_taken (runOn_of_mem_calls hc').2 hsecond
    obtain ⟨a'', hplace', -, hstill⟩ := hlater.slot hused
    rw [hplace] at hplace'
    cases hplace'
    rw [hstill rfl] at hunused
    cases hunused
  · rw [List.nodup_flatMap]
    refine ⟨fun c hc => ?_, (calls_pairwise ops d).imp_of_mem fun {c c'} hc hc' hlater => ?_⟩
    · obtain ⟨hbefore, hrun⟩ := runOn_of_mem_calls hc
      obtain ⟨⟨e, hsub⟩, -⟩ := Call.elements_taken hrun
      refine hsub.nodup (List.Nodup.filter _ (List.Nodup.filter _ ?_))
      rw [hbefore.children]
      exact ((inDocumentOrder_of_load h).sorted e).imp fun hlt => Nat.ne_of_lt hlt
    · intro n hn hn'
      have hused := hlater.used n ((Call.elements_taken (runOn_of_mem_calls hc).2).2 n hn)
      rw [(Call.unused_of_elements (runOn_of_mem_calls hc').2 hn').1] at hused
      cases hused

/-- An element with an attribute twice. -/
def repeatingMarkup : Text := "<a x=\"1\" x=\"2\"><b/>c<d/></a>"

/-- Takes the attribute until it is missing, adding it once more, and then the children, of which a
text is left over first. -/
def repeatingOps : List Op :=
  [.take 0 [] "x", .set 0 "x" "3", .takeRequired 0 "x", .set 0 "x" "4", .takeDefault 0 "x" "5",
    .takeRequired 0 "x", .takeChildrenWhere 0 (· == 3), .takeSingleChild 0, .useChild 2,
    .takeSingleChild 0, .takeChildren 0]

theorem repeatingOps_take_once : ∃ d, load repeatingMarkup "View.ui.xml" = .ok d ∧
    (calls repeatingOps d).filterMap Call.attribute? = [(0, 0), (0, 1), (0, 2)] ∧
    (calls repeatingOps d).flatMap Call.elements = [3, 1] ∧
    ((calls repeatingOps d).filterMap Call.attribute?).Nodup ∧
    ((calls repeatingOps d).flatMap Call.elements).Nodup := by
  obtain ⟨d, hd, hgiven⟩ := Option.map_eq_some_iff.mp
    (show (load repeatingMarkup "View.ui.xml").toOption.map (fun d =>
        ((calls repeatingOps d).filterMap Call.attribute?,
          (calls repeatingOps d).flatMap Call.elements)) =
      some ([(0, 0), (0, 1), (0, 2)], [3, 1]) by decide)
  obtain ⟨hattributes, helements⟩ := Prod.mk.inj hgiven
  obtain ⟨-, -, hnodup⟩ := everything_is_taken_once (ok_of_toOption hd) repeatingOps
  exact ⟨d, ok_of_toOption hd, hattributes, helements, hnodup⟩

end Document

end ViewBinder.Markup
