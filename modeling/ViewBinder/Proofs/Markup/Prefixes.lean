-- Abbreviations of namespaces in a document. Loading finds the namespace of a name by its
-- abbreviation and an abbreviation again by the namespace, and the two searches need not agree: an
-- inner tag may declare an abbreviation anew, and an abbreviation without declaration stands for
-- itself, which can be somebody's namespace.
import ViewBinder.Proofs.Markup.Tokens
import ViewBinder.Proofs.Markup.Load
import ViewBinder.Proofs.Field.Order

namespace ViewBinder.Markup

/-! ## Scopes -/

/-- The abbreviations an opening tag declares. -/
def OpeningTag.declared (tag : OpeningTag) : Bindings := declaredBindings tag.attributes

/-- The abbreviations in scope in the first of some tags, of which each stands in the next. -/
def scopeOf (path : List OpeningTag) : Bindings := path.flatMap OpeningTag.declared

/-- A name with its namespace for its abbreviation. -/
def RawName.resolved (scope : Bindings) (name : RawName) : RawName :=
  ⟨namespaceOf scope false name, name.base⟩

/-- What some tags declare, when attributes are told by their namespaces. -/
def recordedOf : List OpeningTag → List Bindings
  | [] => []
  | tag :: around =>
    declaredBindings (tag.attributes.map fun a => (a.1.resolved (scopeOf (tag :: around)), a.2)) ::
      recordedOf around

/-- An attribute that declares an abbreviation. -/
def RawName.isDeclaration (name : RawName) : Bool :=
  name.lead == "xmlns" || (name.lead.isEmpty && name.base == "xmlns")

/-- A name written in the first of some tags, as loading reads it. -/
def nameIn? (path : List OpeningTag) (isElement : Bool) (raw : RawName) : Option Name :=
  let uri := namespaceOf (scopeOf path) isElement raw
  (leadFor (recordedOf path) isElement uri).map fun lead => ⟨uri, raw.base, lead⟩

namespace PlacedTag

/-- The tag and those around it. -/
def path (t : PlacedTag) : List OpeningTag := t.tag :: t.around

/-- The attributes that declare no abbreviation. -/
def kept (t : PlacedTag) : List (RawName × Text) :=
  t.tag.attributes.filter fun a => !(a.1.resolved (scopeOf t.path)).isDeclaration

/-- The name and the attributes of an element are those the tag writes. -/
structure Loads (t : PlacedTag) (e : Name × List Attribute) : Prop where
  name : nameIn? t.path true t.tag.name = some e.1
  attributes : List.Forall₂ (fun written a =>
    nameIn? t.path false written.1 = some a.name ∧ a.value = written.2) t.kept e.2

/-- The element is what the tag opens: it has what the tag writes, and nothing of it was used. -/
structure Opens (t : PlacedTag) (e : Name × List Attribute) : Prop where
  loads : t.Loads e
  unused : ∀ a ∈ e.2, a.consumed = false

end PlacedTag

/-! ## Loading tag by tag -/

/-- Steps over a list that succeed give an answer for each element. -/
theorem forall₂_of_mapM {ε α β : Type} {f : α → Except ε β} {xs : List α} {ys : List β}
    (h : xs.mapM f = .ok ys) : List.Forall₂ (fun x y => f x = .ok y) xs ys := by
  induction xs generalizing ys with
  | nil =>
    cases h
    exact .nil
  | cons x xs ih =>
    rw [List.mapM_cons] at h
    obtain ⟨y, hy, h⟩ := answer_bind h
    obtain ⟨later, hlater, h⟩ := answer_bind h
    cases h
    exact .cons hy (ih hlater)

/-- What stands on the right of related lists stands over something on the left. -/
theorem exists_of_forall₂_right {α β : Type} {R : α → β → Prop} {xs : List α} {ys : List β}
    (h : List.Forall₂ R xs ys) {y : β} (hy : y ∈ ys) : ∃ x ∈ xs, R x y := by
  induction h with
  | nil => cases hy
  | cons hxy _ ih =>
    rcases List.mem_cons.mp hy with rfl | hlater
    · exact ⟨_, List.mem_cons_self, hxy⟩
    · obtain ⟨x, hx, hxy⟩ := ih hlater
      exact ⟨x, List.mem_cons_of_mem _ hx, hxy⟩

/-- The name and the attributes of an element. -/
def Node.opening? (n : Node) : Option (Name × List Attribute) :=
  match n.body with
  | .element name attributes _ => some (name, attributes)
  | _ => none

/-- The names and attributes of the elements of a document in order. -/
def Document.elements (d : Document) : List (Name × List Attribute) :=
  (List.range d.nodes.size).filterMap fun n => (d.node n).opening?

theorem opening?_withChild (c : Nat) (n : Node) : (n.withChild c).opening? = n.opening? := by
  obtain ⟨body, _, _, _⟩ := n
  cases body <;> rfl

theorem elements_push (d : Document) (x : Node) :
    (d.push x).elements = d.elements ++ x.opening?.toList := by
  have hnode (n : Nat) := d.node_push_apply x n Node.opening? opening?_withChild
  unfold Document.elements
  rw [Document.size_push, List.range_succ, List.filterMap_append]
  congr 1
  · refine List.filterMap_congr fun n hn => ?_
    rw [hnode, if_neg (by simpa using Nat.ne_of_lt (List.mem_range.mp hn))]
  · cases hx : x.opening? <;> simp [hnode, hx]

namespace Loading

/-- Some tags are the ones that are open. -/
structure Follows (l : Loading) (around : List OpeningTag) : Prop where
  declared : l.opened.map (·.declared) = around.map OpeningTag.declared
  recorded : l.opened.map (·.recorded) = recordedOf around

theorem Follows.pop {l : Loading} {around : List OpeningTag} (h : l.Follows around) :
    l.pop.Follows (around.drop 1) where
  declared := by
    show (l.opened.drop 1).map _ = _
    rw [List.map_drop, h.declared, List.map_drop]
  recorded := by
    show (l.opened.drop 1).map _ = _
    rw [List.map_drop, h.recorded]
    cases around <;> rfl

theorem Follows.scope {l : Loading} {around : List OpeningTag} (h : l.Follows around)
    (tag : OpeningTag) :
    declaredBindings tag.attributes ++ l.opened.flatMap (·.declared) = scopeOf (tag :: around) := by
  unfold scopeOf
  rw [List.flatMap_cons, List.flatMap_def, h.declared, ← List.flatMap_def]
  rfl

/-- A name whose abbreviation is found is the one read. -/
theorem nameIn?_of_resolved {path : List OpeningTag} {isElement : Bool} {raw : RawName}
    {name : Name} {failure : Failure}
    (h : (match leadFor (recordedOf path) isElement (namespaceOf (scopeOf path) isElement raw) with
      | some lead => .ok ⟨namespaceOf (scopeOf path) isElement raw, raw.base, lead⟩
      | none => .error failure : Except Failure Name) = .ok name) :
    nameIn? path isElement raw = some name := by
  split at h
  · rename_i hlead
    cases h
    simp [nameIn?, hlead]
  · cases h

/-- An opening tag becomes an element, and is open unless it closes itself. -/
theorem start_ok {l l' : Loading} {around : List OpeningTag} {place : Location} {raw : RawName}
    {attributes : List (RawName × Text)} {empty : Bool} (hl : l.Follows around)
    (h : l.start place raw attributes empty = .ok l') :
    (∃ e, PlacedTag.Opens ⟨⟨raw, attributes⟩, around⟩ e ∧
      l'.document.elements = l.document.elements ++ [e]) ∧
      l'.Follows (openBehind around (.start raw attributes empty)) := by
  unfold Loading.start at h
  simp only at h
  rw [hl.scope ⟨raw, attributes⟩, hl.recorded] at h
  split at h
  · cases h
  · obtain ⟨name, hname, h⟩ := answer_bind h
    obtain ⟨kept, hkept, h⟩ := answer_bind h
    cases h
    have hopened : Follows
        { l with
          document := l.document.push ⟨.element name kept [], l.parent, place, false⟩
          opened := ⟨l.document.nodes.size, raw, declaredBindings attributes,
            declaredBindings (attributes.map fun a =>
              (a.1.resolved (scopeOf (⟨raw, attributes⟩ :: around)), a.2))⟩ :: l.opened }
        (⟨raw, attributes⟩ :: around) :=
      ⟨congrArg _ hl.declared, congrArg _ hl.recorded⟩
    refine ⟨⟨(name, kept), ⟨⟨nameIn?_of_resolved hname, ?_⟩, fun a ha => ?_⟩, ?_⟩, ?_⟩
    · rw [List.filter_map] at hkept
      refine (List.forall₂_map_left_iff.mp (forall₂_of_mapM hkept)).imp fun written a ha => ?_
      obtain ⟨found, hfound, ha⟩ := answer_bind ha
      cases ha
      exact ⟨nameIn?_of_resolved hfound, rfl⟩
    · obtain ⟨written, -, hread⟩ := exists_of_forall₂_right (forall₂_of_mapM hkept) ha
      obtain ⟨found, -, hread⟩ := answer_bind hread
      cases hread
      rfl
    · cases empty <;> exact elements_push _ _
    · cases empty
      · exact hopened
      · exact hopened.pop

theorem Follows.text {l l' : Loading} {around : List OpeningTag} {place : Location} {body : Body}
    {ignorable : Bool} (hl : l.Follows around)
    (hbody : ∀ parent, (Node.mk body parent place false).opening? = none)
    (h : l.text place body ignorable = .ok l') :
    l'.document.elements = l.document.elements ∧ l'.Follows around := by
  unfold Loading.text at h
  split at h
  · split at h
    · cases h
      exact ⟨rfl, hl⟩
    · cases h
  · cases h
    exact ⟨by simp [elements_push, hbody], hl.declared, hl.recorded⟩

theorem Follows.close {l l' : Loading} {around : List OpeningTag} {rest : Text} {name : RawName}
    (hl : l.Follows around) (h : l.close rest name = .ok l') :
    l'.document.elements = l.document.elements ∧ l'.Follows (around.drop 1) := by
  unfold Loading.close at h
  split at h
  · cases h
  · split at h
    · cases h
    · split at h
      · cases h
      · cases h
        exact ⟨rfl, hl.pop⟩

/-- A token adds the element it opens, if it opens one. -/
theorem step_ok {l l' : Loading} {around : List OpeningTag} {start : Nat} {rest : Text}
    {token : Token} (hl : l.Follows around) (h : l.step start rest token = .ok l') :
    (∃ es, List.Forall₂ PlacedTag.Opens (tagOf? around token).toList es ∧
      l'.document.elements = l.document.elements ++ es) ∧ l'.Follows (openBehind around token) := by
  have hnone {l' : Loading} (h : l'.document.elements = l.document.elements) :
      ∃ es, List.Forall₂ PlacedTag.Opens [] es ∧
        l'.document.elements = l.document.elements ++ es := ⟨[], .nil, by simp [h]⟩
  unfold Loading.step at h
  cases token with
  | start name attributes empty =>
    obtain ⟨⟨e, he, helements⟩, hopen⟩ := start_ok hl h
    exact ⟨⟨[e], .cons he .nil, helements⟩, hopen⟩
  | close name =>
    simp only at h
    split at h
    · rename_i hclose
      cases h
      exact (hl.close hclose).imp_left hnone
    · cases h
  | text content => exact (hl.text (fun _ => rfl) h).imp_left hnone
  | cdata content => exact (hl.text (fun _ => rfl) h).imp_left hnone
  | comment =>
    cases h
    exact ⟨hnone rfl, hl⟩
  | instruction target =>
    simp only at h
    split at h
    · cases h
    · cases h
      exact ⟨hnone rfl, hl⟩
  | declaration body =>
    simp only at h
    split at h
    · cases h
    · cases h
      exact ⟨hnone rfl, hl⟩

/-- A run adds the elements of all tags, in their order. -/
theorem run_ok {fuel : Nat} {l l' : Loading} {around : List OpeningTag} {source : Text}
    (hfuel : source.length < fuel) (hl : l.Follows around) (h : run fuel l source = .ok l') :
    ∃ es, List.Forall₂ PlacedTag.Opens (tagsAmong around (tokens source)) es ∧
      l'.document.elements = l.document.elements ++ es := by
  induction fuel generalizing l around source with
  | zero => omega
  | succ fuel ih =>
    unfold run at h
    simp only at h
    split at h
    · split at h
      · cases h
        exact ⟨[], .nil, by simp⟩
      · cases h
    · split at h
      · cases h
      · rename_i token rest hscan
        have hless := length_of_scan hscan
        split at h
        · cases h
        · rename_i next hstep
          obtain ⟨⟨es, hes, helements⟩, hopen⟩ := step_ok hl hstep
          obtain ⟨later, hlater, hall⟩ := ih (by omega) hopen h
          rw [tokens_of_scan hscan]
          exact ⟨es ++ later, List.rel_append hes hlater, by simp [hall, helements]⟩

end Loading

/-- The elements of a document are the tags of its source, in their order. -/
theorem Document.opens_tags {source url : Text} {d : Document}
    (h : Document.load source url = .ok d) :
    List.Forall₂ PlacedTag.Opens (tagsOf source) d.elements := by
  unfold Document.load at h
  simp only at h
  split at h
  · cases h
  · rename_i l hrun
    split at h
    · cases h
    · cases h
      have hnone : Loading.Follows ⟨⟨⟨source, url⟩, #[]⟩, [], false⟩ [] := ⟨rfl, rfl⟩
      obtain ⟨es, hes, helements⟩ := Loading.run_ok (Nat.lt_succ_self _) hnone hrun
      rw [helements]
      exact hes

theorem Document.loads_tags {source url : Text} {d : Document}
    (h : Document.load source url = .ok d) :
    List.Forall₂ PlacedTag.Loads (tagsOf source) d.elements :=
  (opens_tags h).imp fun _ _ ht => ht.loads

/-! ## The abbreviation that is found -/

/-- Declarations of a tag in order, and what each says. -/
def binding? (a : RawName × Text) : Option (Text × Text) :=
  if a.1.isDeclaration then some (if a.1.lead.isEmpty then [] else a.1.base, a.2) else none

theorem declaredBindings_eq (attributes : List (RawName × Text)) :
    declaredBindings attributes = (attributes.filterMap binding?).reverse := by
  unfold declaredBindings
  congr 2
  funext ⟨⟨lead, base⟩, value⟩
  unfold binding? RawName.isDeclaration
  by_cases hlead : lead = "xmlns"
  · subst hlead
    rfl
  · have hxmlns : Text.ofString "xmlns" ≠ [] := by decide
    by_cases hempty : lead = [] <;> simp [hlead, hempty, hxmlns]

/-- Attributes are declarations by their namespace only where they are written as such. -/
def Plain (path : List OpeningTag) : Prop :=
  ∀ tag around, tag :: around <:+ path → ∀ a ∈ tag.attributes,
    (a.1.resolved (scopeOf (tag :: around))).isDeclaration = true → a.1.isDeclaration = true

/-- A name that is written as a declaration keeps what it declares. -/
theorem binding?_resolved {scope : Bindings} {name : RawName} {value : Text}
    (h : (name.resolved scope).isDeclaration = true → name.isDeclaration = true) :
    binding? (name.resolved scope, value) = binding? (name, value) := by
  obtain ⟨lead, base⟩ := name
  by_cases hlead : lead = "xmlns"
  · subst hlead
    simp [RawName.resolved, namespaceOf]
  · by_cases hempty : lead = []
    · subst hempty
      simp [RawName.resolved, namespaceOf]
    · have hnot : RawName.isDeclaration ⟨lead, base⟩ = false := by
        simp [RawName.isDeclaration, hlead, hempty]
      have hresolved := Bool.eq_false_iff.mpr (mt h (by simp [hnot]))
      simp [binding?, hnot, hresolved]

theorem recordedOf_of_plain {path : List OpeningTag} (h : Plain path) :
    recordedOf path = path.map OpeningTag.declared := by
  induction path with
  | nil => rfl
  | cons tag around ih =>
    unfold recordedOf
    rw [ih fun inner outer hsuffix => h inner outer (hsuffix.trans (List.suffix_cons _ _))]
    refine congrArg (· :: _) ?_
    rw [OpeningTag.declared, declaredBindings_eq, declaredBindings_eq, List.filterMap_map]
    congr 1
    refine List.filterMap_congr fun a ha => ?_
    exact binding?_resolved (h tag around (List.suffix_refl _) a ha)

/-- A tag binds an abbreviation that a name of the kind may have to a namespace. -/
def Offers (scope : Bindings) (isElement : Bool) (uri lead : Text) : Prop :=
  scope.lookup lead = some uri ∧ (isElement = true ∨ lead ≠ [])

theorem mem_sorted {ts : List Text} {t : Text} : t ∈ Text.sorted ts ↔ t ∈ ts :=
  (sortBy_perm _ ts).mem_iff

theorem offers_of_find {scope : Bindings} {isElement : Bool} {uri lead : Text}
    (h : ((Text.sorted ((scope.map (·.1)).eraseDups)).find? fun lead =>
      scope.lookup lead == some uri && (isElement || !lead.isEmpty)) = some lead) :
    Offers scope isElement uri lead := by
  simpa [Offers] using List.find?_some h

theorem find_isSome_of_offers {scope : Bindings} {isElement : Bool} {uri lead : Text}
    (h : Offers scope isElement uri lead) :
    ((Text.sorted ((scope.map (·.1)).eraseDups)).find? fun lead =>
      scope.lookup lead == some uri && (isElement || !lead.isEmpty)).isSome = true := by
  obtain ⟨before, after, hscope, -⟩ := List.lookup_eq_some_iff.mp h.1
  rw [List.find?_isSome]
  refine ⟨lead, mem_sorted.mpr (List.mem_eraseDups.mpr ?_), ?_⟩
  · simp [hscope]
  · simpa [Offers] using h

/-- The abbreviation found for a namespace is offered by a tag, and no tag inside it offers any. -/
theorem leadFor_eq_some {scopes : List Bindings} {isElement : Bool} {uri lead : Text}
    (huri : uri ≠ []) (hxml : uri ≠ xmlUri) (h : leadFor scopes isElement uri = some lead) :
    ∃ inner scope outer, scopes = inner ++ scope :: outer ∧ Offers scope isElement uri lead ∧
      ∀ s ∈ inner, ∀ other, ¬ Offers s isElement uri other := by
  unfold leadFor at h
  rw [if_neg (by simpa using huri), if_neg (by simpa using hxml)] at h
  obtain ⟨inner, scope, outer, hsplit, hfound, hnone⟩ := List.findSome?_eq_some_iff.mp h
  refine ⟨inner, scope, outer, hsplit, offers_of_find hfound, fun s hs other hoffers => ?_⟩
  have hsome := find_isSome_of_offers hoffers
  rw [hnone s hs] at hsome
  cases hsome

theorem leadFor_isSome_iff {scopes : List Bindings} {isElement : Bool} {uri : Text}
    (huri : uri ≠ []) (hxml : uri ≠ xmlUri) :
    (leadFor scopes isElement uri).isSome = true ↔
      ∃ scope ∈ scopes, ∃ lead, Offers scope isElement uri lead := by
  constructor
  · intro h
    obtain ⟨lead, hlead⟩ := Option.isSome_iff_exists.mp h
    obtain ⟨inner, scope, outer, rfl, hoffers, -⟩ := leadFor_eq_some huri hxml hlead
    exact ⟨scope, by simp, lead, hoffers⟩
  · rintro ⟨scope, hscope, lead, hoffers⟩
    unfold leadFor
    rw [if_neg (by simpa using huri), if_neg (by simpa using hxml), List.findSome?_isSome_iff]
    exact ⟨scope, hscope, find_isSome_of_offers hoffers⟩

/-! ## Abbreviations in scope -/

/-- What an abbreviation stands for in a scope. `xml` stands for its own namespace everywhere, and
names without abbreviation have none if there is no default. -/
def standsFor? (scope : Bindings) (lead : Text) : Option Text :=
  if lead = "xml" then some xmlUri
  else if lead = [] then some ((scope.lookup []).getD [])
  else scope.lookup lead

/-- The abbreviation of a name stands for its namespace in the first of some tags. -/
def Name.InScope (path : List OpeningTag) (n : Name) : Prop :=
  standsFor? (scopeOf path) n.lead = some n.uri

/-- The names of an element that have an abbreviation to find: its own, and those of its attributes
that are in a namespace. -/
inductive Carries (e : Name × List Attribute) : Bool → Name → Prop
  | element : Carries e true e.1
  | inside {a : Attribute} (ha : a ∈ e.2) (huri : a.name.uri ≠ []) : Carries e false a.name

/-- Looking through tags one by one is looking through what they declare together. -/
theorem lookup_flatten (scopes : List Bindings) (lead : Text) :
    scopes.flatten.lookup lead = scopes.findSome? (·.lookup lead) := by
  induction scopes with
  | nil => rfl
  | cons scope scopes ih =>
    rw [List.flatten_cons, List.lookup_append, ih, List.findSome?_cons]
    cases scope.lookup lead <;> rfl

/-- Where the abbreviation of a name was found, and when it stands for the namespace of the name. -/
structure Name.Found (path : List OpeningTag) (isElement : Bool) (n : Name) : Prop where
  /-- A name outside all namespaces is written without abbreviation. -/
  outside : n.uri = [] → (n.InScope path ↔ ((scopeOf path).lookup []).getD [] = [])
  predefined : n.uri = xmlUri → n.InScope path
  /-- The innermost tag that offers one gives the abbreviation, and none inside it declares it
  anew. -/
  declared : n.uri ≠ [] → n.uri ≠ xmlUri → ∃ inner scope outer,
    recordedOf path = inner ++ scope :: outer ∧ Offers scope isElement n.uri n.lead ∧
    (∀ s ∈ inner, ∀ other, ¬ Offers s isElement n.uri other) ∧
    (Plain path → (n.InScope path ↔ n.lead ≠ "xml" ∧ ∀ s ∈ inner, s.lookup n.lead = none))

theorem lead_of_nameIn? {path : List OpeningTag} {isElement : Bool} {raw : RawName} {n : Name}
    (h : nameIn? path isElement raw = some n) :
    leadFor (recordedOf path) isElement n.uri = some n.lead := by
  unfold nameIn? at h
  obtain ⟨lead, hlead, rfl⟩ := Option.map_eq_some_iff.mp h
  exact hlead

/-- A declared abbreviation is in scope if no tag inside the one it was found in declares it. -/
theorem inScope_iff_of_offers {path : List OpeningTag} {isElement : Bool} {n : Name}
    (hplain : Plain path) {inner outer : List Bindings} {scope : Bindings}
    (hsplit : recordedOf path = inner ++ scope :: outer)
    (hoffers : Offers scope isElement n.uri n.lead)
    (hinner : ∀ s ∈ inner, ∀ other, ¬ Offers s isElement n.uri other) (hxml : n.uri ≠ xmlUri) :
    n.InScope path ↔ n.lead ≠ "xml" ∧ ∀ s ∈ inner, s.lookup n.lead = none := by
  -- what counts is the first tag that declares the abbreviation at all
  have hlookup : (scopeOf path).lookup n.lead =
      (inner.findSome? (·.lookup n.lead)).or (some n.uri) := by
    rw [scopeOf, List.flatMap_def, ← recordedOf_of_plain hplain, hsplit, lookup_flatten,
      List.findSome?_append, List.findSome?_cons, hoffers.1]
  have hother : (scopeOf path).lookup n.lead = some n.uri ↔
      ∀ s ∈ inner, s.lookup n.lead = none := by
    rw [hlookup, ← List.findSome?_eq_none_iff]
    cases hfound : inner.findSome? (·.lookup n.lead) with
    | none => simp
    | some uri =>
      obtain ⟨s, hs, hsome⟩ := List.exists_of_findSome?_eq_some hfound
      have hne : uri ≠ n.uri := by
        rintro rfl
        exact hinner s hs n.lead ⟨hsome, hoffers.2⟩
      simp [hne]
  unfold Name.InScope standsFor?
  by_cases hlead : n.lead = "xml"
  · simp [hlead, Ne.symm hxml]
  · by_cases hempty : n.lead = []
    · have hsome : ∃ uri, (scopeOf path).lookup n.lead = some uri := by
        rw [hlookup]
        cases inner.findSome? (·.lookup n.lead) <;> simp
      obtain ⟨uri, hsome⟩ := hsome
      rw [← hother, hsome]
      rw [hempty] at hsome
      simp [hempty, hsome, show Text.ofString "xml" ≠ [] by decide]
    · simp [hlead, hempty, hother]

theorem found_of_nameIn? {path : List OpeningTag} {isElement : Bool} {raw : RawName} {n : Name}
    (h : nameIn? path isElement raw = some n) : n.Found path isElement where
  outside huri := by
    have hlead := lead_of_nameIn? h
    simp only [leadFor, huri, List.isEmpty_nil, if_true, Option.some.injEq] at hlead
    unfold Name.InScope standsFor?
    rw [← hlead, huri, if_neg (by decide), if_pos rfl, Option.some.injEq]
  predefined huri := by
    have hlead := lead_of_nameIn? h
    have hne : xmlUri ≠ [] := by decide
    simp only [leadFor, huri, List.isEmpty_iff, hne, if_false, beq_self_eq_true, if_true,
      Option.some.injEq] at hlead
    unfold Name.InScope standsFor?
    rw [← hlead, huri, if_pos rfl]
  declared huri hxml := by
    obtain ⟨inner, scope, outer, hsplit, hoffers, hinner⟩ :=
      leadFor_eq_some huri hxml (lead_of_nameIn? h)
    exact ⟨inner, scope, outer, hsplit, hoffers, hinner, fun hplain =>
      inScope_iff_of_offers hplain hsplit hoffers hinner hxml⟩

theorem PlacedTag.Loads.found {t : PlacedTag} {e : Name × List Attribute} (h : t.Loads e)
    {isElement : Bool} {n : Name} (hn : Carries e isElement n) : n.Found t.path isElement := by
  cases hn with
  | element => exact found_of_nameIn? h.name
  | @inside a ha huri =>
    obtain ⟨written, -, hread, -⟩ := exists_of_forall₂_right h.attributes ha
    exact found_of_nameIn? hread

theorem base_of_nameIn? {path : List OpeningTag} {isElement : Bool} {raw : RawName} {n : Name}
    (h : nameIn? path isElement raw = some n) : n.base = raw.base := by
  obtain ⟨lead, -, rfl⟩ := Option.map_eq_some_iff.mp h
  rfl

/-- The names of a document are made of bytes of names, its values hold no null byte, and no
attribute of it was used. -/
theorem Document.spelt_of_load {source url : Text} {d : Document}
    (h : Document.load source url = .ok d) {n : Nat} {name : Name} {attributes : List Attribute}
    {children : List Nat} (hbody : (d.node n).body = .element name attributes children) :
    (∀ b ∈ name.base, isNameRun b = true) ∧ ∀ a ∈ attributes,
      (∀ b ∈ a.name.base, isNameRun b = true) ∧ 0 ∉ a.value ∧ a.consumed = false := by
  have helement : (name, attributes) ∈ d.elements := by
    refine List.mem_filterMap.mpr ⟨n, List.mem_range.mpr (Document.lt_of_isElement ?_), ?_⟩
    · simp [Node.isElement, hbody]
    · simp [Node.opening?, hbody]
  obtain ⟨t, ht, hopens⟩ := exists_of_forall₂_right (Document.opens_tags h) helement
  obtain ⟨hname, hattributes⟩ := spelt_of_mem_tagsOf ht
  refine ⟨base_of_nameIn? hopens.loads.name ▸ hname.base, fun a ha => ?_⟩
  obtain ⟨written, hkept, hread, hvalue⟩ := exists_of_forall₂_right hopens.loads.attributes ha
  obtain ⟨hspelt, hnull⟩ := hattributes written (List.mem_filter.mp hkept).1
  exact ⟨base_of_nameIn? hread ▸ hspelt.base, hvalue ▸ hnull, hopens.unused a ha⟩

/-- The names of a document keep the namespaces of their tags, and the abbreviation of a name that has
one is found in the innermost tag that offers any. It is in scope exactly if the tags inside that one
do not declare it anew. -/
theorem abbreviations_found_are_in_scope_iff {source url : Text} {d : Document}
    (h : Document.load source url = .ok d) :
    List.Forall₂ (fun t e => t.Loads e ∧
      ∀ isElement n, Carries e isElement n → n.Found t.path isElement) (tagsOf source) d.elements :=
  (Document.loads_tags h).imp fun _ _ ht => ⟨ht, fun _ _ hn => ht.found hn⟩

/-- A document that succeeds in loading has these elements. -/
theorem exists_document_of_elements (source url : Text) (es : List (Name × List Attribute))
    (h : (Document.load source url).toOption.map Document.elements = some es) :
    ∃ d, Document.load source url = .ok d ∧ d.elements = es := by
  obtain ⟨d, hd, helements⟩ := Option.map_eq_some_iff.mp h
  exact ⟨d, ok_of_toOption hd, helements⟩

/-- An element and an attribute of one namespace, declared by the root. -/
def nestedMarkup : Text := "<a:r xmlns:a=\"u\"><b a:c=\"d\"/></a:r>"

theorem abbreviations_of_nestedMarkup : ∃ d, Document.load nestedMarkup "View.ui.xml" = .ok d ∧
    d.elements.map (·.1) = [⟨"u", "r", "a"⟩, ⟨[], "b", []⟩] ∧
    List.Forall₂ (fun t e => t.Loads e ∧
      ∀ isElement n, Carries e isElement n → n.Found t.path isElement) (tagsOf nestedMarkup)
      d.elements := by
  obtain ⟨d, hd, helements⟩ := exists_document_of_elements nestedMarkup "View.ui.xml"
    [(⟨"u", "r", "a"⟩, []), (⟨[], "b", []⟩,
      [⟨⟨"u", "c", "a"⟩, "d", some ⟨some ⟨nestedMarkup, "View.ui.xml"⟩, 17, 1, 18⟩, false⟩])]
    (by decide)
  exact ⟨d, hd, by rw [helements]; rfl, abbreviations_found_are_in_scope_iff hd⟩

/-- An element of a namespace with two abbreviations, of which its own tag declares the first
anew. -/
def shadowingMarkup : Text := "<root xmlns:a=\"u\" xmlns:c=\"u\"><c:x xmlns:a=\"v\"/></root>"

/-- The abbreviation found for an element need not stand for its namespace where it is. -/
theorem shadowingMarkup_is_abbreviated_wrongly :
    ¬ ∀ source url d, Document.load source url = .ok d →
      List.Forall₂ (fun t e => ∀ isElement n, Carries e isElement n → n.InScope t.path)
        (tagsOf source) d.elements := by
  intro hall
  obtain ⟨d, hd, helements⟩ := exists_document_of_elements shadowingMarkup "View.ui.xml"
    [(⟨[], "root", []⟩, []), (⟨"u", "x", "a"⟩, [])]
    (by decide)
  have htags : tagsOf shadowingMarkup =
      [⟨⟨⟨[], "root"⟩, [(⟨"xmlns", "a"⟩, "u"), (⟨"xmlns", "c"⟩, "u")]⟩, []⟩,
        ⟨⟨⟨"c", "x"⟩, [(⟨"xmlns", "a"⟩, "v")]⟩,
          [⟨⟨[], "root"⟩, [(⟨"xmlns", "a"⟩, "u"), (⟨"xmlns", "c"⟩, "u")]⟩]⟩] := by decide
  have hscopes := hall _ _ d hd
  rw [htags, helements] at hscopes
  obtain _ | ⟨-, _ | ⟨hchild, -⟩⟩ := hscopes
  exact absurd (hchild true _ .element) (by unfold Name.InScope; decide)

/-! ## Abbreviations without declaration -/

namespace PlacedTag

/-- A name the tag writes, of the element or of an attribute. -/
inductive Writes (t : PlacedTag) : Bool → RawName → Prop
  | element : Writes t true t.tag.name
  | inside {a : RawName × Text} (ha : a ∈ t.tag.attributes) : Writes t false a.1

/-- The abbreviation of a name needs a declaration, and neither the tag nor one around it has it. -/
structure Undeclared (t : PlacedTag) (raw : RawName) : Prop where
  abbreviated : raw.lead ≠ []
  ordinary : raw.lead ≠ "xml" ∧ raw.lead ≠ "xmlns"
  missing : (scopeOf t.path).lookup raw.lead = none

/-- An abbreviation is spelled like a namespace that has one in the tag. -/
def Spelled (t : PlacedTag) (isElement : Bool) (raw : RawName) : Prop :=
  ∃ scope ∈ recordedOf t.path, ∃ lead, Offers scope isElement raw.lead lead

variable {t : PlacedTag} {isElement : Bool} {raw : RawName}

/-- Without declaration an abbreviation is its own namespace. -/
theorem Undeclared.namespaceOf (h : t.Undeclared raw) (isElement : Bool) :
    namespaceOf (scopeOf t.path) isElement raw = raw.lead := by
  unfold Markup.namespaceOf
  simp [h.abbreviated, h.ordinary, h.missing]

theorem Undeclared.isDeclaration_resolved (h : t.Undeclared raw) :
    (raw.resolved (scopeOf t.path)).isDeclaration = false := by
  simp [RawName.resolved, RawName.isDeclaration, h.namespaceOf, h.abbreviated, h.ordinary]

/-- A name that is read needs an abbreviation for its namespace. -/
theorem Loads.isSome_nameIn? {e : Name × List Attribute} (h : t.Loads e)
    (hraw : t.Writes isElement raw) (hundeclared : t.Undeclared raw) :
    (nameIn? t.path isElement raw).isSome = true := by
  cases hraw with
  | element => simp [h.name]
  | @inside a ha =>
    have hkept : a ∈ t.kept := by
      simp [kept, ha, hundeclared.isDeclaration_resolved]
    obtain ⟨_, -, hread, -⟩ := exists_of_forall₂_right h.attributes.flip hkept
    simp [hread]

/-- The namespace `xml` has its name from no abbreviation, since it holds a colon. -/
theorem lead_ne_xmlUri (h : raw.Spelt) : raw.lead ≠ xmlUri := by
  intro hsame
  exact h.lead (hsame ▸ by decide)

theorem spelt_of_writes {source : Text} (ht : t ∈ tagsOf source)
    (hraw : t.Writes isElement raw) : raw.Spelt := by
  cases hraw with
  | element => exact (spelt_of_mem_tagsOf ht).1
  | inside ha => exact ((spelt_of_mem_tagsOf ht).2 _ ha).1

theorem isSome_nameIn?_iff {source : Text} (ht : t ∈ tagsOf source)
    (hraw : t.Writes isElement raw) (hundeclared : t.Undeclared raw) :
    (nameIn? t.path isElement raw).isSome = true ↔ t.Spelled isElement raw := by
  have hxml := lead_ne_xmlUri (spelt_of_writes ht hraw)
  unfold nameIn? Spelled
  rw [hundeclared.namespaceOf, Option.isSome_map, leadFor_isSome_iff hundeclared.abbreviated hxml]

end PlacedTag

/-- A source in which a tag writes an abbreviation that is declared nowhere around it is refused,
unless the abbreviation is spelled like a namespace that can be abbreviated there: then the name is
taken to be in that namespace. -/
theorem undeclared_abbreviation_is_refused_unless_spelled {source : Text} {t : PlacedTag}
    (ht : t ∈ tagsOf source) {isElement : Bool} {raw : RawName} (hraw : t.Writes isElement raw)
    (hundeclared : t.Undeclared raw) (url : Text) :
    (¬ t.Spelled isElement raw →
      ∃ d, Document.load source url = .error (.one d) ∧ d.kind = .structural) ∧
    (t.Spelled isElement raw →
      ∃ lead, nameIn? t.path isElement raw = some ⟨raw.lead, raw.base, lead⟩) := by
  rw [← PlacedTag.isSome_nameIn?_iff ht hraw hundeclared]
  constructor
  · intro hnone
    cases hload : Document.load source url with
    | error failure =>
      obtain ⟨d, rfl, hkind⟩ := Document.failsBy_load source url failure hload
      exact ⟨d, rfl, hkind⟩
    | ok d =>
      obtain ⟨e, -, hloads⟩ := exists_of_forall₂_right (Document.loads_tags hload).flip ht
      exact absurd (hloads.isSome_nameIn? hraw hundeclared) hnone
  · intro hsome
    obtain ⟨n, hn⟩ := Option.isSome_iff_exists.mp hsome
    obtain ⟨lead, -, hlead⟩ := Option.map_eq_some_iff.mp hn
    rw [hundeclared.namespaceOf] at hlead
    exact ⟨lead, by rw [hn, hlead]⟩

/-- An element whose abbreviation nobody declares. -/
def undeclaredMarkup : Text := "<root xmlns:a=\"q\"><p:x/></root>"

/-- The opening tag of that element. -/
def undeclaredTag : PlacedTag :=
  ⟨⟨⟨"p", "x"⟩, []⟩, [⟨⟨[], "root"⟩, [(⟨"xmlns", "a"⟩, "q")]⟩]⟩

theorem undeclaredMarkup_is_refused : undeclaredTag ∈ tagsOf undeclaredMarkup ∧
    ∃ d, Document.load undeclaredMarkup "View.ui.xml" = .error (.one d) ∧
      d.kind = .structural := by
  have ht : undeclaredTag ∈ tagsOf undeclaredMarkup := by decide
  have hundeclared : undeclaredTag.Undeclared ⟨"p", "x"⟩ :=
    ⟨by decide, by decide, by decide⟩
  refine ⟨ht, (undeclared_abbreviation_is_refused_unless_spelled ht .element hundeclared _).1 ?_⟩
  rw [← PlacedTag.isSome_nameIn?_iff ht .element hundeclared]
  decide

/-- An element whose abbreviation nobody declares, but which is the name of a namespace. -/
def spelledMarkup : Text := "<root xmlns:a=\"p\"><p:x/></root>"

/-- Without declaration an element is accepted if a namespace is called like its abbreviation. -/
theorem spelledMarkup_is_accepted :
    (∃ d, Document.load spelledMarkup "View.ui.xml" = .ok d ∧
      d.elements.map (·.1) = [⟨[], "root", []⟩, ⟨"p", "x", "a"⟩]) ∧
    ¬ ∀ source url t isElement raw, t ∈ tagsOf source → t.Writes isElement raw →
      t.Undeclared raw →
      ∃ d, Document.load source url = .error (.one d) ∧ d.kind = .structural := by
  obtain ⟨d, hd, helements⟩ := exists_document_of_elements spelledMarkup "View.ui.xml"
    [(⟨[], "root", []⟩, []), (⟨"p", "x", "a"⟩, [])]
    (by decide)
  refine ⟨⟨d, hd, by rw [helements]; rfl⟩, fun hall => ?_⟩
  obtain ⟨_, hfailed, -⟩ := hall spelledMarkup "View.ui.xml"
    ⟨⟨⟨"p", "x"⟩, []⟩, [⟨⟨[], "root"⟩, [(⟨"xmlns", "a"⟩, "p")]⟩]⟩ true ⟨"p", "x"⟩
    (by decide) .element ⟨by decide, by decide, by decide⟩
  rw [hd] at hfailed
  cases hfailed

end ViewBinder.Markup
