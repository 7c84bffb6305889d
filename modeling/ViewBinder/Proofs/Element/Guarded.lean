-- Elements of guarded sessions. Every rule of an element is safe if the building of what lies in the
-- element is; only a tree that is asked to hold a widget and has no way to can crash. So building
-- elements of any depth is safe.
import ViewBinder.Element.Build
import ViewBinder.Proofs.Session.Content

namespace ViewBinder.Element

open Markup (Document)
open Session
open Work (Safe)

variable {D : Document} {c : Catalog} {B : Session → Prop} {build : Builder} {e : Nat}

/-! ## Constructing fields -/

theorem safe_bindArguments {params : List Param} (hparams : ∀ p ∈ params, p.type.isSome) (e : Nat)
    (names : List Text) : Safe (Guarded D c) B (bindArguments e names params) := by
  unfold bindArguments
  refine Safe.mapMMem fun entry hentry => ?_
  have : Given entry.2.type := ⟨hparams entry.2 (List.of_mem_zip hentry).2⟩
  infer_instance

instance (e : Nat) (type : TypeId) : Safe (Guarded D c) B (constructed e type) := by
  unfold constructed
  refine safe_getCatalog fun c' hc' => ?_
  dsimp only
  split
  · rename_i m hm
    have := safe_bindArguments (D := D) (c := c) (B := B)
      ((hc'.describe type).constructor m (Option.mem_def.mpr hm)) e
    refine Safe.bind' inferInstance fun d => ?_
    repeat' (first | infer_instance | split)
  · split <;> infer_instance

instance (e : Nat) (type : TypeId) : Safe (Guarded D c) B (initializer e type) := by
  unfold initializer
  refine Safe.read fun s hs => ?_
  split
  · rename_i factory hfactory
    obtain ⟨traits, htraits, hlookup⟩ := Option.bind_eq_some_iff.mp hfactory
    obtain ⟨before, after, hentries, -⟩ := List.lookup_eq_some_iff.mp hlookup
    have htyped : factory.Typed := (hs.owner traits (Option.mem_def.mpr htraits)).factories
      (_, factory) (hentries ▸ List.mem_append_right _ List.mem_cons_self)
    have := safe_bindArguments (D := D) (c := c) (B := B) htyped e
    infer_instance
  · infer_instance

instance (e : Nat) (failure : Failure) : Safe (Guarded D c) B (reportFailure e failure) :=
  Safe.modify fun _ hs => { hs with draft := hs.draft.withOthers _ _ _ }

/-- The value of an attribute may turn out to be unusable, but reading it does not crash. -/
instance (e : Nat) (f : FieldId) (type : TypeId) (i : Nat) (a : Markup.Attribute) :
    Safe (Guarded D c) B (setProperty e f type i a) := by
  unfold setProperty
  refine safe_getCatalog fun c' hc' => Safe.bind' inferInstance fun d => ?_
  dsimp only
  split
  · infer_instance
  · rename_i setter hsetters
    have htyped := hc'.setters setter (hsetters ▸ List.mem_singleton_self setter)
    have := Method.Typed.allGiven htyped
    refine Safe.bind' (safe_setDocument fun d => d.sameTree_useAttribute e i) fun _ => ?_
    refine Safe.attempted inferInstance fun answer hanswer => ?_
    split
    · infer_instance
    · exact absurd rfl hanswer
    · infer_instance
  · infer_instance

instance (e : Nat) (f : FieldId) (type : TypeId) : Safe (Guarded D c) B (properties e f type) := by
  have hsetters : Safe (Guarded D c) B (do
      let attributes := ((← getDocument).remaining e).filter fun a => a.2.name.uri.isEmpty
      let answers ← attributes.mapM fun (i, a) => setProperty e f type i a
      if !answers.all id then
        match (← get).log.failure? with
        | some failure => throw failure
        | none => return () : Work Session Unit) := by
    refine Safe.bind' inferInstance fun d => Safe.bind' inferInstance fun answers => ?_
    split
    · exact Safe.failing
    · infer_instance
  unfold properties
  infer_instance

instance (e : Nat) : Safe (Guarded D c) B (nothingLeft e) := by
  unfold nothingLeft
  infer_instance

/-! ## Messages and child tags -/

instance (e : Nat) : Safe (Guarded D c) B (attributeMessages e) := by
  unfold attributeMessages
  infer_instance

theorem safe_onlyChild (hbuild : SafeBelow D e build) (wanted : Option TypeId) :
    Safe (Guarded D c) HasBareTree (onlyChild build e wanted) := by
  unfold onlyChild
  refine safe_takeSingleChild fun child hchild => ?_
  have := hbuild c hchild
  infer_instance

theorem safe_onlyWidget (hbuild : SafeBelow D e build) :
    Safe (Guarded D c) HasBareTree (onlyWidget build e) := by
  unfold onlyWidget
  refine safe_takeSingleChild fun child hchild => ?_
  have := hbuild c hchild
  infer_instance

theorem safe_childTag {child : Nat} (hbuild : SafeBelow D child build) {slot : ChildSlot}
    (hslot : slot.method.Typed) (e : Nat) (f : FieldId) (used : Nat) :
    Safe (Guarded D c) HasBareTree (childTag build e f child used slot) := by
  unfold Method.Typed at hslot
  unfold childTag
  refine Safe.bind' inferInstance fun c' => ?_
  cases hparams : slot.method.params with
  | nil => infer_instance
  | cons widget others =>
    rw [hparams] at hslot
    have := safe_bindArguments (D := D) (c := c) (B := HasBareTree)
      (List.forall_mem_cons.mp hslot).2 child
    have := fun wanted => safe_onlyChild (c := c) hbuild wanted
    infer_instance

theorem safe_childTagsFrom (hbuild : SafeBelow D e build) {d : Descriptor} (hd : d.Typed)
    (f : FieldId) (seen : List Text) {children : List Nat}
    (hchildren : ∀ child ∈ children, D.Below e child) :
    Safe (Guarded D c) HasBareTree (childTagsFrom build e f d seen children) := by
  induction children generalizing seen with
  | nil =>
    unfold childTagsFrom
    infer_instance
  | cons child rest ih =>
    obtain ⟨hchild, hrest⟩ := List.forall_mem_cons.mp hchildren
    have := fun seen => ih seen hrest
    unfold childTagsFrom
    refine Safe.bind' inferInstance fun doc => ?_
    dsimp only
    split
    · rename_i slot hslot
      have htyped := hd.slots slot (List.mem_of_find?_eq_some hslot)
      have := safe_childTag (c := c) (hbuild.deeper hchild) htyped e f
      infer_instance
    · infer_instance

theorem safe_childTags (hbuild : SafeBelow D e build) (f : FieldId) (type : TypeId) :
    Safe (Guarded D c) HasBareTree (childTags build e f type) := by
  unfold childTags
  refine safe_getCatalog fun c' hc' => ?_
  dsimp only
  split
  · infer_instance
  · refine Safe.bind' inferInstance fun doc => safe_takeChildrenWhere fun children hchildren => ?_
    exact safe_childTagsFrom hbuild (hc'.describe type) f [] hchildren

/-! ## Bodies -/

instance (e : Nat) (f : FieldId) : Safe (Guarded D c) B (styledObject e f) := by
  have hlists : ∀ text : TypeId, Safe (Guarded D c) B (do
      for (attr, method) in styleLists do
        match ← Document.takeRaw e attr with
        | some value =>
          for name in listedNames value do
            call f method [← readValue e name [some text]]
        | none => pure () : Work Session Unit) := by
    intro text
    refine Safe.bind' (Safe.forInMem fun (attr, method) _ _ => ?_) fun _ => inferInstance
    refine Safe.bind' inferInstance fun found => ?_
    split <;> infer_instance
  unfold styledObject
  refine safe_found fun text => Safe.bind' inferInstance fun id => ?_
  split <;> infer_instance

theorem safe_bodyText (hbuild : SafeBelow D e build) (f : FieldId) :
    Safe (Guarded D c) HasBareTree (bodyText build e f) := by
  have := fun kind => Content.safe_inner (c := c) hbuild kind
  unfold bodyText
  infer_instance

theorem safe_bodyMarkup (hbuild : SafeBelow D e build) (f : FieldId) :
    Safe (Guarded D c) HasBareTree (bodyMarkup build e f) := by
  have := Content.safe_markupLiteral (c := c) hbuild
  unfold bodyMarkup
  infer_instance

theorem safe_domElement (hbuild : SafeBelow D e build) (f : FieldId) (type : TypeId) :
    Safe (Guarded D c) HasBareTree (domElement build e f type) := by
  have := fun expr => safe_attached expr (fun _ hs => hs)
    (Content.safe_outer (c := c) hbuild true false)
  unfold domElement
  repeat' (first | infer_instance | split | refine Safe.bind' inferInstance fun _ => ?_)

theorem safe_panelLiteral (hbuild : SafeBelow D e build) (f : FieldId) (stamped : Bool) :
    Safe (Guarded D c) HasBareTree (panelLiteral build e f stamped) := by
  have := fun expr => safe_attached expr (fun _ hs => hs)
    (Content.safe_inner (c := c) hbuild (.markup true (some f) stamped))
  unfold panelLiteral
  infer_instance

theorem safe_markupPanel (hbuild : SafeBelow D e build) (f : FieldId) (type : TypeId) :
    Safe (Guarded D c) HasBareTree (markupPanel build e f type) := by
  have := safe_panelLiteral (c := c) hbuild f
  unfold markupPanel
  refine safe_found fun text => Safe.bind' inferInstance fun tag => ?_
  refine Safe.bind' inferInstance fun html => ?_
  split <;> infer_instance

theorem safe_stampedPanel (hbuild : SafeBelow D e build) (f : FieldId) (type : TypeId) :
    Safe (Guarded D c) HasBareTree (stampedPanel build e f type) := by
  have := safe_panelLiteral (c := c) hbuild f
  unfold stampedPanel
  infer_instance

/-! ## Panels -/

/-- The child can be built as a widget. -/
instance (e child : Nat) [Safe (Guarded D c) HasBareTree (build child)] :
    Safe (Guarded D c) HasBareTree (widgetChild build e child) := by
  unfold widgetChild
  infer_instance

instance {α : Type} (allowed : Text) (parent child : Nat) :
    Safe (Guarded D c) B (failOnlyChildren allowed parent child : Work Session α) := by
  unfold failOnlyChildren
  infer_instance

theorem safe_widgets (hbuild : SafeBelow D e build) (f : FieldId) :
    Safe (Guarded D c) HasBareTree (widgets build e f) := by
  unfold widgets
  refine safe_takeChildren fun children hchildren => ?_
  refine Safe.bind' (Safe.forInMem fun child hchild _ => ?_) fun _ => inferInstance
  have := hbuild c (hchildren child hchild)
  infer_instance

/-- The types of alignments are expected. -/
instance (e : Nat) (f : FieldId) : Safe (Guarded D c) B (alignment e f) := by
  unfold alignment
  refine Safe.bind' (Safe.forInMem fun (attr, typeName, method) hentry _ => ?_) fun _ =>
    inferInstance
  have : Expected (keyOf Library.uiPackage typeName) := by
    simp only [alignments, List.mem_cons, Prod.mk.injEq, List.not_mem_nil, or_false] at hentry
    obtain ⟨-, rfl, -⟩ | ⟨-, rfl, -⟩ := hentry <;> infer_instance
  refine safe_found fun type => Safe.bind' inferInstance fun found => ?_
  split <;> infer_instance

theorem safe_dockCenter {child : Nat} (hbuild : SafeBelow D child build) (e : Nat) (f : FieldId)
    (centers : Nat) : Safe (Guarded D c) HasBareTree (dockCenter build e f child centers) := by
  have := safe_onlyWidget (c := c) hbuild
  unfold dockCenter
  infer_instance

theorem safe_dockSide {child : Nat} (hbuild : SafeBelow D child build) (e : Nat) (f : FieldId) :
    Safe (Guarded D c) HasBareTree (dockSide build e f child) := by
  have := safe_onlyWidget (c := c) hbuild
  unfold dockSide
  refine Safe.bind' inferInstance fun d => ?_
  split <;> infer_instance

theorem safe_dockFrom (hbuild : SafeBelow D e build) (f : FieldId) (centers : Nat)
    {children : List Nat} (hchildren : ∀ child ∈ children, D.Below e child) :
    Safe (Guarded D c) HasBareTree (dockFrom build e f centers children) := by
  induction children generalizing centers with
  | nil =>
    unfold dockFrom
    infer_instance
  | cons child rest ih =>
    obtain ⟨hchild, hrest⟩ := List.forall_mem_cons.mp hchildren
    have := fun centers => ih centers hrest
    have := fun centers => safe_dockCenter (c := c) (hbuild.deeper hchild) e f centers
    have := safe_dockSide (c := c) (hbuild.deeper hchild) e f
    unfold dockFrom
    infer_instance

theorem safe_dock (hbuild : SafeBelow D e build) (f : FieldId) :
    Safe (Guarded D c) HasBareTree (dock build e f) := by
  unfold dock
  exact safe_takeChildren fun children hchildren => safe_dockFrom hbuild f 0 hchildren

theorem safe_readHeader {tag : Nat} (hbuild : SafeBelow D tag build) (e : Nat) (sized : Bool) :
    Safe (Guarded D c) HasBareTree (readHeader build e tag sized) := by
  have := safe_onlyWidget (c := c) hbuild
  have := Content.safe_markupLiteral (c := c) hbuild
  unfold readHeader
  split <;> infer_instance

/-- The header tag that an item is split into is one of its slots. -/
theorem splitItem_header {item : Nat} {header : Option Nat} {content : Option FieldId}
    {slots : List Nat} {s s' : Session} {tag : Nat} {g : FieldId}
    (h : (splitItem build e item header content slots).runOn s = (.ok (tag, g), s')) :
    header = some tag ∨ tag ∈ slots := by
  induction slots generalizing header content s with
  | nil =>
    unfold splitItem at h
    split at h
    · cases h
      exact Or.inl rfl
    · cases h
  | cons child rest ih =>
    unfold splitItem at h
    obtain ⟨d, s₁, -, h⟩ := Work.bind_ok h
    split at h
    · split at h
      · cases h
      · rcases ih h with hhere | hlater
        · cases hhere
          exact Or.inr List.mem_cons_self
        · exact Or.inr (List.mem_cons_of_mem _ hlater)
    · split at h
      · cases h
      · obtain ⟨g', s₂, -, h⟩ := Work.bind_ok h
        exact (ih h).imp_right (List.mem_cons_of_mem _)

theorem safe_splitItem {item : Nat} (hbuild : SafeBelow D item build) (e : Nat)
    (header : Option Nat) (content : Option FieldId) {slots : List Nat}
    (hslots : ∀ child ∈ slots, D.Below item child) :
    Safe (Guarded D c) HasBareTree (splitItem build e item header content slots) := by
  induction slots generalizing header content with
  | nil =>
    unfold splitItem
    split <;> infer_instance
  | cons child rest ih =>
    obtain ⟨hchild, hrest⟩ := List.forall_mem_cons.mp hslots
    have := fun header content => ih header content hrest
    have := hbuild c hchild
    unfold splitItem
    infer_instance

/-- An item is read, and what follows gets a tag of the item. -/
theorem safe_readItem {α : Type} {item : Nat} (hbuild : SafeBelow D item build) (e : Nat)
    {k : Nat × FieldId → Work Session α}
    (hk : ∀ tag g, D.Below item tag → Safe (Guarded D c) HasBareTree (k (tag, g))) :
    Safe (Guarded D c) HasBareTree (readItem build e item >>= k) := by
  unfold readItem
  rw [bind_assoc]
  refine Safe.bind' inferInstance fun _ => ?_
  rw [bind_assoc]
  refine safe_takeChildren fun children hchildren => ?_
  refine (safe_splitItem hbuild e none none hchildren).after
    (Q := fun found => D.Below item found.1) (fun {s found s'} _ hrun => ?_)
    fun found => hk found.1 found.2
  rcases splitItem_header hrun with hnone | htag
  · cases hnone
  · exact hchildren _ htag

theorem safe_stack (hbuild : SafeBelow D e build) (f : FieldId) :
    Safe (Guarded D c) HasBareTree (stack build e f) := by
  unfold stack
  refine safe_takeChildren fun children hchildren => ?_
  refine Safe.bind' (Safe.forInMem fun child hchild _ => ?_) fun _ => inferInstance
  have hbelow := hbuild.deeper (hchildren child hchild)
  refine Safe.bind' inferInstance fun d => Safe.checked inferInstance fun _ => ?_
  refine safe_readItem hbelow e fun tag content htag => ?_
  refine Safe.bind' (safe_readHeader (hbelow.deeper htag) e true) fun entry => ?_
  obtain ⟨header, size⟩ := entry
  refine Safe.bind' inferInstance fun name => ?_
  cases header <;> infer_instance

theorem safe_tabs (hbuild : SafeBelow D e build) (f : FieldId) :
    Safe (Guarded D c) HasBareTree (tabs build e f) := by
  unfold tabs
  refine safe_takeChildren fun children hchildren => ?_
  refine Safe.bind' (Safe.forInMem fun child hchild _ => ?_) fun _ => inferInstance
  have hbelow := hbuild.deeper (hchildren child hchild)
  refine Safe.bind' inferInstance fun d => Safe.checked inferInstance fun _ => ?_
  refine safe_readItem hbelow e fun tag content htag => ?_
  refine Safe.bind' (safe_readHeader (hbelow.deeper htag) e false) fun entry => ?_
  obtain ⟨header, _⟩ := entry
  refine Safe.bind' inferInstance fun name => ?_
  cases header <;> infer_instance

instance (e : Nat) (pairs : List (Text × Text)) : Safe (Guarded D c) B (pickPair e pairs) := by
  unfold pickPair
  repeat' (first | infer_instance | split | refine Safe.bind' inferInstance fun _ => ?_)

instance (e : Nat) (pairs : List (Text × Text)) : Safe (Guarded D c) B (placement? e pairs) := by
  unfold placement?
  refine safe_found fun float => safe_found fun unit => ?_
  dsimp only
  refine Safe.bind' inferInstance fun pair => ?_
  split <;> infer_instance

theorem safe_layers (hbuild : SafeBelow D e build) (f : FieldId) :
    Safe (Guarded D c) HasBareTree (layers build e f) := by
  unfold layers
  refine safe_takeChildren fun children hchildren => ?_
  refine Safe.bind' (Safe.forInMem fun child hchild _ => ?_) fun _ => inferInstance
  have := safe_onlyWidget (c := c) (hbuild.deeper (hchildren child hchild))
  repeat' (first | infer_instance | split | refine Safe.bind' inferInstance fun _ => ?_)

theorem safe_absolute (hbuild : SafeBelow D e build) (f : FieldId) :
    Safe (Guarded D c) HasBareTree (absolute build e f) := by
  unfold absolute
  refine safe_found fun whole => safe_takeChildren fun children hchildren => ?_
  refine Safe.bind' (Safe.forInMem fun child hchild _ => ?_) fun _ => inferInstance
  have := hbuild c (hchildren child hchild)
  have := safe_onlyWidget (c := c) (hbuild.deeper (hchildren child hchild))
  refine Safe.bind' inferInstance fun d => ?_
  split <;> infer_instance

/-- The types of the attributes of a cell are expected. -/
theorem safe_cell {tag : Nat} (hbuild : SafeBelow D tag build) (f : FieldId) (pattern : Text) :
    Safe (Guarded D c) HasBareTree (cell build f tag pattern) := by
  have := safe_onlyWidget (c := c) hbuild
  unfold cell
  refine Safe.bind' (Safe.mapMMem fun entry hentry => ?_) fun settings => ?_
  · obtain ⟨attr, typeName, method⟩ := entry
    simp only [cellAttributes, List.mem_cons, Prod.mk.injEq, List.not_mem_nil, or_false] at hentry
    obtain ⟨-, rfl, -⟩ | ⟨-, rfl, -⟩ | ⟨-, rfl, -⟩ | ⟨-, rfl, -⟩ := hentry
    · refine safe_found fun text => ?_
      simp only [pure_bind]
      infer_instance
    · refine safe_found fun text => ?_
      simp only [pure_bind]
      infer_instance
    · refine Safe.bind' inferInstance fun found => ?_
      cases found <;> (simp only [pure_bind]; infer_instance)
    · refine Safe.bind' inferInstance fun found => ?_
      cases found <;> (simp only [pure_bind]; infer_instance)
  · refine Safe.bind' inferInstance fun _ => Safe.bind' inferInstance fun g => ?_
    refine Safe.bind' inferInstance fun name => Safe.bind' inferInstance fun panel => ?_
    refine Safe.bind' inferInstance fun _ => ?_
    exact Safe.bind' (Safe.forInMem fun _ _ _ => inferInstance) fun _ => inferInstance

theorem safe_dockCell {child : Nat} (hbuild : SafeBelow D child build) (e : Nat) (f : FieldId)
    (type : TypeId) : Safe (Guarded D c) HasBareTree (dockCell build e f type child) := by
  have := fun pattern => safe_cell (c := c) hbuild f pattern
  unfold dockCell
  refine safe_getCatalog fun c' hc' => ?_
  split
  · rename_i widget direction _ _ hmethod
    have : Given direction.type := ⟨hc'.method? hmethod direction (by simp)⟩
    infer_instance
  · infer_instance

theorem safe_cells (hbuild : SafeBelow D e build) (f : FieldId) (type : TypeId) :
    Safe (Guarded D c) HasBareTree (cells build e f type) := by
  unfold cells
  refine safe_takeChildren fun children hchildren => ?_
  refine Safe.bind' (Safe.forInMem fun child hchild _ => ?_) fun _ => inferInstance
  have hbelow := hbuild.deeper (hchildren child hchild)
  have := fun pattern => safe_cell (c := c) hbelow f pattern
  have := safe_dockCell (c := c) hbelow e f type
  have := hbuild c (hchildren child hchild)
  infer_instance

instance (f : FieldId) (tag : Nat) : Safe (Guarded D c) B (headerImages f tag) := by
  unfold headerImages
  infer_instance

theorem safe_disclosureFrom (hbuild : SafeBelow D e build) (f : FieldId) (filled : Bool)
    {children : List Nat} (hchildren : ∀ child ∈ children, D.Below e child) :
    Safe (Guarded D c) HasBareTree (disclosureFrom build e f filled children) := by
  induction children generalizing filled with
  | nil =>
    unfold disclosureFrom
    infer_instance
  | cons child rest ih =>
    obtain ⟨hchild, hrest⟩ := List.forall_mem_cons.mp hchildren
    have := fun filled => ih filled hrest
    have := safe_onlyWidget (c := c) (hbuild.deeper hchild)
    have := hbuild c hchild
    unfold disclosureFrom
    repeat' (first | infer_instance | split | refine Safe.bind' inferInstance fun _ => ?_)

theorem safe_disclosure (hbuild : SafeBelow D e build) (f : FieldId) :
    Safe (Guarded D c) HasBareTree (disclosure build e f) := by
  unfold disclosure
  exact safe_takeChildren fun children hchildren => safe_disclosureFrom hbuild f false hchildren

/-! ## Items -/

instance (child : Nat) (wanted : Option TypeId) : Safe (Guarded D c) B (isOf child wanted) := by
  unfold isOf
  infer_instance

theorem safe_menuBar (hbuild : SafeBelow D e build) (f : FieldId) (type : TypeId) :
    Safe (Guarded D c) HasBareTree (menuBar build e f type) := by
  have hitems : Safe (Guarded D c) HasBareTree (do
      let item ← uiType "MenuItem"
      let separator ← uiType "MenuItemSeparator"
      for child in ← Document.takeChildren e do
        if ← isOf child item then
          call f "AddItem" [← Draft.use (← Content.buildChild build e child item)]
        else if ← isOf child separator then
          call f "AddSeparator" [← Draft.use (← Content.buildChild build e child separator)]
        else failOnlyChildren "MenuItem or MenuItemSeparator" e child : Work Session Unit) := by
    refine Safe.bind' inferInstance fun item => Safe.bind' inferInstance fun separator => ?_
    refine safe_takeChildren fun children hchildren => ?_
    refine Safe.bind' (Safe.forInMem fun child hchild _ => ?_) fun _ => inferInstance
    have := hbuild c (hchildren child hchild)
    infer_instance
  unfold menuBar
  refine safe_found fun boolean => Safe.bind' inferInstance fun made => ?_
  split <;> infer_instance

theorem safe_menuText (hbuild : SafeBelow D e build) :
    Safe (Guarded D c) HasBareTree (menuText build e) := by
  have := Content.safe_markupLiteral (c := c) hbuild
  unfold menuText
  refine safe_found fun text => Safe.bind' inferInstance fun found => safe_found fun bool => ?_
  refine Safe.bind' inferInstance fun asMarkup => ?_
  split <;> infer_instance

theorem safe_menuItem (hbuild : SafeBelow D e build) (f : FieldId) (type : TypeId) :
    Safe (Guarded D c) HasBareTree (menuItem build e f type) := by
  have := safe_menuText (c := c) hbuild
  unfold menuItem
  refine Safe.bind' inferInstance fun bar => Safe.bind' inferInstance fun c' => ?_
  refine Safe.bind' inferInstance fun d => safe_takeChildrenWhere fun menus hmenus => ?_
  have hmenu : Safe (Guarded D c) HasBareTree (do
      for menu in menus do
        call f "SetSubMenu" [← Draft.use (← Content.buildChild build e menu bar)] :
      Work Session Unit) := by
    refine Safe.bind' (Safe.forInMem fun menu hmem _ => ?_) fun _ => inferInstance
    have := hbuild c (hmenus menu hmem)
    infer_instance
  dsimp only
  split <;> infer_instance

instance (e : Nat) (f : FieldId) : Safe (Guarded D c) B (listBox e f) := by
  unfold listBox
  refine safe_found fun text => Safe.bind' inferInstance fun children => ?_
  refine Safe.bind' (Safe.forInMem fun child _ _ => ?_) fun _ => inferInstance
  refine Safe.bind' inferInstance fun d => ?_
  repeat' (first | infer_instance | split | refine Safe.bind' inferInstance fun _ => ?_)

theorem safe_gridCell {child : Nat} (hbuild : SafeBelow D child build) (e row : Nat) :
    Safe (Guarded D c) HasBareTree (gridCell build e row child) := by
  have := safe_onlyWidget (c := c) hbuild
  have := Content.safe_markupLiteral (c := c) hbuild
  unfold gridCell
  refine safe_found fun text => Safe.bind' inferInstance fun style => ?_
  infer_instance

theorem safe_gridRow {row : Nat} (hbuild : SafeBelow D row build) (e : Nat) :
    Safe (Guarded D c) HasBareTree (gridRow build e row) := by
  have hcells : Safe (Guarded D c) HasBareTree (do
      let style ← take? row "styleName" [← primitive "string"]
      Document.assertNoAttributes row
      let cells ← (← Document.takeChildren row).mapM (gridCell build e row)
      return ⟨style, cells⟩ : Work Session GridRow) := by
    refine safe_found fun text => Safe.bind' inferInstance fun style => ?_
    refine Safe.bind' inferInstance fun _ => safe_takeChildren fun children hchildren => ?_
    refine Safe.bind' (Safe.mapMMem fun child hchild => ?_) fun cells => inferInstance
    exact safe_gridCell (hbuild.deeper (hchildren child hchild)) e row
  unfold gridRow
  infer_instance

instance (f : FieldId) (row column : Nat) (cell : GridCell) :
    Safe (Guarded D c) B (fillCell f row column cell) := by
  unfold fillCell
  repeat' (first | infer_instance | split)

theorem safe_grid (hbuild : SafeBelow D e build) (f : FieldId) :
    Safe (Guarded D c) HasBareTree (grid build e f) := by
  unfold grid
  refine safe_takeChildren fun children hchildren => ?_
  refine Safe.bind' (Safe.mapMMem fun row hrow => ?_) fun rows => ?_
  · exact safe_gridRow (hbuild.deeper (hchildren row hrow)) e
  · split
    · infer_instance
    · refine Safe.bind' inferInstance fun _ => ?_
      refine Safe.bind' (Safe.forInMem fun _ _ _ => ?_) fun _ => ?_
      · dsimp only
        split <;> infer_instance
      · refine Safe.bind' (Safe.forInMem fun _ _ _ => ?_) fun _ => inferInstance
        exact Safe.bind' (Safe.forInMem fun _ _ _ => inferInstance) fun _ => inferInstance

/-- A tree that is asked to hold a widget and has no way to is the one thing that crashes. -/
theorem safe_treeItemsFrom (hbuild : SafeBelow D e build) (f : FieldId) {setWidget : Option Method}
    (hsetter : ∀ m ∈ setWidget, m.params = [] → ∀ c', c.Retains c' → c'.HasBareTree) (held : Bool)
    {children : List Nat} (hchildren : ∀ child ∈ children, D.Below e child) :
    Safe (Guarded D c) HasBareTree (treeItemsFrom build e f setWidget held children) := by
  induction children generalizing held with
  | nil =>
    unfold treeItemsFrom
    infer_instance
  | cons child rest ih =>
    obtain ⟨hchild, hrest⟩ := List.forall_mem_cons.mp hchildren
    have := fun held => ih held hrest
    have := hbuild c hchild
    unfold treeItemsFrom
    refine Safe.bind' inferInstance fun item => Safe.bind' inferInstance fun fits => ?_
    split
    · infer_instance
    · cases setWidget with
      | none => infer_instance
      | some method =>
        dsimp only
        cases hparams : method.params with
        | nil =>
          have hcrash : Safe (Guarded D c) HasBareTree (throw .crash : Work Session Unit) :=
            ⟨fun s hs => ⟨hs, fun _ => hsetter method rfl hparams _ hs.draft.retains⟩⟩
          infer_instance
        | cons widget others => infer_instance

theorem safe_treeItems (hbuild : SafeBelow D e build) (f : FieldId) {type : TypeId}
    (htree : c.IsTree type) :
    Safe (Guarded D c) HasBareTree (treeItems build e f type) := by
  unfold treeItems
  refine safe_takeImportedChildren fun children hchildren => safe_fromCatalog fun c' _ hc' => ?_
  refine safe_treeItemsFrom hbuild f (fun m hm hparams c'' hc'' => ?_) false hchildren
  exact (htree.later hc').bare hc'' (Option.mem_def.mp hm) hparams

theorem safe_facesFrom (hbuild : SafeBelow D e build) (f : FieldId) (seen : List Text)
    {found : List Nat} (hfound : ∀ face ∈ found, D.Below e face) :
    Safe (Guarded D c) HasBareTree (facesFrom build e f seen found) := by
  induction found generalizing seen with
  | nil =>
    unfold facesFrom
    infer_instance
  | cons face rest ih =>
    obtain ⟨hface, hrest⟩ := List.forall_mem_cons.mp hfound
    have := fun seen => ih seen hrest
    have := Content.safe_markupLiteral (c := c) (hbuild.deeper hface)
    have hread : ∀ base method, Safe (Guarded D c) HasBareTree (do
        match ← take? face "image" [← resourceType? "ImageResource"] with
        | some image => call f (method ++ "Image") [image]
        | none => pure ()
        Document.assertNoAttributes face
        if (← getDocument).hasContent face then
          call f method [← Content.markupLiteral build face]
        facesFrom build e f (base :: seen) rest : Work Session Unit) := by
      intro base method
      refine safe_found fun image => Safe.bind' inferInstance fun found => ?_
      split <;> infer_instance
    unfold facesFrom
    refine Safe.bind' inferInstance fun d => ?_
    dsimp only
    split
    · exact Safe.bind' inferInstance fun _ => hread _ _
    · exact hread _ _

theorem safe_faces (hbuild : SafeBelow D e build) (f : FieldId) :
    Safe (Guarded D c) HasBareTree (faces build e f) := by
  unfold faces
  refine Safe.bind' inferInstance fun d => safe_takeChildrenWhere fun found hfound => ?_
  exact safe_facesFrom hbuild f [] hfound

instance (e : Nat) (f : FieldId) (type : TypeId) : Safe (Guarded D c) B (image e f type) := by
  have hread : Safe (Guarded D c) B (do
      let resource ← resourceType? "ImageResource"
      let expr ← takeRequired e "resource" [resource]
      if ← isMade f then call f "SetResource" [expr]
      else
        let c ← getCatalog
        match c.constructor? type [resource] with
        | some m => Draft.setInitializer f (callText (← Draft.qualify type m.name) [expr])
        | none => failOn e fun _ => .noImageConstructor (c.simpleName type) : Work Session Unit) := by
    refine safe_found fun resource => Safe.bind' inferInstance fun expr => ?_
    refine Safe.bind' inferInstance fun made => ?_
    split
    · infer_instance
    · refine Safe.bind' inferInstance fun c' => ?_
      split <;> infer_instance
  unfold image
  infer_instance

/-! ## Building elements -/

/-- A rule that an element of a type follows. -/
theorem safe_follow (hbuild : SafeBelow D e build) (f : FieldId) {type : TypeId} {rule : Rule}
    (hrule : rule ∈ Rule.chain c type) :
    Safe (Guarded D c) HasBareTree (follow build e f type rule) := by
  cases rule <;> unfold follow
  case childTags => exact safe_childTags hbuild f type
  case bodyText => exact safe_bodyText hbuild f
  case bodyMarkup => exact safe_bodyMarkup hbuild f
  case widgets => exact safe_widgets hbuild f
  case markupPanel => exact safe_markupPanel hbuild f type
  case stampedPanel => exact safe_stampedPanel hbuild f type
  case dock => exact safe_dock hbuild f
  case stack => exact safe_stack hbuild f
  case tabs => exact safe_tabs hbuild f
  case layers => exact safe_layers hbuild f
  case absolute => exact safe_absolute hbuild f
  case cells => exact safe_cells hbuild f type
  case disclosure => exact safe_disclosure hbuild f
  case menuBar => exact safe_menuBar hbuild f type
  case menuItem => exact safe_menuItem hbuild f type
  case grid => exact safe_grid hbuild f
  case faces => exact safe_faces hbuild f
  case treeItems => exact safe_treeItems hbuild f (Catalog.isTree_of_mem_chain hrule)
  case domElement => exact safe_domElement hbuild f type
  all_goals infer_instance

instance (e : Nat) (type : Option TypeId) : Safe (Guarded D c) B (declaredName? e type) := by
  unfold declaredName?
  repeat' (first | infer_instance | split | refine Safe.bind' inferInstance fun _ => ?_)

instance (e : Nat) (type : Option TypeId) : Safe (Guarded D c) B (fieldName e type) := by
  unfold fieldName
  refine Safe.bind' inferInstance fun declared => ?_
  split
  · infer_instance
  · exact Safe.modifyGet fun s hs => hs.withFields ⟨hs.draft.fields.fields, hs.draft.fields.references⟩

instance (f : FieldId) (name : Text) : Safe (Guarded D c) B (provide f name) := by
  have hprovided : Safe (Draft.Guarded D c) (fun _ => False)
      (Draft.changeField f ({ · with provided := true })) := Draft.safe_changeField f fun _ => rfl
  unfold provide
  refine Safe.bind' inferInstance fun s => ?_
  split <;> infer_instance

theorem safe_inside {α : Type} {w : Work Session α} (h : Safe (Guarded D c) HasBareTree w) (e : Nat)
    (f : FieldId) : Safe (Guarded D c) HasBareTree (inside e f w) := by
  have hstack : ∀ (s : Session) stack, Guarded D c s →
      Guarded D c { s with fields := { s.fields with stack } } := fun s stack hs =>
    hs.withFields ⟨hs.draft.fields.fields, hs.draft.fields.references⟩
  unfold inside
  refine Safe.bind' (Safe.modify fun s hs => hstack s _ hs) fun _ => ?_
  exact h.andThenAlways (fun s hs => hstack s _ hs) fun _ hs => hs

/-- An element that is not imported is markup, whose tags have types. -/
theorem typeOf_given {c : Catalog} (hc : c.Ready) {d : Document} {type : Option TypeId}
    (h : Template.typeOf c d e = .ok type) : Given type := by
  unfold Template.typeOf at h
  dsimp only at h
  split at h
  · cases h
  · split at h
    · cases h
      exact ⟨hc.tags _⟩
    · split at h
      · cases h
      · split at h
        · cases h
          infer_instance
        · cases h

theorem safe_buildWith (hbuild : SafeBelow D e build) :
    Safe (Guarded D c) HasBareTree (buildWith build e) := by
  unfold buildWith
  refine safe_fromCatalog fun c' hc' _ => Safe.bind' inferInstance fun d => ?_
  refine safe_orFailAt fun type htype => ?_
  obtain ⟨t, rfl⟩ := Option.isSome_iff_exists.mp (typeOf_given hc' htype).given
  refine Safe.bind' inferInstance fun name => Safe.bind' inferInstance fun f => ?_
  refine Safe.bind' inferInstance fun _ => Safe.bind' (safe_inside ?_ e f) fun _ => inferInstance
  exact Safe.forMMem fun rule hrule => safe_follow hbuild f hrule

theorem safe_buildWithin {fuel : Nat} (he : e < D.nodes.size) (hfuel : D.nodes.size ≤ fuel + e) :
    Safe (Guarded D c) HasBareTree (buildWithin fuel e) := by
  induction fuel generalizing e c with
  | zero => exact absurd he (by omega)
  | succ fuel ih =>
    refine safe_buildWith fun c child hchild => ?_
    have := hchild.1
    exact ih hchild.2 (by omega)

/-- Elements of the document can be built. -/
theorem safe_build (he : e < D.nodes.size) :
    Safe (Guarded D c) HasBareTree (Element.build e) := by
  unfold Element.build
  refine safe_getDocument fun d hd _ => ?_
  rw [hd.size]
  exact safe_buildWithin he (Nat.le_add_right _ _)

end ViewBinder.Element
