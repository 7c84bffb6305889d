-- The rules of elements, one by one. A rule that takes children of its element builds them or reads
-- them to the end; the last rule of every element finds nothing left of it. So an element that is
-- built is finished, and so is everything that was taken on the way.
import ViewBinder.Proofs.Template.Consumption

namespace ViewBinder.Element

open Markup (Document)
open Markup.Document (Bare Gone Empty Finished AllFinished Lasting)
open Session
open Work (Keeps Leads)

/-! ## Construction -/

instance (e : Nat) (names : List Text) (params : List Param) :
    Keeps Takes (bindArguments e names params) := by
  unfold bindArguments
  infer_instance

instance (e : Nat) (type : TypeId) : Keeps Takes (constructed e type) := by
  unfold constructed
  refine Keeps.bind' inferInstance fun c => ?_
  dsimp only
  repeat' (first | infer_instance | split)

instance (e : Nat) (type : TypeId) : Keeps Takes (initializer e type) := by
  unfold initializer
  refine Keeps.bind' inferInstance fun s => ?_
  split <;> infer_instance

instance (e : Nat) (failure : Failure) : Leads SameDocument (reportFailure e failure) :=
  ⟨fun _ => rfl⟩

instance (e : Nat) (f : FieldId) (type : TypeId) (i : Nat) (a : Markup.Attribute) :
    Keeps Takes (setProperty e f type i a) := by
  have huse : Leads Takes
      (modify fun s => { s with document := s.document.useAttribute e i } : Work Session Unit) :=
    ⟨fun s => Document.takes_useAttribute s.document e i⟩
  unfold setProperty
  refine Keeps.bind' inferInstance fun c => Keeps.bind' inferInstance fun d => ?_
  dsimp only
  repeat' (first | infer_instance | split | refine Keeps.bind' inferInstance fun _ => ?_)

instance (e : Nat) (f : FieldId) (type : TypeId) : Keeps Takes (properties e f type) := by
  unfold properties
  repeat' (first | infer_instance | split | refine Keeps.bind' inferInstance fun _ => ?_)

/-- An element of which nothing is left is finished. -/
instance (e : Nat) : Ensures (Finished e) (nothingLeft e) := by
  unfold nothingLeft
  infer_instance

instance (e : Nat) : Keeps (TakesBut (· = e)) (attributeMessages e) := by
  unfold attributeMessages
  exact Content.keeps_declareAttributeMessages e

variable {build : Builder} [∀ e, Ensures (Finished e) (build e)]

/-! ## Children -/

instance (e : Nat) (wanted : Option TypeId) : Ensures (Empty e) (onlyChild build e wanted) := by
  unfold onlyChild
  exact ensures_takeSingleChild fun child => inferInstance

instance (e : Nat) : Ensures (Empty e) (onlyWidget build e) := by
  unfold onlyWidget
  exact ensures_takeSingleChild fun child => inferInstance

instance (e : Nat) (wanted : Option TypeId) : Keeps Takes (onlyChild build e wanted) :=
  Ensures.keeps (P := Empty e) inferInstance

instance (e : Nat) : Keeps Takes (onlyWidget build e) :=
  Ensures.keeps (P := Empty e) inferInstance

instance (e : Nat) (f : FieldId) (child used : Nat) (slot : ChildSlot) :
    Ensures (Finished child) (childTag build e f child used slot) := by
  unfold childTag
  refine Ensures.after inferInstance fun c => ?_
  dsimp only
  repeat' (first | infer_instance | split)

/-- The tags are finished, all of which the type declares. -/
theorem childTagsFrom_ok {e : Nat} {f : FieldId} {d : Descriptor} {seen : List Text}
    {children : List Nat} {s s' : Session} {u : Unit}
    (hslots : ∀ c ∈ children, (d.slot? (s.document.name c).base).isSome = true)
    (h : (childTagsFrom build e f d seen children).runOn s = (.ok u, s')) :
    s.Takes s' ∧ s'.document.AllFinished children := by
  induction children generalizing seen s with
  | nil =>
    cases h
    exact ⟨Std.Refl.refl _, fun _ hc => absurd hc List.not_mem_nil⟩
  | cons child rest ih =>
    obtain ⟨hchild, hrest⟩ := List.forall_mem_cons.mp hslots
    unfold childTagsFrom at h
    obtain ⟨_, _, hget, h⟩ := Work.bind_ok h
    cases hget
    dsimp only at h
    split at h
    · obtain ⟨_, s₁, htag, h⟩ := Work.bind_ok h
      obtain ⟨htakes, hfinished⟩ := Ensures.ensures (P := Finished child) htag
      have hslots₁ : ∀ c ∈ rest, (d.slot? (s₁.document.name c).base).isSome = true := by
        intro c hc
        unfold Document.name
        rw [htakes.shape.name]
        exact hrest c hc
      obtain ⟨hlater, hall⟩ := ih hslots₁ h
      exact ⟨IsTrans.trans _ _ _ htakes hlater,
        List.forall_mem_cons.mpr ⟨hlater.finished id hfinished, hall⟩⟩
    · rename_i hnone
      rw [hnone] at hchild
      cases hchild

instance (e : Nat) (f : FieldId) (type : TypeId) : Keeps Takes (childTags build e f type) := by
  unfold childTags
  refine Keeps.bind' inferInstance fun c => ?_
  dsimp only
  split
  · infer_instance
  · refine ⟨fun {s u s'} hok => ?_⟩
    obtain ⟨_, _, hget, hok⟩ := Work.bind_ok hok
    cases hget
    obtain ⟨children, s₁, htake, hok⟩ := Work.bind_ok hok
    obtain ⟨hchildren, hbut, -⟩ := Document.takeChildrenWhere_ok (document_ok htake)
    obtain ⟨hlater, hall⟩ := childTagsFrom_ok (fun child hchild => by
      rw [hchildren] at hchild
      have hpasses := (List.mem_filter.mp hchild).2
      unfold Document.name
      rw [hbut.shape.name]
      exact (Bool.and_eq_true_iff.mp hpasses).1) hok
    exact (hbut.trans hlater.but).close hall

/-! ## Bodies -/

instance (e : Nat) (f : FieldId) : Keeps Takes (styledObject e f) := by
  unfold styledObject
  have hlists : ∀ text : Option TypeId, Keeps Takes (do
      for (attr, method) in styleLists do
        match ← Document.takeRaw e attr with
        | some value =>
          for name in listedNames value do
            call f method [← readValue e name [text]]
        | none => pure () : Work Session Unit) := by
    intro text
    refine Keeps.bind' (Keeps.forIn' fun entry _ => ?_) fun _ => inferInstance
    split
    refine Keeps.bind' inferInstance fun found => ?_
    split <;> infer_instance
  refine Keeps.bind' inferInstance fun text => Keeps.bind' inferInstance fun found => ?_
  dsimp only
  split <;> infer_instance

instance (e : Nat) (f : FieldId) : Keeps Takes (bodyText build e f) := by
  unfold bodyText
  infer_instance

instance (e : Nat) (f : FieldId) : Keeps Takes (bodyMarkup build e f) := by
  unfold bodyMarkup
  infer_instance

instance (e : Nat) (f : FieldId) (type : TypeId) : Keeps Takes (domElement build e f type) := by
  unfold domElement
  repeat' (first | infer_instance | split | refine Keeps.bind' inferInstance fun _ => ?_)

instance (e : Nat) (f : FieldId) (stamped : Bool) :
    Keeps Takes (panelLiteral build e f stamped) := by
  unfold panelLiteral
  dsimp only
  infer_instance

instance (e : Nat) (f : FieldId) (type : TypeId) : Keeps Takes (markupPanel build e f type) := by
  unfold markupPanel
  repeat' (first | infer_instance | split | refine Keeps.bind' inferInstance fun _ => ?_)

instance (e : Nat) (f : FieldId) (type : TypeId) : Keeps Takes (stampedPanel build e f type) := by
  unfold stampedPanel
  infer_instance

/-! ## Panels -/

instance (e child : Nat) : Ensures (Finished child) (widgetChild build e child) := by
  unfold widgetChild
  infer_instance

instance (P : Document → Prop) (allowed : Text) (parent child : Nat) :
    Ensures P (failOnlyChildren allowed parent child : Work Session α) := by
  unfold failOnlyChildren
  infer_instance

instance (P : Document → Prop) (allowed : Text) (parent child : Nat) (k : β → Work Session α) :
    Ensures P ((failOnlyChildren allowed parent child : Work Session β) >>= k) := by
  unfold failOnlyChildren
  infer_instance

instance (e : Nat) (f : FieldId) : Keeps Takes (widgets build e f) := by
  unfold widgets
  exact (ensures_eachChild inferInstance inferInstance inferInstance).keeps

instance (e : Nat) (f : FieldId) : Keeps Takes (alignment e f) := by
  unfold alignment
  refine Keeps.bind' (Keeps.forIn' fun entry _ => ?_) fun _ => inferInstance
  split
  refine Keeps.bind' inferInstance fun type => Keeps.bind' inferInstance fun found => ?_
  split <;> infer_instance

instance (e : Nat) (f : FieldId) (child centers : Nat) :
    Ensures (Finished child) (dockCenter build e f child centers) := by
  unfold dockCenter
  infer_instance

instance (e : Nat) (f : FieldId) (child : Nat) :
    Ensures (Finished child) (dockSide build e f child) := by
  unfold dockSide
  refine Ensures.after inferInstance fun d => ?_
  split <;> infer_instance

instance (e : Nat) (f : FieldId) (child centers : Nat) :
    Keeps Takes (dockCenter build e f child centers) :=
  Ensures.keeps (P := Finished child) inferInstance

instance (e : Nat) (f : FieldId) (child : Nat) : Keeps Takes (dockSide build e f child) :=
  Ensures.keeps (P := Finished child) inferInstance

instance (e : Nat) (f : FieldId) (centers : Nat) (children : List Nat) :
    Ensures (AllFinished children) (dockFrom build e f centers children) := by
  induction children generalizing centers with
  | nil =>
    unfold dockFrom
    exact Ensures.nil inferInstance
  | cons child rest ih =>
    have hkeeps := fun centers => (ih centers).keeps
    unfold dockFrom
    exact Ensures.cons inferInstance inferInstance

instance (e : Nat) (f : FieldId) : Keeps Takes (dock build e f) := by
  unfold dock
  exact (ensures_takeChildren inferInstance).keeps

/-! ## Stacks and tabs -/

instance (e tag : Nat) (sized : Bool) :
    Ensures (Finished tag) (readHeader build e tag sized) := by
  unfold readHeader
  dsimp only
  have hbody : ∀ (d : Document) (size : Option Text), Ensures (Empty tag) (
      if d.isOwnTag e tag "customHeader" then do
        return (.widget (← onlyWidget build tag), size)
      else do return (.markup (← Content.markupLiteral build tag), size) :
      Work Session (Header × Option Text)) := by
    intro d size
    split <;> infer_instance
  split <;> infer_instance

/-- Every child of an item is finished but its header. -/
theorem splitItem_ok {e item : Nat} {header : Option Nat} {content : Option FieldId}
    {children : List Nat} {tag : Nat} {g : FieldId} {s s' : Session}
    (h : (splitItem build e item header content children).runOn s = (.ok (tag, g), s')) :
    s.Takes s' ∧ (∀ c ∈ children, c = tag ∨ s'.document.Finished c) ∧
      ∀ first, header = some first → first = tag := by
  induction children generalizing header content s with
  | nil =>
    unfold splitItem at h
    split at h
    · cases h
      exact ⟨Std.Refl.refl _, fun _ hc => absurd hc List.not_mem_nil,
        fun _ hfirst => (Option.some.inj hfirst).symm⟩
    · cases h
  | cons c rest ih =>
    unfold splitItem at h
    obtain ⟨_, _, hget, h⟩ := Work.bind_ok h
    cases hget
    dsimp only at h
    split at h
    · split at h
      · obtain ⟨_, _, hfail, -⟩ := Work.bind_ok h
        cases hfail
      · rename_i hnone
        obtain ⟨htakes, hrest, htag⟩ := ih h
        refine ⟨htakes, List.forall_mem_cons.mpr ⟨.inl (htag c rfl), hrest⟩, fun first hfirst => ?_⟩
        rw [hfirst] at hnone
        exact absurd rfl hnone
    · split at h
      · obtain ⟨_, _, hfail, -⟩ := Work.bind_ok h
        cases hfail
      · obtain ⟨widget, s₁, hwidget, h⟩ := Work.bind_ok h
        obtain ⟨htakes, hfinished⟩ := Ensures.ensures (P := Finished c) hwidget
        obtain ⟨hlater, hrest, htag⟩ := ih h
        exact ⟨IsTrans.trans _ _ _ htakes hlater,
          List.forall_mem_cons.mpr ⟨.inr (hlater.finished id hfinished), hrest⟩, htag⟩

/-- An item is finished once its header is. -/
theorem ensures_readItem {e item : Nat} {k : Nat × FieldId → Work Session α}
    (hk : ∀ tag g, Ensures (Finished tag) (k (tag, g))) :
    Ensures (Finished item) (readItem build e item >>= k) where
  ensures {s a s'} hok := by
    obtain ⟨⟨tag, g⟩, s₃, hread, hok⟩ := Work.bind_ok hok
    unfold readItem at hread
    obtain ⟨_, s₁, hattributes, hread⟩ := Work.bind_ok hread
    obtain ⟨hsame, hbare⟩ := Ensures.ensures (P := Bare item) hattributes
    obtain ⟨cs, s₂, htake, hsplit⟩ := Work.bind_ok hread
    obtain ⟨-, hbut, hempty⟩ := Document.takeChildren_ok (document_ok htake)
    obtain ⟨hwidgets, hothers, -⟩ := splitItem_ok hsplit
    obtain ⟨hheader, htag⟩ := (hk tag g).ensures hok
    have hall : s'.document.AllFinished cs := by
      intro c hc
      rcases hothers c hc with rfl | hfinished
      · exact htag
      · exact hheader.finished id hfinished
    have hlater : s₂.Takes s' := IsTrans.trans _ _ _ hwidgets hheader
    have htakes : s₁.Takes s' := (hbut.trans hlater.but).close hall
    exact ⟨IsTrans.trans _ _ _ hsame htakes,
      Lasting.lasts htakes hbare, .inr (hlater.empty hempty)⟩

instance (e : Nat) (f : FieldId) : Keeps Takes (stack build e f) := by
  unfold stack
  have hitem : ∀ child, Ensures (Finished child) (do
      let (tag, content) ← readItem build e child
      let (header, size) ← readHeader build e tag true
      let name ← Draft.use content
      match header with
      | .widget g => call f "AddStackWidget" ([name, ← Draft.use g] ++ size.toList)
      | .markup html => call f "AddStack" ([name, html, "true"] ++ size.toList)
      return ForInStep.yield PUnit.unit : Work Session (ForInStep PUnit)) := by
    intro child
    refine ensures_readItem fun tag g => ?_
    dsimp only
    refine Ensures.before inferInstance fun header => ?_
    refine Keeps.bind' inferInstance fun name => ?_
    split <;> infer_instance
  refine (ensures_eachChild (fun child _ => ?_) (fun child _ => ?_) inferInstance).keeps
  · have := hitem child
    infer_instance
  · repeat' (first | infer_instance | split | refine Yields.bind (h := fun _ => ?_))

instance (e : Nat) (f : FieldId) : Keeps Takes (tabs build e f) := by
  unfold tabs
  have hitem : ∀ child, Ensures (Finished child) (do
      let (tag, content) ← readItem build e child
      let (header, _) ← readHeader build e tag false
      let name ← Draft.use content
      match header with
      | .widget g => call f "AddTabWidget" [name, ← Draft.use g]
      | .markup html => call f "AddTab" [name, html, "true"]
      return ForInStep.yield PUnit.unit : Work Session (ForInStep PUnit)) := by
    intro child
    refine ensures_readItem fun tag g => ?_
    dsimp only
    refine Ensures.before inferInstance fun header => ?_
    refine Keeps.bind' inferInstance fun name => ?_
    split <;> infer_instance
  refine (ensures_eachChild (fun child _ => ?_) (fun child _ => ?_) inferInstance).keeps
  · have := hitem child
    infer_instance
  · repeat' (first | infer_instance | split | refine Yields.bind (h := fun _ => ?_))

/-! ## Places and cells -/

instance (e : Nat) (pairs : List (Text × Text)) : Leads SameDocument (pickPair e pairs) := by
  unfold pickPair
  refine Leads.bind' inferInstance fun d => ?_
  repeat' (first | infer_instance | split)

instance (e : Nat) (pairs : List (Text × Text)) : Keeps Takes (placement? e pairs) := by
  unfold placement?
  refine Keeps.bind' inferInstance fun number => Keeps.bind' inferInstance fun unit => ?_
  dsimp only
  refine Keeps.bind' inferInstance fun found => ?_
  split <;> infer_instance

instance (e : Nat) (f : FieldId) : Keeps Takes (layers build e f) := by
  unfold layers
  have hcalls : ∀ (calls : List (Option Text)) (name : Text), Keeps Takes (do
      for placed in calls.filterMap id do
        Draft.addStatement f ((← nameOf f) ++ "." ++ Text.replaceAll placed widgetMark name)
      return ForInStep.yield PUnit.unit : Work Session (ForInStep PUnit)) :=
    fun calls name => inferInstance
  refine (ensures_eachChild (fun child _ => ?_) (fun child _ => ?_) inferInstance).keeps
  · refine Ensures.after inferInstance fun d => ?_
    dsimp only
    split
    · infer_instance
    · exact Ensures.both inferInstance inferInstance
  · refine Yields.bind (h := fun d => ?_)
    dsimp only
    split <;> infer_instance

instance (e : Nat) (f : FieldId) : Keeps Takes (absolute build e f) := by
  unfold absolute
  refine Keeps.bind' inferInstance fun whole => ?_
  refine (ensures_eachChild (fun child _ => ?_) (fun child _ => ?_) inferInstance).keeps
  · refine Ensures.after inferInstance fun d => ?_
    split
    · exact Ensures.both inferInstance inferInstance
    · infer_instance
  · refine Yields.bind (h := fun d => ?_)
    split <;> infer_instance

instance (f : FieldId) (tag : Nat) (pattern : Text) :
    Ensures (Finished tag) (cell build f tag pattern) := by
  unfold cell
  refine Ensures.after (Keeps.mapM' fun entry => ?_) fun settings => ?_
  · dsimp only
    refine Keeps.bind' inferInstance fun type => ?_
    split <;> infer_instance
  · have hcalls : ∀ name : Text, Keeps Takes (do
        for (method, expr) in settings.filterMap id do call f method [name, expr] :
        Work Session Unit) := fun name => inferInstance
    exact Ensures.both inferInstance inferInstance

instance (e : Nat) (f : FieldId) (type : TypeId) (child : Nat) :
    Ensures (Finished child) (dockCell build e f type child) := by
  unfold dockCell
  refine Ensures.after inferInstance fun c => ?_
  split <;> infer_instance

instance (e : Nat) (f : FieldId) (type : TypeId) : Keeps Takes (cells build e f type) := by
  unfold cells
  refine (ensures_eachChild (fun child _ => ?_) inferInstance inferInstance).keeps
  refine Ensures.after inferInstance fun d => ?_
  split
  · infer_instance
  · split <;> infer_instance

/-! ## Disclosure -/

instance (f : FieldId) (tag : Nat) : Ensures (Bare tag) (headerImages f tag) := by
  unfold headerImages
  infer_instance

instance (f : FieldId) (tag : Nat) : Keeps Takes (headerImages f tag) :=
  Ensures.keeps (P := Bare tag) inferInstance

instance (e : Nat) (f : FieldId) (filled : Bool) (children : List Nat) :
    Ensures (AllFinished children) (disclosureFrom build e f filled children) := by
  induction children generalizing filled with
  | nil =>
    unfold disclosureFrom
    exact Ensures.nil inferInstance
  | cons child rest ih =>
    have hkeeps := fun filled => (ih filled).keeps
    unfold disclosureFrom
    refine Ensures.after inferInstance fun d => Ensures.cons ?_ ?_
    · dsimp only
      split
      · infer_instance
      · split <;> infer_instance
    · dsimp only
      split
      · infer_instance
      · split <;> infer_instance

instance (e : Nat) (f : FieldId) : Keeps Takes (disclosure build e f) := by
  unfold disclosure
  exact (ensures_takeChildren inferInstance).keeps

/-! ## Menus and lists -/

instance (child : Nat) (wanted : Option TypeId) : Leads SameDocument (isOf child wanted) := by
  unfold isOf
  infer_instance

instance (e : Nat) (f : FieldId) (type : TypeId) : Keeps Takes (menuBar build e f type) := by
  unfold menuBar
  have hitems : ∀ item separator : Option TypeId, Keeps Takes (do
      for child in ← Document.takeChildren e do
        if ← isOf child item then
          call f "AddItem" [← Draft.use (← Content.buildChild build e child item)]
        else if ← isOf child separator then
          call f "AddSeparator" [← Draft.use (← Content.buildChild build e child separator)]
        else failOnlyChildren "MenuItem or MenuItemSeparator" e child : Work Session Unit) := by
    intro item separator
    refine (ensures_eachChild (fun child _ => ?_) (fun child _ => ?_) inferInstance).keeps
    · refine Ensures.after inferInstance fun isItem => ?_
      split <;> infer_instance
    · refine Yields.bind (h := fun isItem => ?_)
      split <;> infer_instance
  refine Keeps.bind' inferInstance fun boolean => Keeps.bind' inferInstance fun made => ?_
  dsimp only
  split <;> infer_instance

instance (e : Nat) : Keeps Takes (menuText build e) := by
  unfold menuText
  repeat' (first | infer_instance | split | refine Keeps.bind' inferInstance fun _ => ?_)

instance (e : Nat) (f : FieldId) (type : TypeId) : Keeps Takes (menuItem build e f type) := by
  unfold menuItem
  refine Keeps.bind' inferInstance fun bar => Keeps.bind' inferInstance fun c => ?_
  refine Keeps.bind' inferInstance fun d => keeps_takeChildrenWhere fun menus => ?_
  have hmenus : Ensures (AllFinished menus) (do
      for menu in menus do
        call f "SetSubMenu" [← Draft.use (← Content.buildChild build e menu bar)] :
      Work Session Unit) :=
    Ensures.before (ensures_forIn inferInstance inferInstance) inferInstance
  dsimp only
  split
  · infer_instance
  · refine Ensures.after inferInstance fun made => ?_
    split <;> infer_instance

instance (e : Nat) (f : FieldId) : Keeps Takes (listBox e f) := by
  unfold listBox
  refine Keeps.bind' inferInstance fun text => ?_
  have hitem : ∀ child, Ensures (Finished child) (do
      let value ← take? child "value" [text]
      Document.assertNoAttributes child
      let item := Content.literal (← Document.takePlainText child)
      match value with
      | some value => call f "AddItem" [item, value]
      | none => call f "AddItemText" [item]
      return ForInStep.yield PUnit.unit : Work Session (ForInStep PUnit)) := by
    intro child
    refine Ensures.after inferInstance fun value => ?_
    dsimp only
    cases value <;> infer_instance
  refine (ensures_eachChild (fun child _ => ?_) (fun child _ => ?_) inferInstance).keeps
  · have := hitem child
    infer_instance
  · repeat' (first | infer_instance | split | refine Yields.bind (h := fun _ => ?_))

instance (e row child : Nat) : Ensures (Finished child) (gridCell build e row child) := by
  unfold gridCell
  have hbody : ∀ (d : Document) (style : Option Text), Ensures (Empty child) (
      if d.isOwnTag e child "cell" then do
        return ⟨.markup (← Content.markupLiteral build child), style⟩
      else if d.isOwnTag e child "customCell" then do
        return ⟨.widget (← onlyWidget build child), style⟩
      else failOnlyChildren "<cell> or <customCell>" row child : Work Session GridCell) := by
    intro d style
    split
    · infer_instance
    · split <;> infer_instance
  have := fun d style => (hbody d style).keeps
  infer_instance

instance (e row : Nat) : Ensures (Finished row) (gridRow build e row) := by
  unfold gridRow
  have hcells : ∀ style, Ensures (Empty row) (do
      let cells ← (← Document.takeChildren row).mapM (gridCell build e row)
      return ⟨style, cells⟩ : Work Session GridRow) :=
    fun style => ensures_takeChildren fun cs =>
      Ensures.before (Ensures.mapM inferInstance) inferInstance
  have := fun style => (hcells style).keeps
  infer_instance

instance (f : FieldId) (row column : Nat) (cell : GridCell) :
    Keeps Takes (fillCell f row column cell) := by
  unfold fillCell
  dsimp only
  repeat' (first | infer_instance | split)

instance (e : Nat) (f : FieldId) : Keeps Takes (grid build e f) := by
  unfold grid
  have hstyles : ∀ read : List GridRow, Keeps Takes (do
      for (row, r) in read.zipIdx do
        match row.style with
        | some style => call f "SetRowStyleName" [Text.ofNat r, style]
        | none => pure ()
      for (row, r) in read.zipIdx do
        for (cell, c) in row.cells.zipIdx do fillCell f r c cell : Work Session Unit) := by
    intro read
    refine Keeps.bind' (Keeps.forIn' fun entry _ => ?_) fun _ => inferInstance
    dsimp only
    split <;> infer_instance
  refine (ensures_takeChildren fun rows =>
    Ensures.before (Ensures.mapM inferInstance) fun read => ?_).keeps
  dsimp only
  split <;> infer_instance

/-! ## Trees, buttons and images -/

instance (e : Nat) (f : FieldId) (setWidget : Option Method) (held : Bool) (children : List Nat) :
    Ensures (AllFinished children) (treeItemsFrom build e f setWidget held children) := by
  induction children generalizing held with
  | nil =>
    unfold treeItemsFrom
    exact Ensures.nil inferInstance
  | cons child rest ih =>
    have hkeeps := fun held => (ih held).keeps
    unfold treeItemsFrom
    refine Ensures.after inferInstance fun item => Ensures.after inferInstance fun isItem => ?_
    refine Ensures.cons ?_ ?_
    · repeat' (first | infer_instance | split)
    · repeat' (first | infer_instance | split)

instance (e : Nat) (f : FieldId) (type : TypeId) : Keeps Takes (treeItems build e f type) := by
  unfold treeItems
  refine keeps_taking (fun hok => ?_) fun children => inferInstance
  obtain ⟨_, _, hget, htake⟩ := Work.bind_ok hok
  cases hget
  exact (Document.takeChildrenWhere_ok htake).2.1

instance (e : Nat) (f : FieldId) (seen : List Text) (faces : List Nat) :
    Ensures (AllFinished faces) (facesFrom build e f seen faces) := by
  induction faces generalizing seen with
  | nil =>
    unfold facesFrom
    exact Ensures.nil inferInstance
  | cons face rest ih =>
    have hkeeps := fun seen => (ih seen).keeps
    have hbody : ∀ (method : Text) (seen : List Text), Ensures (Empty face) (do
        if (← getDocument).hasContent face then
          call f method [← Content.markupLiteral build face]
        facesFrom build e f seen rest : Work Session Unit) :=
      fun method seen => ensures_ifContent inferInstance inferInstance
    have := fun method seen => (hbody method seen).keeps
    unfold facesFrom
    refine Ensures.after inferInstance fun d => ?_
    dsimp only
    split
    · infer_instance
    · refine Ensures.after inferInstance fun type => Ensures.after inferInstance fun found => ?_
      refine Ensures.cons ?_ ?_
      · cases found <;> infer_instance
      · cases found <;> infer_instance

instance (e : Nat) (f : FieldId) : Keeps Takes (faces build e f) := by
  unfold faces
  exact Keeps.bind' inferInstance fun d => keeps_takeChildrenWhere inferInstance

instance (e : Nat) (f : FieldId) (type : TypeId) : Keeps Takes (image e f type) := by
  unfold image
  refine Keeps.bind' inferInstance fun d => ?_
  split
  · infer_instance
  · refine Keeps.bind' inferInstance fun resource => Keeps.bind' inferInstance fun expr => ?_
    refine Keeps.bind' inferInstance fun made => ?_
    split
    · infer_instance
    · refine Keeps.bind' inferInstance fun c => ?_
      split <;> infer_instance

/-! ## Building -/

/-- The element itself may get attributes, which are texts of messages. -/
instance (e : Nat) (f : FieldId) (type : TypeId) (rule : Rule) :
    Keeps (TakesBut (· = e)) (follow build e f type rule) := by
  have hnothing : Keeps Takes (nothingLeft e) := Ensures.keeps (P := Finished e) inferInstance
  cases rule <;> unfold follow <;> dsimp only <;> infer_instance

instance (e : Nat) (type : Option TypeId) : Keeps Takes (declaredName? e type) := by
  unfold declaredName?
  refine Keeps.bind' inferInstance fun found => ?_
  split <;> infer_instance

instance (e : Nat) (type : Option TypeId) : Keeps Takes (fieldName e type) := by
  unfold fieldName
  refine Keeps.bind' inferInstance fun found => ?_
  split
  · infer_instance
  · exact ⟨fun hok => by cases hok; exact Std.Refl.refl _⟩

instance (f : FieldId) (name : Text) : Keeps Takes (provide f name) := by
  unfold provide
  refine Keeps.bind' inferInstance fun s => ?_
  split <;> infer_instance

/-- The last rule of every element finds nothing left of it. -/
theorem ensures_chain (c : Catalog) (e : Nat) (f : FieldId) (type : TypeId) :
    Ensures (Finished e) ((Rule.chain c type).forM (follow build e f type)) where
  ensures {s u s'} hok := by
    have hlast : Ensures (Finished e) ([Rule.nothingLeft].forM (follow build e f type)) :=
      Ensures.before (inferInstanceAs (Ensures _ (nothingLeft e))) fun _ =>
        inferInstanceAs (Keeps _ (pure ()))
    have hrules : ∀ {rules : List Rule} {s : Session},
        ((rules ++ [Rule.nothingLeft]).forM (follow build e f type)).runOn s = (.ok u, s') →
        TakesBut (· = e) s s' ∧ s'.document.Finished e := by
      intro rules
      induction rules with
      | nil => exact fun hok => (hlast.ensures hok).imp_left Document.Takes.but
      | cons rule rules ih =>
        intro s hok
        obtain ⟨_, s₁, hrule, hrest⟩ := Work.bind_ok hok
        have hfirst : TakesBut (· = e) s s₁ := Keeps.keeps hrule
        exact (ih hrest).imp_left hfirst.trans
    unfold Rule.chain at hok
    rw [List.append_cons _ _ [Rule.nothingLeft]] at hok
    obtain ⟨hbut, hfinished⟩ := hrules hok
    exact ⟨hbut.close fun n hn => hn ▸ hfinished, hfinished⟩

/-- An element that is built is finished. -/
instance (e : Nat) : Ensures (Finished e) (buildWith build e) := by
  have hchain : ∀ c f type,
      Ensures (Finished e) ((Rule.chain c type).forM (follow build e f type)) :=
    fun c f type => ensures_chain c e f type
  unfold buildWith
  refine Ensures.after inferInstance fun c => Ensures.after inferInstance fun d => ?_
  refine Ensures.after inferInstance fun type => Ensures.after inferInstance fun name => ?_
  refine Ensures.after inferInstance fun f => Ensures.after inferInstance fun _ => ?_
  dsimp only
  split <;> infer_instance

omit [∀ e, Ensures (Finished e) (build e)] in
instance (fuel e : Nat) : Ensures (Finished e) (buildWithin fuel e) := by
  induction fuel generalizing e with
  | zero =>
    unfold buildWithin
    infer_instance
  | succ fuel ih =>
    unfold buildWithin
    infer_instance

omit [∀ e, Ensures (Finished e) (build e)] in
instance (e : Nat) : Ensures (Finished e) (Element.build e) := by
  unfold Element.build
  infer_instance

end ViewBinder.Element
