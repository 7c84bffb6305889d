-- Declaring resources. Each resource takes a method of the bundle that was free, and a style gets a
-- type whose name is made from the field; nothing else of the bundle changes, and no field does.
import ViewBinder.Proofs.Draft.Step

namespace ViewBinder

open Work (Keeps Leads)

/-- A resource is added to a bundle, its types being in the catalog. -/
inductive Bundle.Adds (c : Catalog) (b : Bundle) : Bundle → Prop
  | style (s : BundledStyle) :
      s.method ∉ b.methods → s.method = Text.exported s.style.field → s.type < c.types.size →
      (c.decl s.type).name = b.styleTypeName s.style.field →
      Bundle.bundleClasses (b.classLead s.style.field) s.style.field [] s.sheet.classes =
        .ok s.classes →
      Adds c b { b with methods := s.method :: b.methods, styles := b.styles ++ [s] }
  | file (f : BundledFile) : f.method ∉ b.methods →
      Adds c b { b with methods := f.method :: b.methods, others := b.others ++ [f] }

/-- The methods of the bundle and of each style are distinct, and every style is named after its
field. -/
structure Bundle.Tidy (c : Catalog) (b : Bundle) : Prop where
  methods : (b.styles.map (·.method) ++ b.others.map (·.method)).Nodup
  claimed : ∀ m ∈ b.styles.map (·.method) ++ b.others.map (·.method), m ∈ b.methods
  method : ∀ s ∈ b.styles, s.method = Text.exported s.style.field
  type : ∀ s ∈ b.styles, s.type < c.types.size ∧
    (c.decl s.type).name = b.styleTypeName s.style.field
  classes : ∀ s ∈ b.styles, (Bundle.reservedAccessors ++ s.classes.map (·.accessor)).Nodup

/-- Classes that are bundled have methods of their own. -/
theorem Bundle.bundleClasses_nodup {lead field : Text} {done classes : List StyleClass}
    {names : List Text} (h : bundleClasses lead field done names = .ok classes)
    (hdone : (reservedAccessors ++ done.map (·.accessor)).Nodup) :
    (reservedAccessors ++ classes.map (·.accessor)).Nodup := by
  induction names generalizing done with
  | nil =>
    cases h
    exact hdone
  | cons name rest ih =>
    unfold bundleClasses at h
    dsimp only at h
    split at h
    · cases h
    · rename_i hfree
      split at h
      · cases h
      · rename_i hnew
        refine ih h ?_
        rw [List.map_append, ← List.append_assoc, List.nodup_append]
        refine ⟨hdone, by simp, fun a ha b hb hab => ?_⟩
        rw [List.map_singleton, List.mem_singleton] at hb
        subst hab
        rcases List.mem_append.mp ha with hreserved | hold
        · rw [hb] at hreserved
          exact hfree (List.contains_iff_mem.mpr hreserved)
        · obtain ⟨other, hother, hsame⟩ := List.mem_map.mp hold
          exact List.find?_eq_none.mp hnew other hother (by simp [hsame, hb])

theorem Bundle.Adds.lead {c : Catalog} {b b' : Bundle} (h : b.Adds c b') : b'.lead = b.lead := by
  cases h <;> rfl

theorem Bundle.Tidy.extends {c c' : Catalog} {b : Bundle} (h : b.Tidy c)
    (hextends : c.Extends c') : b.Tidy c' := by
  refine ⟨h.methods, h.claimed, h.method, fun s hs => ?_, h.classes⟩
  obtain ⟨hlt, hname⟩ := h.type s hs
  exact ⟨Nat.lt_of_lt_of_le hlt hextends.size, (hextends.name _ hlt).trans hname⟩

/-- What is added to a bundle leaves it tidy. -/
theorem Bundle.Adds.tidy {c c' : Catalog} {b b' : Bundle} (h : b.Adds c' b')
    (hextends : c.Extends c') (hb : b.Tidy c) : b'.Tidy c' := by
  have htype := (hb.extends hextends).type
  cases h with
  | style s hfree hmethod hlt hname hclasses =>
    have hperm : (((b.styles ++ [s]).map (·.method)) ++ b.others.map (·.method)).Perm
        (s.method :: (b.styles.map (·.method) ++ b.others.map (·.method))) := by
      rw [List.map_append, List.append_assoc]
      exact List.perm_middle
    refine ⟨?_, fun m hm => ?_, ?_, ?_, ?_⟩
    · rw [hperm.nodup_iff]
      exact List.nodup_cons.mpr ⟨fun hm => hfree (hb.claimed _ hm), hb.methods⟩
    · rcases List.mem_cons.mp (hperm.mem_iff.mp hm) with rfl | hold
      · exact List.mem_cons_self
      · exact List.mem_cons_of_mem _ (hb.claimed m hold)
    · exact List.forall_mem_append.mpr ⟨hb.method, List.forall_mem_singleton.mpr hmethod⟩
    · exact List.forall_mem_append.mpr ⟨htype, List.forall_mem_singleton.mpr ⟨hlt, hname⟩⟩
    · refine List.forall_mem_append.mpr ⟨hb.classes, List.forall_mem_singleton.mpr ?_⟩
      exact bundleClasses_nodup hclasses (by decide)
  | file f hfree =>
    have hperm : (b.styles.map (·.method) ++ (b.others ++ [f]).map (·.method)).Perm
        (f.method :: (b.styles.map (·.method) ++ b.others.map (·.method))) := by
      rw [List.map_append, ← List.append_assoc]
      exact List.perm_append_comm
    refine ⟨?_, fun m hm => ?_, hb.method, htype, hb.classes⟩
    · rw [hperm.nodup_iff]
      exact List.nodup_cons.mpr ⟨fun hm => hfree (hb.claimed _ hm), hb.methods⟩
    · rcases List.mem_cons.mp (hperm.mem_iff.mp hm) with rfl | hold
      · exact List.mem_cons_self
      · exact List.mem_cons_of_mem _ (hb.claimed m hold)

theorem Bundle.claim_ok {b b' : Bundle} {field method : Text}
    (h : b.claim field = .ok (method, b')) :
    method = Text.exported field ∧ method ∉ b.methods ∧
      b' = { b with methods := method :: b.methods } := by
  unfold claim at h
  dsimp only at h
  split at h
  · cases h
  · rename_i hfree
    cases h
    exact ⟨rfl, by simpa using hfree, rfl⟩

namespace Draft

/-! ## Work beside the bundle -/

/-- Fields, messages and the bundle stay as they are. -/
structure Beside (d d' : Draft) : Prop where
  run : Run d d'
  fields : d'.fields = d.fields
  messages : d'.messages = d.messages
  bundle : d'.bundle = d.bundle

instance : Std.Refl Beside := ⟨fun d => ⟨Std.Refl.refl d, rfl, rfl, rfl⟩⟩

instance : IsTrans Draft Beside where
  trans _ _ _ h h' := ⟨IsTrans.trans _ _ _ h.run h'.run, h'.fields.trans h.fields,
    h'.messages.trans h.messages, h'.bundle.trans h.bundle⟩

instance (path preferred : Text) : Leads Beside (importPackage path preferred) :=
  ⟨fun _ => ⟨(Step.import path preferred).run, rfl, rfl, rfl⟩⟩

instance (t : TypeId) : Leads Beside (typeRef t) :=
  ⟨fun d => ⟨Leads.leads (R := Run) d, rfl, rfl, rfl⟩⟩

instance (name : Text) : Leads Beside (resourceType name) := by
  refine ⟨fun d => ⟨Leads.leads (R := Run) d, ?_, ?_, ?_⟩⟩
  all_goals
    unfold resourceType
    rw [Work.runOn_modifyGet]
    split <;> rfl

instance (name : Text) (returns : TypeId) : Leads Beside (addBundleMethod name returns) := by
  refine ⟨fun d => ⟨Leads.leads (R := Run) d, ?_, ?_, ?_⟩⟩
  all_goals
    unfold addBundleMethod
    rw [Work.runOn_modify]
    split <;> rfl

/-- The type of a style has the name that belongs to the field. -/
theorem generateStyleType_ok {field : Text} {interfaces : List TypeId} {classes : List StyleClass}
    {d d' : Draft} {t : TypeId}
    (h : (generateStyleType field interfaces classes).runOn d = (.ok t, d')) :
    Beside d d' ∧ t < d'.catalog.types.size ∧
      (d'.catalog.decl t).name = d.bundle.styleTypeName field := by
  unfold generateStyleType at h
  rw [Work.runOn_modifyGet] at h
  cases h
  refine ⟨⟨(Step.addType _).run, rfl, rfl, rfl⟩, ?_, ?_⟩
  · exact Nat.lt_of_lt_of_eq (Nat.lt_succ_self _) (Catalog.size_push _ _).symm
  · exact congrArg TypeDecl.name (Catalog.decl_push_size _ _)

/-! ## Resources -/

/-- A resource is declared. -/
structure Declares (d d' : Draft) : Prop where
  run : Run d d'
  types : TypesStay d d'
  fields : d'.fields = d.fields
  messages : d'.messages = d.messages
  bundle : Bundle.Adds d'.catalog d.bundle d'.bundle

theorem orFailAt_ok {place : Option Location} {x : Except Problem α} {d d' : Draft} {a : α}
    (h : (orFailAt place x).runOn d = (.ok a, d')) : x = .ok a ∧ d' = d := by
  unfold orFailAt at h
  split at h
  · cases h
    exact ⟨rfl, rfl⟩
  · cases h

theorem runOn_claimMethod (place : Option Location) (field : Text) (d : Draft) :
    (claimMethod place field).runOn d = match d.bundle.claim field with
      | .ok (method, bundle) => (.ok method, { d with bundle })
      | .error p => (.error (p.failure place), d) := by
  unfold claimMethod orFailAt
  rw [Work.runOn_bind, Work.runOn_get]
  cases hfound : d.bundle.claim field with
  | ok answer => simp [hfound, Except.map]
  | error p => simp [hfound]

/-- A method that is claimed was free, and nothing else of the draft changes. -/
theorem claimMethod_ok {place : Option Location} {field method : Text} {d d' : Draft}
    (h : (claimMethod place field).runOn d = (.ok method, d')) :
    method = Text.exported field ∧ method ∉ d.bundle.methods ∧
      d' = { d with bundle.methods := method :: d.bundle.methods } := by
  rw [runOn_claimMethod] at h
  split at h
  · rename_i method b hfound
    cases h
    obtain ⟨hname, hfree, rfl⟩ := Bundle.claim_ok hfound
    exact ⟨hname, hfree, rfl⟩
  · cases h

instance (place : Option Location) (field : Text) : Leads TypesStay (claimMethod place field) where
  leads d := by
    rw [runOn_claimMethod]
    split
    · rename_i method b hfound
      obtain ⟨-, -, rfl⟩ := Bundle.claim_ok hfound
      exact ⟨Nat.le_refl _, rfl, rfl, fun _ _ _ _ => rfl⟩
    · exact Std.Refl.refl d

/-- The bundle changes, but keeps its type. -/
theorem typesStay_bundle {f : Draft → Bundle} (h : ∀ d, (f d).type = d.bundle.type) :
    Leads TypesStay (modify fun d => { d with bundle := f d } : Work Draft Unit) :=
  ⟨fun d => ⟨Nat.le_refl _, h d, rfl, fun _ _ _ _ => rfl⟩⟩

instance (place : Option Location) (s : Style) : Leads TypesStay (declareStyle place s) := by
  have hadd : ∀ x : BundledStyle, Leads TypesStay
      (modify fun d => { d with bundle.styles := d.bundle.styles ++ [x] } : Work Draft Unit) :=
    fun x => typesStay_bundle fun _ => rfl
  unfold declareStyle
  refine Leads.bind' inferInstance fun method => Leads.bind' inferInstance fun d => ?_
  refine Leads.bind' inferInstance fun css => Leads.bind' inferInstance fun classes => ?_
  refine Leads.bind' inferInstance fun resource => ?_
  split <;> infer_instance

instance (typeName method expr : Text) : Leads TypesStay (addFile typeName method expr) := by
  have hadd : ∀ f : BundledFile, Leads TypesStay
      (modify fun d => { d with bundle.others := d.bundle.others ++ [f] } : Work Draft Unit) :=
    fun f => typesStay_bundle fun _ => rfl
  unfold addFile
  infer_instance

instance (place : Option Location) (i : Image) : Leads TypesStay (declareImage place i) := by
  unfold declareImage
  refine Leads.bind' inferInstance fun d => Leads.bind' inferInstance fun source => ?_
  refine Leads.bind' inferInstance fun repetition => Leads.bind' inferInstance fun method => ?_
  infer_instance

instance (place : Option Location) (f : DataFile) : Leads TypesStay (declareData place f) := by
  unfold declareData
  infer_instance

instance (place : Option Location) (s : Style) : Keeps Declares (declareStyle place s) where
  keeps {d answer d'} h := by
    have hrun : Run d d' := Keeps.keeps (R := Run) h
    have htypes : TypesStay d d' := Keeps.keeps (R := TypesStay) h
    unfold declareStyle at h
    obtain ⟨method, d₁, hclaim, h⟩ := Work.bind_ok h
    obtain ⟨hname, hfree, rfl⟩ := claimMethod_ok hclaim
    obtain ⟨_, _, hget, h⟩ := Work.bind_ok h
    cases hget
    obtain ⟨css, _, htext, h⟩ := Work.bind_ok h
    obtain ⟨-, rfl⟩ := orFailAt_ok htext
    obtain ⟨classes, _, hbundled, h⟩ := Work.bind_ok h
    obtain ⟨hclasses, rfl⟩ := orFailAt_ok hbundled
    obtain ⟨resource, d₂, hresource, h⟩ := Work.bind_ok h
    have hbeside₂ := Keeps.keeps (R := Beside) hresource
    -- the interface of a style is only looked at
    dsimp only at h
    split at h
    on_goal 1 =>
      obtain ⟨_, _, hget, hchecked⟩ := Work.bind_ok h
      cases hget
      obtain ⟨_, d₂', hcheck, hstyled⟩ := Work.bind_ok hchecked
      cases (orFailAt_ok hcheck).2
    on_goal 2 => have hstyled := h
    all_goals
      obtain ⟨type, d₃, htype, hadd⟩ := Work.bind_ok hstyled
      obtain ⟨hbeside₃, hlt, hnamed⟩ := generateStyleType_ok htype
      obtain ⟨_, _, hmodify, hlast⟩ := Work.bind_ok hadd
      cases hmodify
      obtain ⟨_, d₄, hmethod, hanswer⟩ := Work.bind_ok hlast
      cases hanswer
      have hbeside₄ := Keeps.keeps (R := Beside) hmethod
      have hcatalog := hbeside₄.run.catalog
      refine ⟨hrun, htypes, ?_, ?_, ?_⟩
      · exact hbeside₄.fields.trans (hbeside₃.fields.trans hbeside₂.fields)
      · exact hbeside₄.messages.trans (hbeside₃.messages.trans hbeside₂.messages)
      · rw [hbeside₄.bundle]
        simp only [hbeside₃.bundle, hbeside₂.bundle]
        refine Bundle.Adds.style ⟨s, method, Stylesheet.parse css, classes, type⟩ hfree hname
          (Nat.lt_of_lt_of_le hlt hcatalog.size) ?_ hclasses
        rw [hcatalog.name type hlt]
        exact hnamed.trans (by rw [hbeside₂.bundle]; rfl)

/-- A file is added under a method that was claimed for it. -/
theorem addFile_ok {typeName method expr : Text} {d d' : Draft} {a : Unit}
    (h : (addFile typeName method expr).runOn d = (.ok a, d')) :
    ∃ f : BundledFile, f.method = method ∧ d'.fields = d.fields ∧ d'.messages = d.messages ∧
      d'.bundle = { d.bundle with others := d.bundle.others ++ [f] } := by
  unfold addFile at h
  obtain ⟨type, d₁, htype, h⟩ := Work.bind_ok h
  obtain ⟨ref, d₂, href, h⟩ := Work.bind_ok h
  obtain ⟨_, _, hmodify, h⟩ := Work.bind_ok h
  cases hmodify
  have hbeside₂ : Beside d d₂ :=
    IsTrans.trans _ _ _ (Keeps.keeps (R := Beside) htype) (Keeps.keeps (R := Beside) href)
  have hbeside := Keeps.keeps (R := Beside) h
  refine ⟨⟨method, ref, expr⟩, rfl, hbeside.fields.trans hbeside₂.fields,
    hbeside.messages.trans hbeside₂.messages, ?_⟩
  rw [hbeside.bundle]
  simp only [hbeside₂.bundle]

/-- What is read for a file changes nothing of the bundle. -/
theorem declares_file (typeName : Text) (content : Work Draft Text) [Leads Beside content]
    {place : Option Location} {field method a : Text} {d d₁ d' : Draft} (hrun : Run d d')
    (htypes : TypesStay d d') (hclaim : (claimMethod place field).runOn d = (.ok method, d₁))
    (h : (do
      let expr ← content
      addFile typeName method expr
      return method : Work Draft Text).runOn d₁ = (.ok a, d')) : Declares d d' := by
  obtain ⟨-, hfree, rfl⟩ := claimMethod_ok hclaim
  obtain ⟨expr, d₂, hcontent, h⟩ := Work.bind_ok h
  have hbeside := Keeps.keeps (R := Beside) hcontent
  obtain ⟨_, d₃, hadd, h⟩ := Work.bind_ok h
  cases h
  obtain ⟨f, rfl, hfields, hmessages, hbundle⟩ := addFile_ok hadd
  refine ⟨hrun, htypes, hfields.trans hbeside.fields, hmessages.trans hbeside.messages, ?_⟩
  rw [hbundle, hbeside.bundle]
  exact Bundle.Adds.file f hfree

instance (place : Option Location) (i : Image) : Keeps Declares (declareImage place i) where
  keeps {d a d'} h := by
    have hrun : Run d d' := Keeps.keeps (R := Run) h
    have htypes : TypesStay d d' := Keeps.keeps (R := TypesStay) h
    unfold declareImage at h
    obtain ⟨_, _, hget, h⟩ := Work.bind_ok h
    cases hget
    obtain ⟨source, _, hsource, h⟩ := Work.bind_ok h
    cases (orFailAt_ok hsource).2
    obtain ⟨repetition, _, hrepetition, h⟩ := Work.bind_ok h
    cases (orFailAt_ok hrepetition).2
    obtain ⟨method, d₁, hclaim, h⟩ := Work.bind_ok h
    refine declares_file "ImageResource" (do
      let content ← orFailAt place ((← get).bundle.read source)
      let header ← orFailAt place (Bundle.imageHeader source content)
      let package ← importPackage Library.resourcesPackage "resources"
      return Bundle.imageExpr package i repetition header content) (a := a) hrun htypes hclaim ?_
    simpa only [bind_assoc, pure_bind] using h

instance (place : Option Location) (f : DataFile) : Keeps Declares (declareData place f) where
  keeps {d a d'} h := by
    have hrun : Run d d' := Keeps.keeps (R := Run) h
    have htypes : TypesStay d d' := Keeps.keeps (R := TypesStay) h
    unfold declareData at h
    split at h
    · obtain ⟨_, _, hfail, _⟩ := Work.bind_ok h
      cases hfail
    · obtain ⟨method, d₁, hclaim, hrest⟩ := Work.bind_ok h
      refine declares_file "DataResource" (do
        let content ← orFailAt place ((← get).bundle.read f.source)
        let package ← importPackage Library.resourcesPackage "resources"
        return Bundle.dataExpr package f content) (a := a) hrun htypes hclaim ?_
      simpa only [bind_assoc, pure_bind] using hrest

end Draft

end ViewBinder
