-- Guarded drafts. Every field and every reference of a guarded draft has a type, its catalog leaves
-- nothing open, and its document is the one it began with. Work on a draft keeps it guarded
-- however it ends, and does not crash; what it is given must have types as well.
import ViewBinder.Field.Reference
import ViewBinder.Message.Declare
import ViewBinder.Proofs.Catalog.Complete
import ViewBinder.Proofs.Field.Step
import ViewBinder.Proofs.Markup.Tree
import ViewBinder.Resource.Declare

namespace ViewBinder

open Markup (Document)
open Work (Safe SafeAt)

/-! ## Types that are there -/

/-- There is a type. -/
class Given (type : Option TypeId) : Prop where
  given : type.isSome

/-- None of the types is missing. -/
class AllGiven (types : List (Option TypeId)) : Prop where
  given : ∀ type ∈ types, type.isSome

instance (t : TypeId) : Given (some t) := ⟨rfl⟩

instance : AllGiven [] := ⟨nofun⟩

instance {type : Option TypeId} {types : List (Option TypeId)} [h : Given type]
    [hs : AllGiven types] : AllGiven (type :: types) := ⟨List.forall_mem_cons.mpr ⟨h.given, hs.given⟩⟩

theorem Method.Typed.allGiven {m : Method} (h : m.Typed) : AllGiven (m.params.map (·.type)) :=
  ⟨fun type htype => by
    obtain ⟨p, hp, rfl⟩ := List.mem_map.mp htype
    exact h p hp⟩

/-! ## Fields -/

namespace FieldTable

/-- Every field has a type, and so does whatever a reference must fit. -/
structure Typed (t : FieldTable) : Prop where
  fields : ∀ id < t.fields.size, (t.field id).type.isSome
  references : ∀ r ∈ t.references, AllGiven r.types

variable {t t' : FieldTable}

theorem Typed.change (h : t.Typed) (id : FieldId) {g : Field → Field}
    (hg : ∀ f, (g f).type = f.type) : (t.change id g).Typed where
  fields other hother := by
    rw [t.field_change_apply id other g (·.type) hg]
    exact h.fields other (size_change t id g ▸ hother)
  references := h.references

theorem type_withNeed (f : Field) (other : Text) : (f.withNeed other).type = f.type := by
  unfold Field.withNeed
  split <;> rfl

theorem Typed.depend (h : t.Typed) (name : Text) : (t.depend name).Typed := by
  unfold FieldTable.depend
  split
  · exact h.change _ fun f => type_withNeed f name
  · exact h

theorem Typed.addReference (h : t.Typed) (r : FieldReference) (hr : AllGiven r.types) :
    (t.addReference r).Typed := by
  have hadded : ({ t with references := t.references ++ [r] } : FieldTable).Typed := by
    refine ⟨h.fields, fun r' hr' => ?_⟩
    rcases List.mem_append.mp hr' with hold | hnew
    · exact h.references r' hold
    · rw [List.mem_singleton.mp hnew]
      exact hr
  exact hadded.depend _

theorem Typed.push (h : t.Typed) {f : Field} (hf : f.type.isSome) :
    ({ t with fields := t.fields.push f } : FieldTable).Typed where
  fields id hid := by
    rcases Nat.lt_or_ge id t.fields.size with hold | hnew
    · rw [field_push hold]
      exact h.fields id hold
    · obtain rfl : id = t.fields.size :=
        Nat.le_antisymm (Nat.le_of_lt_succ (Nat.lt_of_lt_of_eq hid (Array.size_push _))) hnew
      rw [field_push_size]
      exact hf
  references := h.references

theorem Typed.register (h : t.Typed) {c : Catalog} {precedence : Precedence}
    {type : Option TypeId} [Given type] {name : Text} {id : FieldId}
    (hregister : t.register c precedence type name = .ok (id, t')) : t'.Typed := by
  unfold FieldTable.register at hregister
  split at hregister
  · cases hregister
  · cases hregister
    exact (h.push Given.given).depend _

theorem Typed.require (h : t.Typed) {c : Catalog} {precedence : Precedence}
    {type : Option TypeId} [Given type] {name : Text} {id : FieldId}
    (hrequire : t.require c precedence type name = .ok (id, t')) : t'.Typed := by
  unfold FieldTable.require at hrequire
  split at hrequire
  · dsimp only at hrequire
    split at hrequire
    · cases hrequire
    · cases hrequire
      exact h.depend _
  · exact h.register hrequire

end FieldTable

namespace Draft

/-! ## Guarded drafts -/

/-- The draft goes on from the document `D`, every type is there that work relies on, and what was
a tree in `c` is one still. The types of the bundle and of the messages are the unit's own. -/
structure Guarded (D : Document) (c : Catalog) (d : Draft) : Prop where
  ordered : D.Ordered
  document : D.SameTree d.document
  catalog : d.catalog.Ready
  retains : c.Retains d.catalog
  fields : d.fields.Typed
  bundle : ∃ t < d.catalog.types.size, d.bundle.type = some t ∧ d.messages.type ≠ some t
  messages : ∃ t < d.catalog.types.size, d.messages.type = some t ∧
    ∀ m ∈ (d.catalog.decl t).methods, m.name ≠ "SetWidget"

variable {D : Document} {c : Catalog} {d : Draft} {B : Draft → Prop} {α β : Type}

/-- The catalog is the one that counts from now on. -/
theorem Guarded.from (h : Guarded D c d) : Guarded D d.catalog d :=
  { h with retains := Catalog.Retains.refl _ }

theorem Guarded.since {c' : Catalog} (h : Guarded D c' d) (hc : c.Retains c') : Guarded D c d :=
  { h with retains := hc.trans h.retains }

theorem Guarded.withFields (h : Guarded D c d) {fields : FieldTable} (hfields : fields.Typed) :
    Guarded D c { d with fields } := { h with fields := hfields }

/-- Parts of a draft that nothing here depends on. -/
theorem Guarded.withOthers (h : Guarded D c d) (imports : Imports) (markers : Markers) (log : Log) :
    Guarded D c { d with imports, markers, log } := { h with }

/-- A unit adds a type to the table. -/
theorem Guarded.push (h : Guarded D c d) {decl : TypeDecl} (hmethods : ∀ m ∈ decl.methods, m.Typed)
    (hconstructors : decl.constructors = []) :
    Guarded D c { d with catalog := (d.catalog.push decl).2 } where
  ordered := h.ordered
  document := h.document
  catalog := h.catalog.push hmethods hconstructors
  retains := h.retains.trans (Catalog.retains_push _ _)
  fields := h.fields
  bundle := by
    obtain ⟨t, ht, htype, hother⟩ := h.bundle
    exact ⟨t, Nat.lt_of_lt_of_le ht (Catalog.size_push _ _ ▸ Nat.le_succ _), htype, hother⟩
  messages := by
    obtain ⟨t, ht, htype, hnames⟩ := h.messages
    refine ⟨t, Nat.lt_of_lt_of_le ht (Catalog.size_push _ _ ▸ Nat.le_succ _), htype, ?_⟩
    rwa [show ({ d with catalog := (d.catalog.push decl).2 } : Draft).catalog.decl t =
      d.catalog.decl t from Catalog.decl_push ht decl]

/-! ## Work on parts -/

instance {w : Work Document α} [h : Safe D.SameTree (fun _ => False) w] :
    Safe (Guarded D c) B (liftM w : Work Draft α) where
  safe d hd := ⟨{ hd with document := (h.safe d.document hd.document).1 },
    fun hcrash => ((h.safe d.document hd.document).2 hcrash).elim⟩

/-- Work on the markers leaves the rest alone. -/
theorem safe_markers {w : Work Markers α} (h : ∀ m, (w.runOn m).1 ≠ .error .crash) :
    Safe (Guarded D c) B (liftM w : Work Draft α) where
  safe d hd := ⟨hd.withOthers d.imports (w.runOn d.markers).2 d.log,
    fun hcrash => absurd hcrash (h d.markers)⟩

instance (source : Text) (place : Option Location) (value : Text) :
    Safe (Guarded D c) B (liftM (Markers.allocate source place value) : Work Draft Text) :=
  safe_markers fun _ => nofun

instance (marker value : Text) :
    Safe (Guarded D c) B (liftM (Markers.resolve marker value) : Work Draft Unit) := by
  refine safe_markers fun m => ?_
  unfold Markers.resolve
  split
  · nofun
  · rw [Work.runOn_bind, Work.runOn_get]
    dsimp only
    split <;> nofun

/-! ## Failing and reporting -/

instance (e : Nat) (p : Document → Problem) : Safe (Guarded D c) B (failOn e p : Work Draft α) := by
  unfold failOn
  infer_instance

instance (place : Option Location) (step : Except Problem α) :
    Safe (Guarded D c) B (orFailAt place step) := by
  cases step <;> (unfold orFailAt; infer_instance)

instance (e : Nat) (message : Document → Text) : Safe (Guarded D c) B (warn e message) :=
  Safe.modify fun d hd => hd.withOthers d.imports d.markers _

instance (place : Option Location) (p : Problem) : Safe (Guarded D c) B (report place p) :=
  Safe.modify fun d hd => hd.withOthers d.imports d.markers _

/-! ## Imports and fields -/

instance (path preferred : Text) : Safe (Guarded D c) B (importPackage path preferred) :=
  Safe.modifyGet fun d hd => hd.withOthers _ d.markers d.log

instance (t : TypeId) (name : Text) : Safe (Guarded D c) B (qualify t name) :=
  Safe.modifyGet fun d hd => hd.withOthers _ d.markers d.log

instance (t : TypeId) : Safe (Guarded D c) B (typeRef t) :=
  Safe.modifyGet fun d hd => hd.withOthers _ d.markers d.log

instance (id : FieldId) : Safe (Guarded D c) B (field id) := by
  unfold field
  infer_instance

instance (e : Nat) : Safe (Guarded D c) B (tag e) := by
  unfold tag
  infer_instance

theorem safe_changeFields {step : Draft → Except Problem (α × FieldTable)}
    (h : ∀ {d a fields}, d.fields.Typed → step d = .ok (a, fields) → fields.Typed) :
    Safe (Guarded D c) B (changeFields step) := by
  unfold changeFields
  refine Safe.read fun d hd => ?_
  split
  · rename_i a fields hstep
    exact Safe.modifyGet fun d' hd' => hd'.withFields (h hd.fields hstep)
  · infer_instance

instance (precedence : Precedence) (type : Option TypeId) (name : Text) [Given type] :
    Safe (Guarded D c) B (register precedence type name) :=
  safe_changeFields fun hfields hregister => hfields.register hregister

instance (precedence : Precedence) (type : Option TypeId) (name : Text) [Given type] :
    Safe (Guarded D c) B (require precedence type name) :=
  safe_changeFields fun hfields hrequire => hfields.require hrequire

theorem safe_changeField (id : FieldId) {g : Field → Field} (hg : ∀ f, (g f).type = f.type) :
    Safe (Guarded D c) B (changeField id g) :=
  Safe.modify fun _ hd => hd.withFields (hd.fields.change id hg)

instance (id : FieldId) (expr : Text) : Safe (Guarded D c) B (setInitializer id expr) := by
  unfold setInitializer
  refine Safe.read fun d _ => ?_
  dsimp only
  split
  · infer_instance
  · exact safe_changeField id fun _ => rfl

instance (id : FieldId) (statement : Text) : Safe (Guarded D c) B (addStatement id statement) :=
  safe_changeField id fun _ => rfl

instance (id : FieldId) : Safe (Guarded D c) B (use id) := by
  unfold use
  exact Safe.bind' (safe_changeField id fun _ => rfl) fun _ => inferInstance

instance (id : FieldId) (other : Text) : Safe (Guarded D c) B (addNeed id other) :=
  safe_changeField id fun f => FieldTable.type_withNeed f other

/-! ## References -/

instance (e : Nat) (path : Text) (types : List (Option TypeId)) [h : AllGiven types] :
    Safe (Guarded D c) B (refer e path types) := by
  unfold refer
  refine Safe.bind' inferInstance fun d => Safe.bind' inferInstance fun marker => ?_
  refine Safe.bind' (Safe.modify fun d hd => ?_) fun _ => inferInstance
  exact hd.withFields (hd.fields.addReference _ h)

/-- Accessors lead from a type to a type. -/
theorem follow_given {r : FieldReference} {segments : List Text} {type found : Option TypeId}
    {expr result : Text} (htype : type.isSome)
    (h : d.follow r segments type expr = .ok (found, result)) : found.isSome := by
  induction segments generalizing type expr with
  | nil =>
    cases h
    exact htype
  | cons segment rest ih =>
    unfold follow at h
    split at h
    · rename_i getter hgetter
      refine ih ?_ h
      unfold Catalog.getter? at hgetter
      obtain ⟨name, -, hname⟩ := List.exists_of_findSome?_eq_some hgetter
      have hfits := (Option.filter_eq_some_iff.mp hname).2
      simp only [Bool.and_eq_true] at hfits
      exact hfits.2
    · cases h

theorem target_given {r : FieldReference} {id : FieldId} {type : Option TypeId} {expr : Text}
    (hd : d.fields.Typed) (h : d.target r = .ok (id, type, expr)) : type.isSome := by
  unfold target at h
  split at h
  · cases h
  · rename_i other hfind
    have hlt := (FieldTable.byName?_eq_some hfind).1
    dsimp only at h
    cases hfollow : d.follow r (r.segments.drop 1) (d.fields.field other).type
      (d.fields.field other).name with
    | error p =>
      rw [hfollow] at h
      cases h
    | ok found =>
      rw [hfollow] at h
      cases h
      exact follow_given (hd.fields _ hlt) hfollow

/-- Types that are there can be compared. -/
theorem isStuck_eq_false {r : FieldReference} (hr : AllGiven r.types) {actual : Option TypeId}
    (hactual : actual.isSome) (expr : Text) : d.isStuck r actual expr = false := by
  unfold isStuck
  rw [List.any_eq_false]
  intro wanted hwanted
  have hgiven := hr.given wanted ((List.takeWhile_prefix _).subset hwanted)
  simp [isComparable, hgiven, hactual]

theorem safe_settleReference {r : FieldReference} (hr : AllGiven r.types) :
    Safe (Guarded D c) B (settleReference r) := by
  unfold settleReference
  refine Safe.read fun d hd => ?_
  dsimp only
  split
  · infer_instance
  · rename_i id actual expr htarget
    rw [isStuck_eq_false hr (target_given hd.fields htarget)]
    refine Safe.bind' (safe_changeField id fun _ => rfl) fun _ => ?_
    rw [if_neg Bool.false_ne_true]
    split <;> infer_instance

instance : Safe (Guarded D c) B settleReferences := by
  unfold settleReferences
  refine Safe.read fun d hd => Safe.bind' (Safe.mapMMem fun r hr => ?_) fun sound => ?_
  · exact safe_settleReference (hd.fields.references r hr)
  · split
    · exact Safe.failing
    · infer_instance

/-! ## Messages -/

/-- No message is set as a widget. -/
theorem methodName_ne (i : Nat) : Messages.methodName i ≠ "SetWidget" := by
  intro h
  have hfirst : (Messages.methodName i).head? = (Text.ofString "SetWidget").head? := by rw [h]
  revert hfirst
  show (some 'M'.toUInt8 : Option UInt8) = _ → False
  decide

instance : Safe (Guarded D c) B updateMessageType := by
  refine Safe.modify fun d hd => ?_
  obtain ⟨t, ht, htype, hnames⟩ := hd.messages
  rw [htype]
  have htext : (d.catalog.find? [] "string").isSome :=
    hd.catalog.primitives "string" (by decide)
  have hmethods : ∀ m ∈ d.messages.methods (d.catalog.find? [] "string"),
      m.Typed ∧ m.name ≠ "SetWidget" := by
    intro m hm
    obtain ⟨entry, -, rfl⟩ := List.mem_map.mp hm
    refine ⟨fun p hp => ?_, methodName_ne _⟩
    obtain ⟨name, -, rfl⟩ := List.mem_map.mp hp
    exact htext
  refine ⟨hd.ordered, hd.document, ?_, ?_, hd.fields, ?_, ?_⟩
  · exact hd.catalog.setMethods t (f := fun _ => _) fun m hm => (hmethods m hm).1
  · refine hd.retains.trans (Catalog.retains_setMethods _ t (f := fun _ => _) ?_)
    exact fun m hm hname => absurd hname (hnames m hm)
  · obtain ⟨b, hb, hbundle⟩ := hd.bundle
    exact ⟨b, (Catalog.size_change _ _ _).symm ▸ hb, hbundle⟩
  · refine ⟨t, (Catalog.size_change _ _ _).symm ▸ ht, htype, fun m hm => ?_⟩
    rcases Catalog.decl_change d.catalog t t
      fun decl => { decl with methods := d.messages.methods (d.catalog.find? [] "string") } with
      hsame | ⟨-, -, hnew⟩
    · exact hnames m (hsame ▸ hm)
    · rw [hnew] at hm
      exact (hmethods m hm).2

/-- A message that is declared changes the list of messages only. -/
theorem declare_type {ms ms' : Messages} {m : Message} {i : Nat}
    (h : ms.declare m = .ok (i, ms')) : ms'.type = ms.type := by
  obtain ⟨_, -, h⟩ := answer_bind h
  split at h
  · split at h
    · split at h
      · cases h
      · cases h
        rfl
    · cases h
      rfl
  · cases h
    rfl

instance (place : Option Location) (m : Message) : Safe (Guarded D c) B (declareMessage place m) where
  safe d hd := by
    unfold declareMessage
    refine ((inferInstance : Safe (Guarded D c) B get).safe d hd).bind fun hget => ?_
    cases hget
    refine (((inferInstance : Safe (Guarded D c) B (orFailAt place _)).safe d hd)).bind ?_
    intro (i, messages) d' hdeclare
    cases hstep : d.messages.declare m with
    | error p =>
      rw [hstep] at hdeclare
      cases hdeclare
    | ok declared =>
      rw [hstep] at hdeclare
      cases hdeclare
      have hkept : Guarded D c { d with messages := messages } := by
        refine { hd with bundle := ?_, messages := ?_ }
        · rw [show ({ d with messages := messages } : Draft).messages.type = d.messages.type from
            declare_type hstep]
          exact hd.bundle
        · rw [show ({ d with messages := messages } : Draft).messages.type = d.messages.type from
            declare_type hstep]
          exact hd.messages
      have hrest : Safe (Guarded D c) B (do
          updateMessageType
          return Messages.methodName i : Work Draft Text) := inferInstance
      exact hrest.safe _ hkept

/-! ## Resources -/

instance (name : Text) : Safe (Guarded D c) B (resourceType name) := by
  refine Safe.modifyGet fun d hd => ?_
  split
  · exact hd
  · exact hd.push nofun rfl

instance (name : Text) (returns : TypeId) : Safe (Guarded D c) B (addBundleMethod name returns) := by
  refine Safe.modify fun d hd => ?_
  obtain ⟨b, hb, htype, hother⟩ := hd.bundle
  rw [htype]
  refine ⟨hd.ordered, hd.document, ?_, ?_, hd.fields, ?_, ?_⟩
  · refine hd.catalog.setMethods b (f := fun methods => methods ++ [_]) fun m hm => ?_
    rcases List.mem_append.mp hm with hold | hnew
    · exact hd.catalog.methods b m hold
    · rw [List.mem_singleton.mp hnew]
      exact nofun
  · refine hd.retains.trans (Catalog.retains_setMethods _ b (f := fun methods => methods ++ [_]) ?_)
    exact fun m hm _ => List.mem_append_left _ hm
  · exact ⟨b, (Catalog.size_change _ _ _).symm ▸ hb, htype, hother⟩
  · obtain ⟨t, ht, hmessages, hnames⟩ := hd.messages
    refine ⟨t, (Catalog.size_change _ _ _).symm ▸ ht, hmessages, fun m hm => ?_⟩
    rcases Catalog.decl_change d.catalog b t fun decl => { decl with methods := decl.methods ++
        [{ name, params := [], returns := some returns, owner := some b }] } with
      hsame | ⟨-, rfl, -⟩
    · exact hnames m (hsame ▸ hm)
    · exact absurd hmessages hother

instance (place : Option Location) (field : Text) :
    Safe (Guarded D c) B (claimMethod place field) where
  safe d hd := by
    unfold claimMethod
    refine ((inferInstance : Safe (Guarded D c) B get).safe d hd).bind fun hget => ?_
    cases hget
    refine (((inferInstance : Safe (Guarded D c) B (orFailAt place _)).safe d hd)).bind ?_
    intro (method, bundle) d' hclaim
    unfold Bundle.claim at hclaim
    dsimp only at hclaim
    split at hclaim
    · cases hclaim
    · cases hclaim
      exact ⟨{ hd with }, nofun⟩

instance (field : Text) (interfaces : List TypeId) (classes : List StyleClass) :
    Safe (Guarded D c) B (generateStyleType field interfaces classes) := by
  refine Safe.modifyGet fun d hd => hd.push (fun m hm => ?_) rfl
  have hparams : m.params = [] := by
    simp only [List.mem_cons, List.mem_map] at hm
    obtain rfl | rfl | ⟨k, -, rfl⟩ := hm <;> rfl
  intro p hp
  rw [hparams] at hp
  cases hp

instance (place : Option Location) (s : Style) : Safe (Guarded D c) B (declareStyle place s) := by
  have hrest : ∀ classes resource method sheet, Safe (Guarded D c) B (do
      let type ← generateStyleType s.field (resource :: s.type.toList) classes
      modify fun d =>
        { d with bundle.styles := d.bundle.styles ++ [⟨s, method, sheet, classes, type⟩] }
      let fieldType := s.type.getD type
      addBundleMethod method fieldType
      return (fieldType, method) : Work Draft (TypeId × Text)) := by
    intro classes resource method sheet
    refine Safe.bind' inferInstance fun type => ?_
    exact Safe.bind' (Safe.modify fun _ hd => { hd with }) fun _ => inferInstance
  unfold declareStyle
  refine Safe.bind' inferInstance fun method => Safe.bind' inferInstance fun d => ?_
  refine Safe.bind' inferInstance fun css => Safe.bind' inferInstance fun classes => ?_
  refine Safe.bind' inferInstance fun resource => ?_
  split
  · refine Safe.bind' inferInstance fun d => Safe.bind' inferInstance fun _ => ?_
    exact hrest _ _ _ _
  · exact hrest _ _ _ _

instance (typeName method expr : Text) : Safe (Guarded D c) B (addFile typeName method expr) := by
  unfold addFile
  refine Safe.bind' inferInstance fun type => Safe.bind' inferInstance fun ref => ?_
  exact Safe.bind' (Safe.modify fun _ hd => { hd with }) fun _ => inferInstance

instance (place : Option Location) (i : Image) : Safe (Guarded D c) B (declareImage place i) := by
  unfold declareImage
  infer_instance

instance (place : Option Location) (f : DataFile) : Safe (Guarded D c) B (declareData place f) := by
  unfold declareData
  infer_instance

theorem Guarded.adopt (h : Guarded D c d) {t : TypeId} {catalog : Catalog}
    (hadopt : d.catalog.adopt t = .ok catalog) : Guarded D c { d with catalog } := by
  have hready := h.catalog.adopt hadopt
  have hretains := h.retains.trans (Catalog.retains_adopt hadopt)
  obtain rfl := Catalog.adopt_eq hadopt
  exact ⟨h.ordered, h.document, hready, hretains, h.fields, h.bundle, h.messages⟩

instance : Safe (Guarded D c) B adoptStyleTypes := by
  unfold adoptStyleTypes
  refine Safe.bind' inferInstance fun d => ?_
  refine Safe.bind' (Safe.forInMem fun s _ _ => ⟨fun d hd => ?_⟩) fun _ => inferInstance
  refine ((inferInstance : Safe (Guarded D c) B get).safe d hd).bind fun hget => ?_
  cases hget
  split
  · rename_i catalog hadopt
    exact ⟨hd.adopt hadopt, nofun⟩
  · exact ⟨hd, nofun⟩

instance : Safe (Guarded D c) B bundleDeclarations := by
  unfold bundleDeclarations
  refine Safe.bind' inferInstance fun d => ?_
  dsimp only
  split
  · infer_instance
  · refine Safe.bind' (Safe.mapMMem fun s _ => ?_) fun styles => inferInstance
    refine Safe.bind' inferInstance fun generated => ?_
    split <;> infer_instance

end Draft

end ViewBinder
