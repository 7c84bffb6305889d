-- Compiling a template without looking at the numbers of its markers. Directives and the bindings of
-- the owner write no marker anywhere; references are settled in the same way whatever their markers
-- are numbered by; and the program that is put together then differs in its markers only.
import ViewBinder.Compile
import ViewBinder.Proofs.Blind.Element
import ViewBinder.Proofs.Template.Crash

namespace ViewBinder

open Session
open Dressed (dress)
open Work (Blind Draws Keeps Sinks)

variable {n : Nat} {E : MarkerEntry → Prop} [Unspliced E]

/-! ## Directives -/

namespace Directive

instance (e : Nat) (precedence : Precedence) (type : TypeId) (name : Text) :
    Blind n E (declareField e precedence type name) := by
  have hfree : Blind n E (do
      let s ← get
      match s.fields.find? name with
      | some old =>
        let first := s.catalog.key (s.fields.field old).type
        failOn e fun _ => .duplicateField name first (s.catalog.key type)
      | none => Draft.register precedence type name : Work Session FieldId) := by
    refine Blind.reading (fun s => ?_) fun _ t _ => ?_
    · split <;> infer_instance
    · simp only [dress, FieldTable.find?_outline, FieldTable.field_outline]
      rfl
  unfold declareField
  infer_instance

instance (e : Nat) (name : Text) (problem : Text → Text → Problem) :
    Blind n E (resolveType e name problem) := by
  unfold resolveType
  refine Blind.bind' inferInstance fun c => ?_
  split <;> infer_instance

instance (e : Nat) (found : Option Nat) (children : List Nat) :
    Blind n E (attributesElement e found children) := by
  induction children generalizing found with
  | nil =>
    unfold attributesElement
    infer_instance
  | cons child rest ih =>
    unfold attributesElement
    infer_instance

instance (e : Nat) : Blind n E (withValue e) := by
  unfold withValue
  refine Blind.bind' inferInstance fun name => Blind.bind' inferInstance fun typeName => ?_
  refine Blind.bind' inferInstance fun type => Blind.bind' inferInstance fun f => ?_
  infer_instance

instance (e : Nat) : Blind n E (importConstants e) := by
  unfold importConstants
  refine Blind.bind' inferInstance fun spec => ?_
  split
  · infer_instance
  · refine Blind.bind' inferInstance fun type => Blind.bind' inferInstance fun c => ?_
    infer_instance

instance (e : Nat) : Blind n E (style e) := by
  have hdeclare : ∀ (name sources css : Text) (typed : Work Session (Option TypeId)),
      Blind n E typed → Blind n E (do
        let declared ← typed
        let bundle ← resourceBundle
        let made ← Draft.declareStyle ((← getDocument).location e)
          { field := name, sources := sources.words, type := declared, css }
        let f ← declareField e .style made.1 name
        Draft.addNeed f bundle
        Draft.setInitializer f (bundle ++ "." ++ made.2 ++ "()")
        call f "EnsureInjected" [] : Work Session Unit) := by
    intro name sources css typed htyped
    refine Blind.bind' htyped fun declared => Blind.bind' inferInstance fun bundle => ?_
    refine Blind.bind' inferInstance fun d => Blind.bind' inferInstance fun made => ?_
    infer_instance
  unfold style
  refine Blind.bind' inferInstance fun name => Blind.bind' inferInstance fun sources => ?_
  refine Blind.bind' inferInstance fun typeName => Blind.bind' inferInstance fun css => ?_
  refine Blind.reading (fun s => ?_) fun _ t _ => ?_
  · dsimp only
    split
    · infer_instance
    · split
      · exact hdeclare _ _ _ _ inferInstance
      · exact hdeclare _ _ _ _ inferInstance
  · simp only [dress, FieldTable.find?_outline, FieldTable.field_outline]
    rfl

instance (e : Nat) (name typeName : Text) (declare : Work Draft Text) [Blind n E declare] :
    Blind n E (resource e name typeName declare) := by
  unfold resource
  refine Blind.reading (fun s => ?_) fun _ t _ => ?_
  · dsimp only
    split
    · infer_instance
    · split
      · infer_instance
      · refine Blind.bind' inferInstance fun bundle => Blind.bind' inferInstance fun method => ?_
        infer_instance
  · simp only [dress, FieldTable.find?_outline, FieldTable.field_outline]
    rfl

instance (e : Nat) : Blind n E (image e) := by
  unfold image
  infer_instance

instance (e : Nat) : Blind n E (data e) := by
  unfold data
  infer_instance

instance (e : Nat) : Blind n E (follow e) := by
  unfold follow
  refine Blind.bind' inferInstance fun d => ?_
  dsimp only
  infer_instance

instance (directives : List Nat) : Blind n E (followAll directives) := by
  unfold followAll
  infer_instance

end Directive

/-! ## Bindings of the owner -/

namespace Binding

instance (statement : Text) : Blind n E (addTrailing statement) :=
  blind_beside (fun _ => rfl) fun _ _ _ => rfl

instance (f : FieldId) (ui : Nat) : Blind n E (placeOf f ui) := by
  unfold placeOf
  refine Blind.reading (fun s => inferInstance) fun _ t _ => ?_
  simp only [dress, FieldTable.field_outline]
  rfl

instance (ui : Nat) (ownerName : Text) (u : UiField) : Blind n E (bindField ui ownerName u) := by
  unfold bindField
  refine Blind.reading (fun s => ?_) fun _ t _ => ?_
  · split
    · infer_instance
    · dsimp only
      infer_instance
  · simp only [dress, FieldTable.find?_outline, FieldTable.field_outline]
    rfl

instance (ui : Nat) (h : Handler) (method : Method) (name : Text) :
    Blind n E (bindHandlerTo ui h method name) := by
  unfold bindHandlerTo
  refine Blind.reading (fun s => ?_) fun _ t _ => ?_
  · split
    · infer_instance
    · dsimp only
      split <;> infer_instance
  · simp only [dress, FieldTable.find?_outline, FieldTable.field_outline]
    rfl

instance (ui : Nat) (owner : TypeId) (h : Handler) : Blind n E (bindHandler ui owner h) := by
  unfold bindHandler
  refine Blind.reading (fun s => ?_) fun _ _ _ => rfl
  dsimp only
  split <;> infer_instance

instance (ui : Nat) : Blind n E (bindOwner ui) := by
  unfold bindOwner
  refine Blind.reading (fun s => ?_) fun _ _ _ => rfl
  split <;> infer_instance

end Binding

/-! ## Gathering -/

namespace Template

instance (root : Nat) (children : List Nat) (ui : Option Nat) :
    Blind n E (interface root children ui) := by
  induction children generalizing ui with
  | nil =>
    cases ui <;> (unfold interface; infer_instance)
  | cons child rest ih =>
    unfold interface
    refine Blind.bind' inferInstance fun d => ?_
    repeat' (first | infer_instance | split)

instance : Blind n E failIfReported := by
  unfold failIfReported
  refine Blind.reading (fun s => ?_) fun _ _ _ => rfl
  split <;> infer_instance

instance (root : Nat) : Blind n E (gather root) := by
  unfold gather
  refine Blind.bind' inferInstance fun _ => Blind.bind' inferInstance fun _ => ?_
  refine Blind.bind' inferInstance fun _ => Blind.bind' inferInstance fun d => ?_
  refine Blind.bind' inferInstance fun ui => Blind.bind' inferInstance fun directives => ?_
  refine Blind.bind' inferInstance fun _ => Blind.bind' inferInstance fun _ => ?_
  infer_instance

end Template

/-! ## Meanings of markers -/

namespace Markers

variable {entries : List MarkerEntry} {ν : Numbering n} {k : Nat}

theorem find?_numbered (hn : entries.length ≤ n) (hk : k < n) (woven : Nat) :
    (⟨ν.supply, numbered ν entries, woven⟩ : Markers).find? (ν.supply k) = entries[k]? := by
  rcases hentry : entries[k]? with _ | entry
  · refine List.lookup_eq_none_iff.mpr fun e he => ?_
    obtain ⟨j, hj, rfl⟩ := List.mem_mapIdx.mp he
    refine bne_iff_ne.mpr fun hsame => ?_
    have hlength := List.getElem?_eq_none_iff.mp hentry
    have := ν.injective k hk j (Nat.lt_of_lt_of_le hj hn) hsame
    omega
  · obtain ⟨hlength, rfl⟩ := List.getElem?_eq_some_iff.mp hentry
    have hsplit : numbered ν entries = (numbered ν entries).take k ++
        (ν.supply k, entries[k]) :: (numbered ν entries).drop (k + 1) := by
      have hhere : (numbered ν entries)[k]? = some (ν.supply k, entries[k]) := by
        unfold numbered
        rw [List.getElem?_mapIdx, hentry]
        rfl
      obtain ⟨_, hhere⟩ := List.getElem?_eq_some_iff.mp hhere
      rw [← hhere, List.getElem_cons_drop, List.take_append_drop]
    refine List.lookup_eq_some_iff.mpr ⟨_, _, hsplit, fun e he => ?_⟩
    obtain ⟨j, hj, rfl⟩ := List.mem_take_iff_getElem.mp he
    refine bne_iff_ne.mpr fun hsame => ?_
    unfold numbered at hsame
    rw [List.getElem_mapIdx] at hsame
    have := ν.injective k hk j (by omega) hsame
    omega

theorem redefine_numbered (hn : entries.length ≤ n) (hk : k < n) (woven : Nat) (meaning : Meaning) :
    (⟨ν.supply, numbered ν entries, woven⟩ : Markers).redefine (ν.supply k) meaning =
      ⟨ν.supply, numbered ν (entries.modify k ({ · with meaning })), woven⟩ := by
  unfold redefine numbered
  congr 1
  refine List.ext_getElem? fun j => ?_
  simp only [List.getElem?_map, List.getElem?_mapIdx, List.getElem?_modify]
  rcases hentry : entries[j]? with _ | entry
  · rfl
  · have hj : j < n := by
      have := (List.getElem?_eq_some_iff.mp hentry).1
      omega
    dsimp only [Option.map_some]
    by_cases hkj : k = j
    · subst hkj
      simp
    · have hne : ν.supply j ≠ ν.supply k := fun hsame => hkj (ν.injective j hj k hk hsame).symm
      simp [hkj, hne]

end Markers

/-! ## References -/

namespace Draft

/-- Any markers. -/
abbrev Any (_ : MarkerEntry) : Prop := True

theorem follow_dress (m m' : Markers) (t : FieldTable) (d : Draft) (r : FieldReference)
    (marker : Text) (segments : List Text) (type : Option TypeId) (expr : Text) :
    follow (dress m t d) { r with marker } segments type expr =
      follow (dress m' t.outline d) r segments type expr := by
  induction segments generalizing type expr with
  | nil => rfl
  | cons segment rest ih =>
    unfold follow
    simp only [ih]
    rfl

theorem target_dress (m m' : Markers) (t : FieldTable) (d : Draft) (r : FieldReference)
    (marker : Text) :
    target (dress m t d) { r with marker } = target (dress m' t.outline d) r := by
  unfold target
  simp only [follow_dress m m' t d r marker]
  simp only [dress, FieldTable.find?_outline, FieldTable.field_outline]
  rfl

instance keeps_resolve (marker value : Text) :
    Keeps (Sinks n Any) (liftM (Markers.resolve marker value) : Work Draft Unit) where
  keeps {d _ d'} hrun hrefers := by
    rcases hwork : (Markers.resolve marker value).runOn d.markers with ⟨answer, m⟩
    have hlift : (liftM (Markers.resolve marker value) : Work Draft Unit).runOn d =
        (answer, { d with markers := m }) := by
      show (((Markers.resolve marker value).runOn d.markers).1,
        ({ d with markers := ((Markers.resolve marker value).runOn d.markers).2 } : Draft)) = _
      rw [hwork]
    rw [hlift] at hrun
    obtain ⟨hanswer, rfl⟩ := Prod.mk.inj hrun
    subst hanswer
    have hsize : m.size = d.markers.size := by
      unfold Markers.resolve at hwork
      split at hwork
      · cases hwork
      · obtain ⟨_, _, hget, hwork⟩ := Work.bind_ok hwork
        cases hget
        split at hwork
        · cases hwork
        · cases hwork
          exact List.length_map _
    exact ⟨hsize.symm.trans_le hrefers.few, fun _ _ => trivial, hrefers.calm, hrefers.names⟩

theorem runOn_resolveMarker (ν : Numbering n) {k : Nat} (hk : k < n) (value : Text) (d : Draft) :
    (liftM (Markers.resolve (ν.marker k) value) : Work Draft Unit).runOn d =
      match d.markers.find? (ν.supply k) with
      | none => (.error ((Problem.unknownMarker (ν.supply k)).failure none), d)
      | some _ => (.ok ⟨⟩,
          { d with markers := d.markers.redefine (ν.supply k) (.known value) }) := by
  have hid : Marker.id? (ν.marker k) = some (ν.supply k) := Marker.id?_text_of_le (ν.small k hk)
  show (((Markers.resolve (ν.marker k) value).runOn d.markers).1,
    ({ d with markers := ((Markers.resolve (ν.marker k) value).runOn d.markers).2 } : Draft)) = _
  unfold Markers.resolve
  rw [hid]
  dsimp only
  rw [Work.runOn_bind, Work.runOn_get]
  dsimp only
  cases d.markers.find? (ν.supply k) <;> rfl

/-- A marker gets the same meaning under all numberings. -/
theorem draws_resolve {k : Nat} (hk : k < n) (value : Text) :
    Draws (n := n) Any (fun ν => (liftM (Markers.resolve (ν.marker k) value) : Work Draft Unit))
      Same := by
  refine ⟨fun ν => inferInstance, ?_⟩
  rintro S ⟨M, T, d, ⟨entries, woven, hknown, rfl⟩, hT, rfl⟩ ν a d' hrun hrefers
  have hn : entries.length ≤ n := by
    have hbefore := ((keeps_resolve (n := n) (ν.marker k) value).keeps hrun hrefers).few
    exact (List.length_mapIdx (l := entries)).symm.trans_le hbefore
  have hall : ∀ ν : Numbering n,
      (dress (⟨ν.supply, Markers.numbered ν entries, woven⟩ : Markers) (T ν) d).markers.find?
        (ν.supply k) = entries[k]? := fun ν => Markers.find?_numbered hn hk woven
  rw [runOn_resolveMarker ν hk, hall ν] at hrun
  rcases hentry : entries[k]? with _ | entry
  · rw [hentry] at hrun
    cases hrun
  · have hknown' : ∀ e ∈ entries.modify k ({ · with meaning := .known value }),
        ∃ value, e.meaning = .known value := by
      intro e he
      obtain ⟨j, hj⟩ := List.mem_iff_getElem?.mp he
      rw [List.getElem?_modify] at hj
      rcases hold : entries[j]? with _ | old
      · rw [hold] at hj
        cases hj
      · rw [hold] at hj
        cases hj
        split
        · exact ⟨value, rfl⟩
        · exact hknown old (List.mem_of_getElem? hold)
    refine ⟨fun _ => ⟨⟩, _, ⟨_, T, d, ⟨_, woven, hknown', rfl⟩, hT, rfl⟩, ⟨⟨⟩, rfl⟩, fun ν => ?_⟩
    rw [runOn_resolveMarker ν hk, hall ν, hentry]
    dsimp only
    rw [← Markers.redefine_numbered hn hk]
    rfl

instance (id : FieldId) : Blind n Any (changeField id ({ · with used := true })) :=
  blind_changeField id fun _ _ _ => rfl

/-- Reports what is wrong with a reference. -/
def breaks (d : Draft) (r : FieldReference) (p : Problem) : Work Draft Bool := do
  report (d.document.location r.element) p
  return false

instance blind_breaks (d : Draft) (r : FieldReference) (p : Problem) :
    Blind n Any (breaks d r p) := by
  unfold breaks
  infer_instance

/-- What becomes of a reference whose path ends somewhere or is broken. -/
def settleTarget (d : Draft) (r : FieldReference) (marker : Text) :
    Except Problem (FieldId × Option TypeId × Text) → Work Draft Bool
  | .error p => breaks d r p
  | .ok (id, actual, expr) => do
    changeField id ({ · with used := true })
    if d.isStuck r actual expr then throw .crash
    match d.fit r actual expr with
    | .error p => breaks d r p
    | .ok adapted => do
      Markers.resolve marker adapted
      return true

theorem settleReference_eq (r : FieldReference) :
    settleReference r = (do
      let d ← get
      settleTarget d r r.marker (d.target r) : Work Draft Bool) := by
  unfold settleReference
  congr 1

theorem keeps_settleTarget (ν : Numbering n) (d : Draft) (r : FieldReference) (marker : Text)
    (found : Except Problem (FieldId × Option TypeId × Text)) :
    Keeps (Sinks n Any) (settleTarget d r marker found) := by
  rcases found with p | ⟨id, actual, expr⟩
  · exact (blind_breaks d r p).keeps ν
  · refine Keeps.bind' (Blind.keeps ν) fun _ => ?_
    dsimp only
    split
    · exact Keeps.bind' (Blind.keeps ν) fun _ => by
        split
        · exact (blind_breaks d r _).keeps ν
        · infer_instance
    · split
      · exact (blind_breaks d r _).keeps ν
      · infer_instance

theorem draws_settleTarget (d : Draft) (r : FieldReference) {k : Nat} (hk : k < n)
    (found : Except Problem (FieldId × Option TypeId × Text)) :
    Draws (n := n) Any (fun ν => settleTarget d r (ν.marker k) found) Same := by
  rcases found with p | ⟨id, actual, expr⟩
  · exact (blind_breaks d r p).draws
  · refine .after Blind.draws fun _ => .ite (fun _ => .of_spoils fun _ => inferInstance) fun _ => ?_
    dsimp only
    split
    · exact (blind_breaks d r _).draws
    · exact .after (draws_resolve hk _) fun _ => Blind.draws

theorem keeps_settleReference (ν : Numbering n) (r : FieldReference) :
    Keeps (Sinks n Any) (settleReference r) := by
  rw [settleReference_eq]
  exact Keeps.bind' inferInstance fun d => keeps_settleTarget ν d r _ _

/-- A reference is checked, and its marker gets a meaning, in the same way under all numberings. -/
theorem draws_settleReference {R : Numbering n → FieldReference} (hR : FieldReference.Alike R) :
    Draws Any (fun ν => settleReference (R ν)) Same := by
  obtain ⟨r, k, hk, rfl⟩ := hR
  simp only [settleReference_eq]
  refine .reading (fun ν d => keeps_settleTarget ν d _ _ _) fun S hS => ?_
  obtain ⟨M, T, d, -, hT, rfl⟩ := hS
  obtain ⟨t, ht⟩ := hT.outline
  have htarget : ∀ ν, target (dress (M ν) (T ν) d) { r with marker := ν.marker k } =
      target (dress {} t d) r := fun ν => by
    rw [target_dress _ {}, show (T ν).outline = t from congrFun ht ν]
  simp only [htarget]
  have hsame : ∀ ν : Numbering n, settleTarget (dress (M ν) (T ν) d) { r with marker := ν.marker k }
      (ν.marker k) (target (dress {} t d) r) =
        settleTarget d r (ν.marker k) (target (dress {} t d) r) := fun ν => by
    rcases target (dress {} t d) r with p | ⟨id, actual, expr⟩ <;> rfl
  simp only [hsame]
  exact draws_settleTarget d r hk _

/-- All references are settled in the same way under all numberings. -/
theorem draws_settleReferences : Draws (n := n) Any (fun _ => settleReferences) Same := by
  refine .reading (fun ν d => Keeps.bind' (Keeps.mapM' (keeps_settleReference ν)) fun sound => ?_)
    fun S hS => ?_
  · split
    · refine Keeps.bind' inferInstance fun d => ?_
      split <;> infer_instance
    · infer_instance
  · obtain ⟨M, T, d, -, ⟨t, F, R, hF, hR, rfl⟩, rfl⟩ := hS
    refine .bind (Q := Each Same) (.mapM hR fun _ hA => draws_settleReference hA) fun L hL => ?_
    obtain ⟨sound, rfl⟩ := hL.same
    refine .ite (fun _ => .looking (fun d => ?_) fun _ _ _ => rfl) fun _ => .answer ⟨⟨⟩, rfl⟩
    split
    · exact .of_spoils fun _ => inferInstance
    · exact .answer ⟨⟨⟩, rfl⟩

end Draft

/-! ## Programs -/

/-- The programs are the same but for the markers in their statements. -/
def Program.Alike (P : Numbering n → Program) : Prop :=
  ∃ (p : Program) (C L : Numbering n → List Text), Each Drawn C ∧ Each Drawn L ∧
    P = fun ν => { p with construct := C ν, trailing := L ν }

instance : Kind (Program.Alike (n := n)) where
  plain p := ⟨p, _, _, Kind.plain p.construct, Kind.plain p.trailing, rfl⟩

/-! ## Assembly -/

namespace Assembly

variable {F : Numbering n → Field} {T : Numbering n → FieldTable}

theorem drawn_constructLines (hF : Field.Alike F) : Each Drawn fun ν => constructLines (F ν) := by
  obtain ⟨f, I, L, hI, hL, rfl⟩ := hF
  cases hI with
  | none => exact Each.nil
  | some hA => exact Each.cons ((Drawn.plain (f.name ++ " = ")).append hA) hL

theorem drawn_lateLines (hF : Field.Alike F) : Each Drawn fun ν => lateLines (F ν) := by
  obtain ⟨f, I, L, hI, hL, rfl⟩ := hF
  cases hI with
  | none => exact hL
  | some hA => exact Each.nil

instance (f : Field) : Blind n Any (fieldType f) := by
  unfold fieldType
  split
  · infer_instance
  · split <;> infer_instance

theorem fieldType_outline (f : Field) : fieldType f.outline = fieldType f := rfl

instance (fields : List Field) : Blind n Any (checkNames fields) := by
  unfold checkNames
  refine Blind.reading (fun s => ?_) fun _ _ _ => rfl
  refine Blind.bind' (Blind.forIn' fun f _ => ?_) fun _ => ?_
  · split <;> infer_instance
  · refine Blind.reading (fun s => ?_) fun _ _ _ => rfl
    split <;> infer_instance

theorem checkNames_outline (fields : List Field) :
    checkNames (fields.map Field.outline) = checkNames fields := by
  unfold checkNames
  simp only [List.forIn_map]
  rfl

theorem declarations_outline (fields : List Field) :
    (fields.map Field.outline).mapM (fun f => do
      return (⟨f.name, ← fieldType f⟩ : Declaration) : Field → Work Session Declaration) =
      fields.mapM fun f => do return (⟨f.name, ← fieldType f⟩ : Declaration) := by
  rw [List.mapM_map]
  rfl

/-- The type of the owner as the program writes it. -/
def ownerType : Work Session Text := do
  match (← get).owner with
  | some owner => Draft.typeRef owner
  | none => pure (Text.ofString "any")

/-- The statements that attach what the sections hold. -/
def attachLines (sections : Sections) : Work Session (List Text) :=
  if sections.finished.isEmpty then pure []
  else do return sections.render (← uiFunction "AttachToDom")

/-- The program without the statements that make the fields. -/
def frame (settings : Settings) (url binderName : Text) (root : FieldId) (table : FieldTable) :
    Work Session Program := do
  let declared := table.declarationOrder.map table.field
  let rootType ← fieldType (table.field root)
  let ownerType ← ownerType
  let declarations ← declared.mapM fun f => do return (⟨f.name, ← fieldType f⟩ : Declaration)
  let sections := (← get).sections
  let attach ← attachLines sections
  checkNames declared
  let bundle ← Draft.bundleDeclarations
  let s ← get
  return {
    package := settings.package, source := Path.base url, imports := s.imports, binderName,
    ownerType, rootType, rootExpr := (table.field root).name, declarations,
    attach, detach := sections.detached, trailing := s.trailing,
    unused := ((table.declarationOrder.filter fun id => id != root && !(table.field id).used).map
      fun id => (table.field id).name),
    extra := bundle ++ s.messages.declarations }

/-- What is assembled from a table of fields. -/
def assembleFrom (settings : Settings) (url binderName : Text) (root : FieldId)
    (table : FieldTable) : Work Session Program := do
  let order ← Draft.orFailAt none table.constructionOrder
  let made := order.map table.field
  let p ← frame settings url binderName root table
  return { p with
    construct := made.flatMap constructLines, trailing := made.flatMap lateLines ++ p.trailing }

theorem assemble_eq (settings : Settings) (url binderName : Text) (root : FieldId) :
    assemble settings url binderName root = (do
      let s ← get
      assembleFrom settings url binderName root s.fields : Work Session Program) := by
  unfold assemble assembleFrom frame ownerType attachLines
  simp only [bind_assoc, pure_bind]
  refine bind_congr fun s => bind_congr fun order => bind_congr fun rootType => ?_
  refine bind_congr fun s' => ?_
  cases s'.owner with
  | none =>
    simp only [pure_bind]
    refine bind_congr fun declarations => bind_congr fun s'' => ?_
    split <;> simp only [bind_assoc, pure_bind]
  | some owner =>
    simp only
    refine bind_congr fun type => bind_congr fun declarations => bind_congr fun s'' => ?_
    split <;> simp only [bind_assoc, pure_bind]

variable (settings : Settings) (url binderName : Text) (root : FieldId)

instance : Blind n Any ownerType := by
  unfold ownerType
  refine Blind.reading (fun s => ?_) fun _ _ _ => rfl
  split <;> infer_instance

instance (sections : Sections) : Blind n Any (attachLines sections) := by
  unfold attachLines
  infer_instance

instance (t : FieldTable) : Blind n Any (frame settings url binderName root t) := by
  unfold frame
  refine Blind.bind' inferInstance fun rootType => Blind.bind' inferInstance fun ownerType => ?_
  refine Blind.bind' inferInstance fun declarations => Blind.reading (fun s => ?_) fun _ _ _ => rfl
  refine Blind.bind' inferInstance fun attach => Blind.bind' inferInstance fun _ => ?_
  refine Blind.bind' inferInstance fun bundle => ?_
  exact Blind.reading (fun s => inferInstance) fun _ _ _ => rfl

instance (t : FieldTable) : Blind n Any (assembleFrom settings url binderName root t) := by
  unfold assembleFrom
  infer_instance

theorem frame_outline (t : FieldTable) :
    frame settings url binderName root t.outline = frame settings url binderName root t := by
  have hdeclared : t.declarationOrder.map t.outline.field =
      (t.declarationOrder.map t.field).map Field.outline := by
    rw [List.map_map]
    exact List.map_congr_left fun id _ => FieldTable.field_outline t id
  unfold frame
  simp only [FieldTable.declarationOrder_outline, hdeclared, checkNames_outline,
    declarations_outline, FieldTable.field_outline, fieldType_outline]
  rfl

theorem draws_assembleFrom (hT : FieldTable.Alike T) :
    Draws Any (fun ν => assembleFrom settings url binderName root (T ν)) Program.Alike := by
  obtain ⟨t, ht⟩ := hT.outline
  have hout : ∀ ν, (T ν).outline = t := congrFun ht
  have horder : ∀ ν, (T ν).constructionOrder = t.constructionOrder := fun ν => by
    rw [← hout ν, FieldTable.constructionOrder_outline]
  have hframe : ∀ ν, frame settings url binderName root (T ν) =
      frame settings url binderName root t := fun ν => by
    rw [← hout ν, frame_outline]
  unfold assembleFrom
  simp only [horder, hframe]
  refine .after Blind.draws fun order => .after Blind.draws fun p => .answer ?_
  have hmade : Each Field.Alike fun ν => order.map (T ν).field :=
    Each.map (Q := Same) (f := fun ν => (T ν).field) (fun A ⟨id, hid⟩ => hid ▸ hT.field id)
      (Kind.plain order)
  exact ⟨p, _, _, hmade.flatMap fun _ hA => drawn_constructLines hA,
    (hmade.flatMap fun _ hA => drawn_lateLines hA).append (Kind.plain p.trailing), rfl⟩

/-- What is assembled is the same program under all numberings but for its markers. -/
theorem draws_assemble :
    Draws (n := n) Any (fun _ => assemble settings url binderName root) Program.Alike := by
  simp only [assemble_eq]
  refine .reading (fun ν s => ?_) fun S hS => ?_
  · exact Blind.keeps ν
  · obtain ⟨M, T, s, -, hT, rfl⟩ := hS
    exact draws_assembleFrom settings url binderName root hT

end Assembly

end ViewBinder
