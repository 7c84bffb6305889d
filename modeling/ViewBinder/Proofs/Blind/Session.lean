-- What drafts and sessions do without looking at the numbers of markers. A reference draws its marker,
-- and what attributes are read to is drawn. Expressions that are drawn only go to where fields keep
-- theirs.
import ViewBinder.Proofs.Blind.Work
import ViewBinder.Proofs.Draft.Step

namespace ViewBinder

open Markup (Document)
open Dressed (draft dress)
open Work (Blind Draws Fails Keeps Sinks Spoils)

variable {n : Nat} {E : MarkerEntry → Prop} {α : Type}

/-! ## Logs -/

theorem Log.failure?_warn (log : Log) (place : Option Location) (message : Text) :
    (log.warn place message).failure? = log.failure? := by
  have herrors : (log.warn place message).errors = log.errors := by
    unfold Log.errors Log.warn Log.report
    simp [Diagnostic.make]
  unfold Log.failure?
  rw [herrors]

theorem Log.failure?_error (log : Log) (kind : ErrorKind) (place : Option Location)
    (message : Text) : (log.error kind place message).failure? ≠ none := by
  have herrors : (log.error kind place message).errors ≠ [] := by
    unfold Log.errors Log.error Log.report
    simp [Diagnostic.make]
  unfold Log.failure?
  split
  · contradiction
  · nofun
  · nofun

namespace Draft

/-! ## Drafts -/

instance (e : Nat) (p : Document → Problem) : Fails (failOn e p : Work Draft α) :=
  ⟨fun _ => ⟨_, rfl⟩⟩

instance (place : Option Location) (step : Except Problem α) : Blind n E (orFailAt place step) := by
  cases step <;> (unfold orFailAt; infer_instance)

instance (e : Nat) (message : Document → Text) : Blind n E (warn e message) :=
  Blind.changing (fun _ h => { h with calm := (Log.failure?_warn _ _ _).symm.trans h.calm })
    fun _ _ _ => rfl

instance (place : Option Location) (p : Problem) : Spoils n E (report place p) where
  spoils hrun hrefers := by
    cases hrun
    exact Log.failure?_error _ _ _ _ hrefers.calm

instance (path preferred : Text) : Blind n E (importPackage path preferred) :=
  Blind.changingTo (fun _ h => ⟨h.few, h.allowed, h.calm, h.names⟩) fun _ _ _ => rfl

instance (t : TypeId) (name : Text) : Blind n E (qualify t name) :=
  Blind.changingTo (fun _ h => ⟨h.few, h.allowed, h.calm, h.names⟩) fun _ _ _ => rfl

instance (t : TypeId) : Blind n E (typeRef t) :=
  Blind.changingTo (fun _ h => ⟨h.few, h.allowed, h.calm, h.names⟩) fun _ _ _ => rfl

/-! ## Fields -/

/-- Other fields change nothing about the markers. -/
theorem sinks_fields (d : Draft) (fields : FieldTable) : Sinks n E d { d with fields } :=
  fun h => ⟨h.few, h.allowed, h.calm, h.names⟩

theorem keeps_changeFields (step : Draft → Except Problem (α × FieldTable)) :
    Keeps (Sinks n E) (changeFields step) := by
  unfold changeFields
  refine Keeps.bind' inferInstance fun d => ?_
  split
  · exact ⟨fun hrun => by
      cases hrun
      exact sinks_fields _ _⟩
  · infer_instance

/-- A step of the fields that does the same in tables that are alike. -/
theorem blind_changeFields {step : Draft → Except Problem (α × FieldTable)}
    (h : ∀ {M : Numbering n → Markers} {T d ν a t}, FieldTable.Alike T →
      step (dress (M ν) (T ν) d) = .ok (a, t) →
        ∃ T', FieldTable.Alike T' ∧ ∀ ν, step (dress (M ν) (T ν) d) = .ok (a, T' ν)) :
    Blind n E (changeFields step) where
  draws := {
    back := fun _ => keeps_changeFields step
    draws := by
      rintro S ⟨M, T, d, hM, hT, rfl⟩ ν a d' hrun -
      rcases hstep : step (dress (M ν) (T ν) d) with _ | ⟨a', t⟩
      · rw [runOn_changeFields, hstep] at hrun
        cases hrun
      · rw [runOn_changeFields, hstep] at hrun
        cases hrun
        obtain ⟨T', hT', hall⟩ := h hT hstep
        refine ⟨fun _ => a, fun ν => dress (M ν) (T' ν) d, ⟨M, T', d, hM, hT', rfl⟩, ⟨a, rfl⟩,
          fun ν => ?_⟩
        rw [runOn_changeFields, hall]
        rfl }

instance (precedence : Precedence) (type : Option TypeId) (name : Text) :
    Blind n E (register precedence type name) := blind_changeFields fun hT hstep => hT.register hstep

instance (precedence : Precedence) (type : Option TypeId) (name : Text) :
    Blind n E (require precedence type name) := blind_changeFields fun hT hstep => hT.require hstep

/-- A field is changed to one of its kind. -/
theorem draws_changeField {g : Numbering n → Field → Field} (id : FieldId)
    (hg : ∀ F, Field.Alike F → Field.Alike fun ν => g ν (F ν)) :
    Draws E (fun ν => changeField id (g ν)) Same :=
  .changing (fun _ d => sinks_fields d _) fun S hS _ _ => by
    obtain ⟨M, T, d, hM, hT, rfl⟩ := hS
    exact ⟨M, _, d, hM, hT.change id hg, rfl⟩

/-- A field keeps its expressions. -/
theorem blind_changeField {g : Field → Field} (id : FieldId)
    (hg : ∀ f initializer statements, g { f with initializer, statements } =
      { g f with initializer, statements }) : Blind n E (changeField id g) where
  draws := draws_changeField id fun F hF => by
    obtain ⟨f, I, L, hI, hL, rfl⟩ := hF
    exact ⟨g f, I, L, hI, hL, funext fun ν => hg f (I ν) (L ν)⟩

/-- Work on what a field is without its expressions. -/
theorem blind_field {id : FieldId} {k : Field → Work Draft α} (hk : ∀ f, Blind n E (k f))
    (hsame : ∀ f, k f = k f.outline) : Blind n E (field id >>= k) := by
  have hread : Blind n E (get >>= fun d => k (d.fields.field id)) := by
    refine Blind.reading (fun d => hk _) fun _ t _ => ?_
    rw [hsame, ← FieldTable.field_outline]
    rfl
  exact hread

instance (id : FieldId) : Blind n E (use id) :=
  Blind.bind' (blind_changeField id fun _ _ _ => rfl) fun _ =>
    blind_field (fun _ => inferInstance) fun _ => rfl

instance (id : FieldId) (other : Text) : Blind n E (addNeed id other) :=
  blind_changeField id fun f _ _ => by
    unfold Field.withNeed
    dsimp only
    split <;> rfl

theorem draws_addStatement (id : FieldId) {F : Numbering n → Text} (hF : Drawn F) :
    Draws E (fun ν => addStatement id (F ν)) Same :=
  draws_changeField id fun G hG => by
    obtain ⟨f, I, L, hI, hL, rfl⟩ := hG
    exact ⟨{ f with used := true }, I, _, hI, hL.append (Each.one hF), rfl⟩

theorem draws_setInitializer (id : FieldId) {F : Numbering n → Text} (hF : Drawn F) :
    Draws E (fun ν => setInitializer id (F ν)) Same := by
  have hchange : Draws E (fun ν => changeField id ({ · with initializer := some (F ν) })) Same :=
    draws_changeField id fun G hG => by
      obtain ⟨f, I, L, hI, hL, rfl⟩ := hG
      exact ⟨f, _, L, .some hF, hL, rfl⟩
  refine .reading (fun ν d => ?_) fun S hS => ?_
  · dsimp only
    split
    · infer_instance
    · exact hchange.back ν
  · obtain ⟨M, T, d, -, hT, rfl⟩ := hS
    obtain ⟨f, I, L, hI, -, hf⟩ := hT.field id
    have hfield : ∀ ν, (dress (M ν) (T ν) d).fields.field id =
        { f with initializer := I ν, statements := L ν } := congrFun hf
    simp only [hfield]
    cases hI with
    | none => exact hchange
    | some _ => exact .of_spoils fun _ => ⟨fun hrun => by cases hrun⟩

instance (id : FieldId) (expr : Text) : Blind n E (setInitializer id expr) :=
  ⟨draws_setInitializer id (.plain expr)⟩

instance (id : FieldId) (statement : Text) : Blind n E (addStatement id statement) :=
  ⟨draws_addStatement id (.plain statement)⟩

/-! ## References -/

theorem runOn_refer (e : Nat) (path : Text) (types : List (Option TypeId)) (d : Draft) :
    (refer e path types).runOn d =
      let place := d.document.location e
      let made := d.markers.add ("\x7b" ++ path ++ "\x7d") place (.known path)
      (.ok made.1, { d with
        markers := made.2
        fields := d.fields.addReference ⟨e, Text.trim path, types, made.1⟩ }) := rfl

theorem keeps_refer (e : Nat) (path : Text) (types : List (Option TypeId)) :
    Keeps (Sinks n E) (refer e path types) where
  keeps {d marker d'} hrun hrefers := by
    rw [runOn_refer] at hrun
    obtain ⟨-, rfl⟩ := Prod.mk.inj hrun
    exact ⟨Nat.le_trans (List.IsPrefix.length_le (List.prefix_append _ _)) hrefers.few,
      fun entry hentry => hrefers.allowed entry (List.mem_append_left _ hentry),
      hrefers.calm, hrefers.names⟩

theorem draws_refer (e : Nat) (path : Text) (types : List (Option TypeId)) :
    Draws (n := n) E (fun _ => refer e path types) Drawn := by
  refine ⟨fun _ => keeps_refer e path types, ?_⟩
  rintro S ⟨M, T, d, hM, hT, rfl⟩ ν marker d' hrun hrefers
  obtain ⟨k, M', hM', hadd⟩ := hM.add ("\x7b" ++ path ++ "\x7d") (d.document.location e) path
  have hall : ∀ ν, (refer e path types).runOn (dress (M ν) (T ν) d) = (.ok (ν.marker k),
      dress (M' ν) ((T ν).addReference ⟨e, Text.trim path, types, ν.marker k⟩) d) := fun ν => by
    rw [runOn_refer, show (dress (M ν) (T ν) d).document = d.document from rfl,
      show (dress (M ν) (T ν) d).markers = M ν from rfl]
    dsimp only
    rw [(hadd ν).2]
    rfl
  have hk : k < n := by
    have hsize : (M' ν).size = (M ν).size + 1 := by
      have h := congrArg (fun made => made.2.size) (hadd ν).2
      exact h.symm.trans List.length_append
    dsimp only at hrun
    rw [hall] at hrun
    obtain ⟨-, rfl⟩ := Prod.mk.inj hrun
    have hfew : (M' ν).size ≤ n := hrefers.few
    rw [hsize, (hadd ν).1] at hfew
    exact hfew
  have hT' : FieldTable.Alike fun ν =>
      (T ν).addReference ⟨e, Text.trim path, types, ν.marker k⟩ :=
    hT.addReference ⟨⟨e, Text.trim path, types, []⟩, k, hk, rfl⟩
  exact ⟨fun ν => ν.marker k, _, ⟨M', _, d, hM', hT', rfl⟩, .marker hk, hall⟩

end Draft

/-! ## Attributes -/

namespace Attribute

instance (e : Nat) (value : Text) (types : List (Option TypeId)) :
    Fails (failParse e value types : Work Draft α) := ⟨fun _ => ⟨_, rfl⟩⟩

instance (e : Nat) (type : Option TypeId) : Fails (failEmpty e type : Work Draft α) :=
  ⟨fun _ => ⟨_, rfl⟩⟩

theorem draws_convert (e : Nat) (value : Text) (types : List (Option TypeId))
    (literal : Text → Text) (glue : Text) {wrap : Text → Text}
    (hwrap : ∀ F : Numbering n → Text, Drawn F → Drawn fun ν => wrap (F ν)) :
    Draws (n := n) E (fun _ => convert e value types literal (fun marker => pure (wrap marker)) glue)
      Drawn := by
  unfold convert
  refine Draws.bind (Draws.mapM (Q := Same) (Kind.plain _) ?_) fun L (hL : Each Drawn L) => ?_
  · rintro A ⟨segment, rfl⟩
    cases segment with
    | literal t => exact .answer (.plain _)
    | reference path =>
      exact .guarded (.bind (Draft.draws_refer e path types) fun F hF => .answer (hwrap F hF))
  · exact .answer (.join glue (Drawn.nonempty hL))

theorem draws_singleReference (e : Nat) (value : Text) (types : List (Option TypeId))
    {wrap : Text → Text} (hwrap : ∀ F : Numbering n → Text, Drawn F → Drawn fun ν => wrap (F ν)) :
    Draws (n := n) E (fun _ => singleReference e value wrap types) Drawn :=
  .ite (fun _ => .of_spoils fun _ => inferInstance) fun _ => draws_convert e _ types _ [] hwrap

theorem drawn_box (type : Text) {F : Numbering n → Text} (hF : Drawn F) :
    Drawn fun ν => Program.box type (F ν) :=
  ((Drawn.plain _).append hF).append (.plain _)

/-- What a value is read to is drawn. -/
theorem draws_parse (parser : AttributeParser) (e : Nat) (value : Text) :
    Draws (n := n) E (fun _ => parse parser e value) Drawn := by
  have hfails : ∀ (w : Work Draft Text) [Fails w], Draws (n := n) E (fun _ => w) Drawn :=
    fun _ _ => .of_spoils fun _ => inferInstance
  have hplain : ∀ (w : Work Draft Text) [Blind n E w], Draws (n := n) E (fun _ => w) Drawn :=
    fun w hw => hw.draws.mono fun _ ⟨t, ht⟩ => ht ▸ .plain t
  have hone : ∀ value types, Draws (n := n) E (fun _ => singleReference e value id types) Drawn :=
    fun value types => draws_singleReference e value types fun _ hF => hF
  induction parser generalizing value with
  | strict types =>
    rw [parse_strict]
    exact hone value types
  | boolean type =>
    unfold parse
    refine .looking (fun d => ?_) fun _ _ _ => rfl
    dsimp only
    split
    · exact .answer (.plain _)
    · split
      · exact hfails _
      · exact hone value [type]
  | numeric type =>
    unfold parse
    refine .looking (fun d => ?_) fun _ _ _ => rfl
    dsimp only
    split
    · exact hfails _
    · split
      · exact .answer (.plain _)
      · exact draws_singleReference e value [type] fun _ hF =>
          ((Drawn.plain _).append hF).append (.plain _)
  | boxed inner type ih =>
    unfold parse
    refine .looking (fun d => ?_) fun _ _ _ => rfl
    dsimp only
    refine .ite (fun _ => hone value [type]) fun _ => .bind (ih value) fun F hF => .answer ?_
    exact drawn_box _ (((Drawn.plain _).append hF).append (.plain _))
  | string type =>
    unfold parse
    refine .looking (fun d => ?_) fun _ _ _ => rfl
    dsimp only
    exact .ite (fun _ => .answer (.plain _)) fun _ => draws_convert e value [type] _ _ fun _ hF => hF
  | intPair inner ih =>
    unfold parse
    refine .looking (fun d => ?_) fun _ _ _ => rfl
    dsimp only
    split
    · exact .bind (ih _) fun X hX => .bind (ih _) fun Y hY =>
        .answer ((hX.append (.plain _)).append hY)
    · exact hfails _
  | enumeration type =>
    unfold parse
    refine .looking (fun d => ?_) fun _ _ _ => rfl
    dsimp only
    refine .ite (fun _ => hfails _) fun _ => ?_
    split
    · exact hplain _
    · exact .ite (fun _ => hone value [type]) fun _ => hfails _
  | constant type names =>
    unfold parse
    refine .looking (fun d => ?_) fun _ _ _ => rfl
    dsimp only
    refine .ite (fun _ => hfails _) fun _ => ?_
    split
    · exact hplain _
    · exact hone value [type]
  | length number unit ih =>
    unfold parse
    refine .looking (fun d => ?_) fun _ _ _ => rfl
    dsimp only
    split
    · exact hfails _
    · refine .bind (ih _) fun X hX => .ite (fun _ => ?_) fun _ => .ite (fun _ => ?_) fun _ => ?_
      · exact .bind (hplain _) fun Y hY => .answer ((hX.append (.plain _)).append hY)
      · exact .bind (hone _ [unit]) fun Y hY => .answer ((hX.append (.plain _)).append hY)
      · split
        · exact .bind (hplain _) fun Y hY => .answer ((hX.append (.plain _)).append hY)
        · exact hfails _
  | safeHtml text type ih =>
    unfold parse
    refine .looking (fun d => ?_) fun _ _ _ => rfl
    dsimp only
    refine .ite (fun _ => hone value [type]) fun _ => ?_
    exact .bind (ih value) fun X hX => .bind (hplain _) fun Y hY =>
      .answer (((hY.append (.plain _)).append hX).append (.plain _))
  | safeUri text type ih =>
    unfold parse
    refine .looking (fun d => ?_) fun _ _ _ => rfl
    dsimp only
    refine .ite (fun _ => hone value [type]) fun _ => .ite (fun _ => ?_) fun _ => ?_
    · exact .bind (hplain _) fun Y hY =>
        .answer (((hY.append (.plain _)).append (.plain _)).append (.plain _))
    · exact .bind (ih value) fun X hX => .bind (hplain _) fun Y hY =>
        .answer (((hY.append (.plain _)).append hX).append (.plain _))

/-- What an attribute is read to is drawn, if the attribute is there. -/
theorem draws_take? (ps : Parsers) (e : Nat) (name : Text) (types : List (Option TypeId)) :
    Draws (n := n) E (fun _ => take? ps e name types) (Maybe Drawn) := by
  unfold take?
  refine .bind (Q := Same) Blind.draws ?_
  rintro A ⟨found, rfl⟩
  cases found with
  | none => exact .answer .none
  | some value =>
    exact .looking (fun d => .bind (draws_parse _ e value) fun F hF => .answer (.some hF))
      fun _ _ _ => rfl

theorem draws_takeDefault (ps : Parsers) (e : Nat) (name otherwise : Text)
    (types : List (Option TypeId)) :
    Draws (n := n) E (fun _ => takeDefault ps e name otherwise types) Drawn := by
  refine .bind (draws_take? ps e name types) fun A hA => .answer ?_
  cases hA with
  | none => exact .plain otherwise
  | some hF => exact hF

theorem draws_takeRequired (ps : Parsers) (e : Nat) (name : Text) (types : List (Option TypeId)) :
    Draws (n := n) E (fun _ => takeRequired ps e name types) Drawn := by
  unfold takeRequired
  refine .bind (Q := Same) Blind.draws ?_
  rintro A ⟨value, rfl⟩
  refine .looking (fun d => ?_) fun _ _ _ => rfl
  dsimp only
  exact .ite (fun _ => .of_spoils fun _ => inferInstance) fun _ => draws_parse _ e value

end Attribute

/-! ## Messages and resources -/

namespace Draft

/-- A change of what is declared beside the fields. -/
theorem blind_declaring {f : Draft → Draft} (h : ∀ d, ∃ catalog imports bundle messages,
    f d = { d with catalog, imports, bundle, messages })
    (hsame : ∀ m t d, f (dress m t d) = dress m t (f d)) : Blind n E (modify f : Work Draft Unit) :=
  Blind.changing (fun d hrefers => by
    obtain ⟨_, _, _, _, hf⟩ := h d
    rw [hf] at hrefers
    exact ⟨hrefers.few, hrefers.allowed, hrefers.calm, hrefers.names⟩) hsame

instance (package packageName name : Text) : Blind n E (openMessages package packageName name) :=
  blind_declaring (fun _ => ⟨_, _, _, _, rfl⟩) fun _ _ _ => rfl

instance : Blind n E updateMessageType := by
  refine blind_declaring (fun d => ?_) fun _ _ d => ?_
  · split
    · exact ⟨_, _, _, _, rfl⟩
    · exact ⟨_, _, _, _, rfl⟩
  · simp only [dress]
    split <;> rfl

instance (place : Option Location) (m : Message) : Blind n E (declareMessage place m) := by
  unfold declareMessage
  refine Blind.reading (fun d => ?_) fun _ _ _ => rfl
  refine Blind.bind' inferInstance fun (i, messages) => ?_
  exact Blind.bind' (blind_declaring (fun _ => ⟨_, _, _, _, rfl⟩) fun _ _ _ => rfl)
    fun _ => inferInstance

instance (b : Bundle) : Blind n E (openBundle b) :=
  blind_declaring (fun _ => ⟨_, _, _, _, rfl⟩) fun _ _ _ => rfl

instance (name : Text) : Blind n E (resourceType name) := by
  refine Blind.changingTo (fun d hrefers => ?_) fun _ _ d => ?_
  · rcases hfound : d.catalog.find? Library.resourcesPackage name with _ | t
    · simp only [hfound] at hrefers
      exact ⟨hrefers.few, hrefers.allowed, hrefers.calm, hrefers.names⟩
    · simp only [hfound] at hrefers
      exact hrefers
  · simp only [dress]
    split <;> rfl

instance (name : Text) (returns : TypeId) : Blind n E (addBundleMethod name returns) := by
  refine blind_declaring (fun d => ?_) fun _ _ d => ?_
  · split
    · exact ⟨_, _, _, _, rfl⟩
    · exact ⟨_, _, _, _, rfl⟩
  · simp only [dress]
    split <;> rfl

instance (place : Option Location) (field : Text) : Blind n E (claimMethod place field) := by
  unfold claimMethod
  refine Blind.reading (fun d => ?_) fun _ _ _ => rfl
  refine Blind.bind' inferInstance fun (method, bundle) => ?_
  exact Blind.bind' (blind_declaring (fun _ => ⟨_, _, _, _, rfl⟩) fun _ _ _ => rfl)
    fun _ => inferInstance

instance (field : Text) (interfaces : List TypeId) (classes : List StyleClass) :
    Blind n E (generateStyleType field interfaces classes) :=
  Blind.changingTo (fun _ h => ⟨h.few, h.allowed, h.calm, h.names⟩) fun _ _ _ => rfl

instance (typeName method expr : Text) : Blind n E (addFile typeName method expr) := by
  unfold addFile
  refine Blind.bind' inferInstance fun type => Blind.bind' inferInstance fun ref => ?_
  exact Blind.bind' (blind_declaring (fun _ => ⟨_, _, _, _, rfl⟩) fun _ _ _ => rfl)
    fun _ => inferInstance

instance (place : Option Location) (s : Style) : Blind n E (declareStyle place s) := by
  have hrest : ∀ classes resource method sheet, Blind n E (do
      let type ← generateStyleType s.field (resource :: s.type.toList) classes
      modify fun d =>
        { d with bundle.styles := d.bundle.styles ++ [⟨s, method, sheet, classes, type⟩] }
      let fieldType := s.type.getD type
      addBundleMethod method fieldType
      return (fieldType, method) : Work Draft (TypeId × Text)) := by
    intro classes resource method sheet
    refine Blind.bind' inferInstance fun type => ?_
    exact Blind.bind' (blind_declaring (fun _ => ⟨_, _, _, _, rfl⟩) fun _ _ _ => rfl)
      fun _ => inferInstance
  unfold declareStyle
  refine Blind.bind' inferInstance fun method => Blind.reading (fun d => ?_) fun _ _ _ => rfl
  refine Blind.bind' inferInstance fun css => Blind.bind' inferInstance fun classes => ?_
  refine Blind.bind' inferInstance fun resource => ?_
  split
  · refine Blind.reading (fun d => ?_) fun _ _ _ => rfl
    exact Blind.bind' inferInstance fun _ => hrest _ _ _ _
  · exact hrest _ _ _ _

instance (place : Option Location) (i : Image) : Blind n E (declareImage place i) := by
  unfold declareImage
  refine Blind.reading (fun d => ?_) fun _ _ _ => rfl
  refine Blind.bind' inferInstance fun source => Blind.bind' inferInstance fun repetition => ?_
  refine Blind.bind' inferInstance fun method => Blind.reading (fun d => ?_) fun _ _ _ => rfl
  infer_instance

instance (place : Option Location) (f : DataFile) : Blind n E (declareData place f) := by
  have hdeclare : Blind n E (do
      let method ← claimMethod place f.field
      let content ← orFailAt place ((← get).bundle.read f.source)
      let package ← importPackage Library.resourcesPackage "resources"
      addFile "DataResource" method (Bundle.dataExpr package f content)
      return method : Work Draft Text) := by
    refine Blind.bind' inferInstance fun method => Blind.reading (fun d => ?_) fun _ _ _ => rfl
    infer_instance
  unfold declareData
  infer_instance

instance : Blind n E adoptStyleTypes := by
  unfold adoptStyleTypes
  refine Blind.reading (fun d => ?_) fun _ _ _ => rfl
  refine Blind.bind' (Blind.forIn' fun s _ => ?_) fun _ => inferInstance
  refine Blind.reading (fun d => ?_) fun _ _ _ => rfl
  split
  · exact Blind.bind' (blind_declaring (fun _ => ⟨_, _, _, _, rfl⟩) fun _ _ _ => rfl)
      fun _ => inferInstance
  · infer_instance

instance : Blind n E bundleDeclarations := by
  unfold bundleDeclarations
  refine Blind.reading (fun d => ?_) fun _ _ _ => rfl
  dsimp only
  split
  · infer_instance
  · refine Blind.bind' (Blind.mapM' fun s => ?_) fun styles => ?_
    · refine Blind.bind' inferInstance fun generated => ?_
      split
      · refine Blind.bind' inferInstance fun result => ?_
        exact Blind.reading (fun _ => inferInstance) fun _ _ _ => rfl
      · refine Blind.bind' inferInstance fun result => ?_
        exact Blind.reading (fun _ => inferInstance) fun _ _ _ => rfl
    · refine Blind.bind' (Blind.mapM' fun s => ?_) fun _ => inferInstance
      refine Blind.bind' inferInstance fun package => ?_
      exact Blind.reading (fun _ => inferInstance) fun _ _ _ => rfl

end Draft

/-! ## Sessions -/

namespace Session

instance (e : Nat) (p : Document → Problem) : Fails (failOn e p : Work Session α) :=
  ⟨fun _ => ⟨_, rfl⟩⟩

instance : Blind n E getDocument := Blind.reading (fun _ => inferInstance) fun _ _ _ => rfl

instance : Blind n E getCatalog := Blind.reading (fun _ => inferInstance) fun _ _ _ => rfl

/-- Work on the document as it is, in which no element has the name of a cell of a dock. -/
theorem blind_names {k : Document → Work Session α}
    (hk : ∀ d : Document, (∀ e, (d.name e).base ≠ "Dock") → Blind n E (k d))
    (hback : ∀ d, Numbering n → Keeps (Sinks n E) (k d)) : Blind n E (getDocument >>= k) where
  draws := {
    back := fun ν => Keeps.bind' (Blind.keeps ν) fun d => hback d ν
    draws := by
      rintro S ⟨M, T, s, hM, hT, rfl⟩ ν a s' hrun hrefers
      have hbefore : (draft (dress (M ν) (T ν) s)).Refers n E :=
        (hback s.document ν).keeps hrun hrefers
      exact (hk s.document hbefore.names).draws.draws ⟨M, T, s, hM, hT, rfl⟩ hrun hrefers }

instance (name : Text) : Blind n E (primitive name) := by
  unfold primitive
  infer_instance

instance (name : Text) : Blind n E (uiType name) := by
  unfold uiType
  infer_instance

instance (name : Text) : Blind n E (resourceType? name) := by
  unfold resourceType?
  infer_instance

instance : Blind n E safeHtmlType := by
  unfold safeHtmlType
  infer_instance

instance (name : Text) : Blind n E (uiFunction name) := by
  unfold uiFunction
  infer_instance

instance (name : Text) : Blind n E (safeHtmlFunction name) := by
  unfold safeHtmlFunction
  infer_instance

instance (e : Nat) (type : TypeId) (params : List (Option TypeId)) :
    Blind n E (Session.constructor e type params) := by
  unfold Session.constructor
  refine Blind.bind' inferInstance fun c => ?_
  split <;> infer_instance

/-! ## Fields of a session -/

/-- Work on what a field is without its expressions. -/
theorem blind_field {id : FieldId} {k : Field → Work Session α} (hk : ∀ f, Blind n E (k f))
    (hsame : ∀ f, k f = k f.outline) :
    Blind n E ((liftM (Draft.field id) : Work Session Field) >>= k) := by
  have hread : Blind n E (get >>= fun s : Session => k (s.fields.field id)) := by
    refine Blind.reading (fun s => hk _) fun _ t _ => ?_
    rw [hsame, ← FieldTable.field_outline]
    rfl
  exact hread

instance (f : FieldId) : Blind n E (nameOf f) :=
  blind_field (fun _ => inferInstance) fun _ => rfl

instance (f : FieldId) : Blind n E (isMade f) :=
  blind_field (fun _ => inferInstance) fun f => by
    unfold Field.outline
    simp

/-- What is called with drawn arguments draws a statement. -/
theorem draws_call (f : FieldId) (method : Text) {L : Numbering n → List Text}
    (hL : Each Drawn L) : Draws E (fun ν => call f method (L ν)) Same := by
  unfold call
  refine .bind (Q := Same) Blind.draws ?_
  rintro A ⟨name, rfl⟩
  refine (Draft.draws_addStatement f ?_).lift
  exact (((((Drawn.plain _).append (.plain _)).append (.plain _)).append (.plain _)).append
    (Drawn.join _ hL)).append (.plain _)

instance (f : FieldId) (method : Text) (args : List Text) : Blind n E (call f method args) :=
  ⟨draws_call f method (Kind.plain args)⟩

instance (type : Option TypeId) (name initializer : Text) :
    Blind n E (bundleField type name initializer) := by
  unfold bundleField
  infer_instance

instance : Blind n E resourceBundle := by
  unfold resourceBundle
  exact Blind.reading (fun _ => inferInstance) fun _ _ _ => rfl

instance (place : Option Location) (m : Message) : Blind n E (declareMessage place m) := by
  unfold declareMessage
  refine Blind.bind' inferInstance fun method => ?_
  exact Blind.reading (fun _ => inferInstance) fun _ _ _ => rfl

/-- A change of a session that leaves the draft alone. -/
theorem blind_beside {f : Session → Session} (h : ∀ s, (f s).toDraft = s.toDraft)
    (hsame : ∀ m t s, f (dress m t s) = dress m t (f s)) : Blind n E (modify f : Work Session Unit) :=
  Blind.changing (fun s hrefers => by
    rw [show draft (f s) = draft s from h s] at hrefers
    exact hrefers) hsame

/-- A change of the document that keeps the names of the elements. -/
theorem blind_document {g : Document → Document} (h : ∀ d e, (g d).name e = d.name e) :
    Blind n E (modify fun s => { s with document := g s.document } : Work Session Unit) :=
  Blind.changing (fun s hrefers =>
    ⟨hrefers.few, hrefers.allowed, hrefers.calm, fun e hdock => hrefers.names e (by
      rw [← hdock]
      exact congrArg _ (h _ e))⟩) fun _ _ _ => rfl

instance : Blind n E declareId := by
  unfold declareId
  refine Blind.bind' (blind_beside (fun _ => rfl) fun _ _ _ => rfl) fun _ => ?_
  refine Blind.bind' inferInstance fun type => ?_
  exact Blind.reading (fun _ => inferInstance) fun _ _ _ => rfl

instance (type : Option TypeId) (holder : Text) : Blind n E (elementById type holder) := by
  unfold elementById
  refine Blind.bind' inferInstance fun function => ?_
  split <;> infer_instance

/-! ## Sections and splices -/

instance (expr : Text) (w : Work Session α) [h : Blind n E w] : Blind n E (attached expr w) :=
  h.between (fun _ => rfl) (fun _ => rfl) (fun _ _ _ => rfl) fun _ _ _ => rfl

instance (statement : Text) : Blind n E (addAttached statement) :=
  blind_beside (fun _ => rfl) fun _ _ _ => rfl

instance (statement : Text) : Blind n E (addDetached statement) :=
  blind_beside (fun _ => rfl) fun _ _ _ => rfl

theorem runOn_splice (e : Nat) (expr : Text) (s : Session) :
    (splice e expr).runOn s =
      let made := s.markers.add expr (s.document.location e) (.known ("\" + " ++ expr ++ " + \""))
      (.ok made.1, { s with markers := made.2, splices := (made.1, expr) :: s.splices }) := rfl

/-- A splice is no marker that is allowed. -/
instance [hunspliced : Unspliced E] (e : Nat) (expr : Text) : Spoils n E (splice e expr) where
  spoils {s marker s'} hrun hrefers := by
    rw [runOn_splice] at hrun
    obtain ⟨-, rfl⟩ := Prod.mk.inj hrun
    exact hunspliced.unspliced _ (hrefers.allowed _ (List.mem_append_right _ List.mem_cons_self)) rfl

instance (content : Text) : Blind n E (spliced content) := by
  unfold spliced
  exact Blind.reading (fun _ => inferInstance) fun _ _ _ => rfl

instance (w : Work Session α) [h : Blind n E w] : Blind n E (withSplices w) := by
  unfold withSplices
  refine Blind.reading (fun s => ?_) fun _ _ _ => rfl
  exact h.between (fun _ => rfl) (fun _ => rfl) (fun _ _ _ => rfl) fun _ _ _ => rfl

/-! ## Attributes of a session -/

theorem draws_take? (e : Nat) (name : Text) (types : List (Option TypeId)) :
    Draws (n := n) E (fun _ => take? e name types) (Maybe Drawn) :=
  .looking (fun _ => (Attribute.draws_take? _ e name types).lift) fun _ _ _ => rfl

theorem draws_takeDefault (e : Nat) (name otherwise : Text) (types : List (Option TypeId)) :
    Draws (n := n) E (fun _ => takeDefault e name otherwise types) Drawn :=
  .looking (fun _ => (Attribute.draws_takeDefault _ e name otherwise types).lift) fun _ _ _ => rfl

theorem draws_takeRequired (e : Nat) (name : Text) (types : List (Option TypeId)) :
    Draws (n := n) E (fun _ => takeRequired e name types) Drawn :=
  .looking (fun _ => (Attribute.draws_takeRequired _ e name types).lift) fun _ _ _ => rfl

theorem draws_readValue (e : Nat) (value : Text) (types : List (Option TypeId)) :
    Draws (n := n) E (fun _ => readValue e value types) Drawn :=
  .looking (fun _ => (Attribute.draws_parse _ e value).lift) fun _ _ _ => rfl

end Session

end ViewBinder
