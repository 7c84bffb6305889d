-- What sessions and drafts do with their surroundings, function by function: only new markers read
-- the numbers, and each reads one; only the resources of a template read files.
import ViewBinder.Field.Reference
import ViewBinder.Proofs.Numbering.Work
import ViewBinder.Proofs.Resource.Declare

namespace ViewBinder

open Markup (Document)
open Surrounded (surround)
open Work (Follows FollowsAt)

/-! ## Markers -/

namespace Markers

theorem runOn_allocate (source : Text) (place : Option Location) (value : Text) (m : Markers) :
    (allocate source place value).runOn m = (.ok (Marker.text (m.supply m.size)),
      { m with entries := m.entries ++ [(m.supply m.size, ⟨source, place, .known value⟩)] }) := rfl

instance (source : Text) (place : Option Location) (value : Text) :
    Follows (allocate source place value) where
  supply _ := rfl
  stays _ := rfl
  grows m := by
    rw [runOn_allocate]
    simp [Surrounded.markers, size]
  follows m around hagree := by
    have hmade : (surround around m).supply (surround around m).size = m.supply m.size := by
      refine hagree m.size (Nat.le_refl _) ?_
      rw [runOn_allocate]
      simp [Surrounded.markers, size]
    rw [runOn_allocate, runOn_allocate, hmade]
    rfl

/-- A marker that gets another meaning keeps its number. -/
instance (id : Nat) (meaning : Meaning) :
    Follows (modify (·.redefine id meaning) : Work Markers Unit) where
  supply _ := rfl
  stays _ := rfl
  grows m := by
    rw [Work.runOn_modify]
    simp [Surrounded.markers, size, redefine]
  follows _ _ _ := rfl

instance : Follows (modify fun m => { m with woven := m.woven + 1 } : Work Markers Unit) where
  supply _ := rfl
  stays _ := rfl
  grows _ := Nat.le_refl _
  follows _ _ _ := rfl

instance (marker value : Text) : Follows (resolve marker value) := by
  unfold resolve
  split
  · infer_instance
  · refine Follows.reading (fun _ _ => rfl) fun m => ?_
    split <;> infer_instance

instance (id : Nat) : Follows (valueOf id) := by
  unfold valueOf
  refine Follows.reading (fun _ _ => rfl) fun m => ?_
  split
  · infer_instance
  · split
    · infer_instance
    · split <;> infer_instance

instance (depth : Nat) (active : List Nat) (t : Text) : Follows (weaveWithin depth active t) := by
  induction depth generalizing active t with
  | zero =>
    unfold weaveWithin
    infer_instance
  | succ depth ih =>
    unfold weaveWithin
    refine Follows.bind' (Follows.mapM' fun piece => ?_) fun _ => inferInstance
    split <;> infer_instance

instance (t : Text) : Follows (weave t) := by
  unfold weave
  exact Follows.reading (fun _ _ => rfl) fun _ => inferInstance

end Markers

/-! ## Drafts -/

namespace Draft

instance (e : Nat) (p : Document → Problem) : Follows (failOn e p : Work Draft α) := by
  unfold failOn
  infer_instance

instance (place : Option Location) (step : Except Problem α) : Follows (orFailAt place step) := by
  cases step <;> (unfold orFailAt; infer_instance)

instance (e : Nat) (message : Document → Text) : Follows (warn e message) :=
  Follows.changing (fun _ => rfl) fun _ _ => rfl

instance (place : Option Location) (p : Problem) : Follows (report place p) :=
  Follows.changing (fun _ => rfl) fun _ _ => rfl

instance (path preferred : Text) : Follows (importPackage path preferred) :=
  Follows.changingTo (fun _ => rfl) fun _ _ => rfl

instance (t : TypeId) (name : Text) : Follows (qualify t name) :=
  Follows.changingTo (fun _ => rfl) fun _ _ => rfl

instance (t : TypeId) : Follows (typeRef t) :=
  Follows.changingTo (fun _ => rfl) fun _ _ => rfl

instance (id : FieldId) : Follows (field id) := by
  unfold field
  exact Follows.reading (fun _ _ => rfl) fun _ => inferInstance

/-- A step of the fields that does not look at the surroundings. -/
theorem follows_changeFields {step : Draft → Except Problem (α × FieldTable)}
    (h : ∀ d around, step (surround around d) = step d) : Follows (changeFields step) := by
  unfold changeFields
  refine Follows.reading (fun d around => ?_) fun d => ?_
  · simp only [h]
    rfl
  · split
    · exact Follows.changingTo (fun _ => rfl) fun _ _ => rfl
    · infer_instance

instance (precedence : Precedence) (type : Option TypeId) (name : Text) :
    Follows (register precedence type name) := follows_changeFields fun _ _ => rfl

instance (precedence : Precedence) (type : Option TypeId) (name : Text) :
    Follows (require precedence type name) := follows_changeFields fun _ _ => rfl

instance (id : FieldId) (f : Field → Field) : Follows (changeField id f) :=
  Follows.changing (fun _ => rfl) fun _ _ => rfl

instance (id : FieldId) (expr : Text) : Follows (setInitializer id expr) := by
  unfold setInitializer
  refine Follows.reading (fun _ _ => rfl) fun d => ?_
  dsimp only
  split <;> infer_instance

instance (id : FieldId) (statement : Text) : Follows (addStatement id statement) := by
  unfold addStatement
  infer_instance

instance (id : FieldId) : Follows (use id) := by
  unfold use
  infer_instance

instance (id : FieldId) (other : Text) : Follows (addNeed id other) := by
  unfold addNeed
  infer_instance

instance (e : Nat) (path : Text) (types : List (Option TypeId)) : Follows (refer e path types) := by
  unfold refer
  refine Follows.reading (fun _ _ => rfl) fun d => Follows.bind' inferInstance fun marker => ?_
  exact Follows.bind' (Follows.changing (fun _ => rfl) fun _ _ => rfl) fun _ => inferInstance

/-! ## Attributes -/

instance (e : Nat) (value : Text) (types : List (Option TypeId)) :
    Follows (Attribute.failParse e value types : Work Draft α) := by
  unfold Attribute.failParse
  exact Follows.reading (fun _ _ => rfl) fun _ => inferInstance

instance (e : Nat) (type : Option TypeId) :
    Follows (Attribute.failEmpty e type : Work Draft α) := by
  unfold Attribute.failEmpty
  exact Follows.reading (fun _ _ => rfl) fun _ => inferInstance

instance (e : Nat) (value : Text) (types : List (Option TypeId)) (literal : Text → Text)
    (reference : Text → Work Draft Text) (glue : Text) [∀ t, Follows (reference t)] :
    Follows (Attribute.convert e value types literal reference glue) := by
  unfold Attribute.convert
  refine Follows.bind' (Follows.mapM' fun segment => ?_) fun _ => inferInstance
  split <;> infer_instance

instance (e : Nat) (value : Text) (wrap : Text → Text) (types : List (Option TypeId)) :
    Follows (Attribute.singleReference e value wrap types) := by
  unfold Attribute.singleReference
  infer_instance

instance (parser : AttributeParser) (e : Nat) (value : Text) :
    Follows (Attribute.parse parser e value) := by
  induction parser generalizing value with
  | _ =>
    unfold Attribute.parse
    refine Follows.reading (fun _ _ => rfl) fun d => ?_
    dsimp only
    repeat' (first | infer_instance | split)

instance (ps : Attribute.Parsers) (e : Nat) (name : Text) (types : List (Option TypeId)) :
    Follows (Attribute.take? ps e name types) := by
  unfold Attribute.take?
  refine Follows.bind' inferInstance fun found => ?_
  split
  · infer_instance
  · exact Follows.reading (fun _ _ => rfl) fun _ => inferInstance

instance (ps : Attribute.Parsers) (e : Nat) (name otherwise : Text)
    (types : List (Option TypeId)) : Follows (Attribute.takeDefault ps e name otherwise types) := by
  unfold Attribute.takeDefault
  infer_instance

instance (ps : Attribute.Parsers) (e : Nat) (name : Text) (types : List (Option TypeId)) :
    Follows (Attribute.takeRequired ps e name types) := by
  unfold Attribute.takeRequired
  refine Follows.bind' inferInstance fun value => Follows.reading (fun _ _ => rfl) fun d => ?_
  dsimp only
  infer_instance

/-! ## Messages and resources -/

instance (package packageName name : Text) : Follows (openMessages package packageName name) :=
  Follows.changing (fun _ => rfl) fun _ _ => rfl

instance : Follows updateMessageType := by
  refine Follows.changing (fun d => ?_) fun d around => ?_
  · split <;> rfl
  · rw [show (surround around d).messages = d.messages from rfl]
    split <;> rfl

instance (place : Option Location) (m : Message) : Follows (declareMessage place m) := by
  unfold declareMessage
  refine Follows.reading (fun _ _ => rfl) fun d => ?_
  refine Follows.bind' inferInstance fun (i, messages) => ?_
  exact Follows.bind' (Follows.changing (fun _ => rfl) fun _ _ => rfl) fun _ => inferInstance

instance (name : Text) : Follows (resourceType name) := by
  refine Follows.changingTo (fun d => ?_) fun d around => ?_
  · split <;> rfl
  · rw [show (surround around d).catalog = d.catalog from rfl]
    split <;> rfl

instance (name : Text) (returns : TypeId) : Follows (addBundleMethod name returns) := by
  refine Follows.changing (fun d => ?_) fun d around => ?_
  · split <;> rfl
  · rcases hopen : d.bundle.type with _ | t
    · simp [surround, hopen]
    · simp [surround, hopen]

instance (place : Option Location) (field : Text) : Follows (claimMethod place field) := by
  refine Follows.quiet (fun d => ?_) fun d around => ?_
  · rw [runOn_claimMethod]
    split
    · rename_i method b hclaim
      obtain ⟨-, -, rfl⟩ := Bundle.claim_ok hclaim
      rfl
    · rfl
  · rcases htaken : d.bundle.methods.contains (Text.exported field) with _ | _
    · simp only [runOn_claimMethod, Bundle.claim, surround, htaken, Bool.false_eq_true, if_false]
    · simp only [runOn_claimMethod, Bundle.claim, surround, htaken, if_true]

instance (field : Text) (interfaces : List TypeId) (classes : List StyleClass) :
    Follows (generateStyleType field interfaces classes) :=
  Follows.changingTo (fun _ => rfl) fun _ _ => rfl

instance (typeName method expr : Text) : Follows (addFile typeName method expr) := by
  unfold addFile
  refine Follows.bind' inferInstance fun type => Follows.bind' inferInstance fun ref => ?_
  exact Follows.bind' (Follows.changing (fun _ => rfl) fun _ _ => rfl) fun _ => inferInstance

instance : Follows adoptStyleTypes := by
  unfold adoptStyleTypes
  refine Follows.reading (fun _ _ => rfl) fun d => ?_
  refine Follows.bind' (Follows.forIn' fun s _ => ?_) fun _ => inferInstance
  refine Follows.reading (fun _ _ => rfl) fun d => ?_
  split
  · exact Follows.bind' (Follows.changing (fun _ => rfl) fun _ _ => rfl) fun _ => inferInstance
  · infer_instance

instance : Follows bundleDeclarations := by
  unfold bundleDeclarations
  refine Follows.reading (fun _ _ => rfl) fun d => ?_
  dsimp only
  split
  · infer_instance
  · refine Follows.bind' (Follows.mapM' fun s => ?_) fun styles => ?_
    · refine Follows.bind' inferInstance fun generated => ?_
      split
      · refine Follows.bind' inferInstance fun result => ?_
        exact Follows.reading (fun _ _ => rfl) fun _ => inferInstance
      · refine Follows.bind' inferInstance fun result => ?_
        exact Follows.reading (fun _ _ => rfl) fun _ => inferInstance
    · refine Follows.bind' (Follows.mapM' fun s => ?_) fun _ => inferInstance
      refine Follows.bind' inferInstance fun package => ?_
      exact Follows.reading (fun _ _ => rfl) fun _ => inferInstance

/-! ## References -/

theorem follow_surround (d : Draft) (around : Surroundings) (r : FieldReference)
    (segments : List Text) (type : Option TypeId) (expr : Text) :
    follow (surround around d) r segments type expr = follow d r segments type expr := by
  induction segments generalizing type expr with
  | nil => rfl
  | cons segment rest ih =>
    unfold follow
    simp only [ih]
    rfl

theorem target_surround (d : Draft) (around : Surroundings) (r : FieldReference) :
    target (surround around d) r = target d r := by
  unfold target
  simp only [follow_surround]
  rfl

instance (r : FieldReference) : Follows (settleReference r) := by
  unfold settleReference
  refine Follows.reading (fun d around => ?_) fun d => ?_
  · simp only [target_surround]
    rfl
  · dsimp only
    split
    · infer_instance
    · refine Follows.bind' inferInstance fun _ => ?_
      repeat' (first | infer_instance | split)

instance : Follows settleReferences := by
  unfold settleReferences
  refine Follows.reading (fun _ _ => rfl) fun d => Follows.bind' inferInstance fun sound => ?_
  split
  · refine Follows.reading (fun _ _ => rfl) fun d => ?_
    split <;> infer_instance
  · infer_instance

end Draft

/-! ## Sessions -/

namespace Session

instance (e : Nat) (p : Document → Problem) : Follows (failOn e p : Work Session α) := by
  unfold failOn
  infer_instance

instance : Follows getDocument := by
  unfold getDocument
  exact Follows.reading (fun _ _ => rfl) fun _ => inferInstance

instance : Follows getCatalog := by
  unfold getCatalog
  exact Follows.reading (fun _ _ => rfl) fun _ => inferInstance

instance (name : Text) : Follows (primitive name) := by
  unfold primitive
  infer_instance

instance (name : Text) : Follows (uiType name) := by
  unfold uiType
  infer_instance

instance (name : Text) : Follows (resourceType? name) := by
  unfold resourceType?
  infer_instance

instance : Follows safeHtmlType := by
  unfold safeHtmlType
  infer_instance

instance (name : Text) : Follows (uiFunction name) := by
  unfold uiFunction
  infer_instance

instance (name : Text) : Follows (safeHtmlFunction name) := by
  unfold safeHtmlFunction
  infer_instance

instance (e : Nat) (type : TypeId) (params : List (Option TypeId)) :
    Follows (Session.constructor e type params) := by
  unfold Session.constructor
  refine Follows.bind' inferInstance fun c => ?_
  split <;> infer_instance

/-! ## Fields of a session -/

instance (f : FieldId) : Follows (nameOf f) := by
  unfold nameOf
  infer_instance

instance (f : FieldId) : Follows (isMade f) := by
  unfold isMade
  infer_instance

instance (f : FieldId) (method : Text) (args : List Text) : Follows (call f method args) := by
  unfold call
  infer_instance

instance (type : Option TypeId) (name initializer : Text) :
    Follows (bundleField type name initializer) := by
  unfold bundleField
  infer_instance

instance : Follows resourceBundle := by
  unfold resourceBundle
  exact Follows.reading (fun _ _ => rfl) fun _ => inferInstance

instance (place : Option Location) (m : Message) : Follows (declareMessage place m) := by
  unfold declareMessage
  refine Follows.bind' inferInstance fun method => ?_
  exact Follows.reading (fun _ _ => rfl) fun _ => inferInstance

instance : Follows declareId := by
  unfold declareId
  refine Follows.bind' (Follows.changing (fun _ => rfl) fun _ _ => rfl) fun _ => ?_
  refine Follows.bind' inferInstance fun type => ?_
  exact Follows.reading (fun _ _ => rfl) fun _ => inferInstance

instance (type : Option TypeId) (holder : Text) : Follows (elementById type holder) := by
  unfold elementById
  refine Follows.bind' inferInstance fun function => ?_
  split <;> infer_instance

/-! ## Sections and splices -/

instance (expr : Text) (w : Work Session α) [h : Follows w] : Follows (attached expr w) :=
  h.between (fun _ => rfl) (fun _ => rfl) (fun _ _ => rfl) fun _ _ => rfl

instance (statement : Text) : Follows (addAttached statement) :=
  Follows.changing (fun _ => rfl) fun _ _ => rfl

instance (statement : Text) : Follows (addDetached statement) :=
  Follows.changing (fun _ => rfl) fun _ _ => rfl

instance (e : Nat) (expr : Text) : Follows (splice e expr) := by
  unfold splice
  refine Follows.bind' inferInstance fun d => Follows.bind' inferInstance fun marker => ?_
  exact Follows.bind' (Follows.changing (fun _ => rfl) fun _ _ => rfl) fun _ => inferInstance

instance (content : Text) : Follows (spliced content) := by
  unfold spliced
  exact Follows.reading (fun _ _ => rfl) fun _ => inferInstance

instance (w : Work Session α) [h : Follows w] : Follows (withSplices w) := by
  unfold withSplices
  refine Follows.reading (fun _ _ => rfl) fun s => ?_
  exact h.between (fun _ => rfl) (fun _ => rfl) (fun _ _ => rfl) fun _ _ => rfl

/-! ## Attributes of a session -/

instance (e : Nat) (name : Text) (types : List (Option TypeId)) : Follows (take? e name types) := by
  unfold take?
  exact Follows.reading (fun _ _ => rfl) fun _ => inferInstance

instance (e : Nat) (name otherwise : Text) (types : List (Option TypeId)) :
    Follows (takeDefault e name otherwise types) := by
  unfold takeDefault
  exact Follows.reading (fun _ _ => rfl) fun _ => inferInstance

instance (e : Nat) (name : Text) (types : List (Option TypeId)) :
    Follows (takeRequired e name types) := by
  unfold takeRequired
  exact Follows.reading (fun _ _ => rfl) fun _ => inferInstance

instance (e : Nat) (value : Text) (types : List (Option TypeId)) :
    Follows (readValue e value types) := by
  unfold readValue
  exact Follows.reading (fun _ _ => rfl) fun _ => inferInstance

end Session

end ViewBinder
