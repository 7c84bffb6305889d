-- Templates of guarded sessions. Directives, the owner and the program are safe, so the work on a
-- whole template is: it crashes only where a tree is asked to hold a widget and has no way to.
import ViewBinder.Compile
import ViewBinder.Proofs.Element.Guarded

namespace ViewBinder

open Markup (Document)
open Session
open Work (Safe SafeAt)

variable {D : Document} {c : Catalog} {B : Session → Prop}

/-! ## Directives -/

namespace Directive

instance (e : Nat) (precedence : Precedence) (type : TypeId) (name : Text) :
    Safe (Guarded D c) B (declareField e precedence type name) := by
  have hfree : Safe (Guarded D c) B (do
      let s ← get
      match s.fields.find? name with
      | some old =>
        let first := s.catalog.key (s.fields.field old).type
        failOn e fun _ => .duplicateField name first (s.catalog.key type)
      | none => Draft.register precedence type name : Work Session FieldId) := by
    refine Safe.bind' inferInstance fun s => ?_
    split <;> infer_instance
  unfold declareField
  infer_instance

instance (e : Nat) (name : Text) (problem : Text → Text → Problem) :
    Safe (Guarded D c) B (resolveType e name problem) := by
  unfold resolveType
  refine Safe.bind' inferInstance fun c' => ?_
  split <;> infer_instance

instance (e : Nat) (found : Option Nat) (children : List Nat) :
    Safe (Guarded D c) B (attributesElement e found children) := by
  induction children generalizing found with
  | nil =>
    unfold attributesElement
    infer_instance
  | cons child rest ih =>
    unfold attributesElement
    infer_instance

instance (e : Nat) : Safe (Guarded D c) HasBareTree (withValue e) := by
  have := fun e target f type => Element.safe_inside (D := D) (c := c)
    (w := Element.properties target f type) inferInstance e f
  unfold withValue
  refine Safe.bind' inferInstance fun name => Safe.bind' inferInstance fun typeName => ?_
  refine Safe.bind' inferInstance fun type => Safe.bind' inferInstance fun f => ?_
  infer_instance

instance (e : Nat) : Safe (Guarded D c) B (importConstants e) := by
  unfold importConstants
  refine Safe.bind' inferInstance fun spec => ?_
  split
  · infer_instance
  · refine Safe.bind' inferInstance fun type => Safe.bind' inferInstance fun c' => ?_
    infer_instance

instance (e : Nat) : Safe (Guarded D c) B (style e) := by
  have hdeclare : ∀ (name bundle : Text) (s : Style), Safe (Guarded D c) B (do
      let (type, method) ← Draft.declareStyle ((← getDocument).location e) s
      let f ← declareField e .style type name
      Draft.addNeed f bundle
      Draft.setInitializer f (bundle ++ "." ++ method ++ "()")
      call f "EnsureInjected" [] : Work Session Unit) := by
    intro name bundle s
    refine Safe.bind' inferInstance fun d => Safe.bind' inferInstance fun (type, method) => ?_
    infer_instance
  unfold style
  refine Safe.bind' inferInstance fun name => Safe.bind' inferInstance fun sources => ?_
  refine Safe.bind' inferInstance fun typeName => Safe.bind' inferInstance fun css => ?_
  refine Safe.bind' inferInstance fun s => ?_
  repeat' (first | infer_instance | split)

instance (e : Nat) (name typeName : Text) (declare : Work Draft Text)
    [Safe (Draft.Guarded D c) (fun _ => False) declare] :
    Safe (Guarded D c) B (resource e name typeName declare) := by
  unfold resource
  refine Safe.bind' inferInstance fun s => ?_
  repeat' (first | infer_instance | split)

instance (e : Nat) : Safe (Guarded D c) B (image e) := by
  unfold image
  infer_instance

instance (e : Nat) : Safe (Guarded D c) B (data e) := by
  unfold data
  infer_instance

instance (e : Nat) : Safe (Guarded D c) HasBareTree (follow e) := by
  unfold follow
  infer_instance

instance (directives : List Nat) : Safe (Guarded D c) HasBareTree (followAll directives) := by
  unfold followAll
  infer_instance

end Directive

/-! ## Bindings -/

namespace Binding

instance (statement : Text) : Safe (Guarded D c) B (addTrailing statement) :=
  Safe.modify fun _ hs => hs.withOthers _ _ _ _

instance (f : FieldId) (ui : Nat) : Safe (Guarded D c) B (placeOf f ui) := by
  unfold placeOf
  infer_instance

instance (ui : Nat) (ownerName : Text) (u : UiField) :
    Safe (Guarded D c) B (bindField ui ownerName u) := by
  unfold bindField
  refine Safe.bind' inferInstance fun s => ?_
  split <;> infer_instance

/-- The parameter of a method that adds a handler has a type. -/
instance (ui : Nat) (h : Handler) (method : Method) (name : Text) :
    Safe (Guarded D c) B (bindHandlerTo ui h method name) := by
  unfold bindHandlerTo
  refine Safe.read fun s hs => ?_
  split
  · infer_instance
  · dsimp only
    split
    · infer_instance
    · rename_i hmethod
      have htyped := hs.draft.catalog.method? hmethod _ (List.mem_singleton_self _)
      cases htyped
    · infer_instance

instance (ui : Nat) (owner : TypeId) (h : Handler) :
    Safe (Guarded D c) B (bindHandler ui owner h) := by
  unfold bindHandler
  refine Safe.bind' inferInstance fun s => ?_
  dsimp only
  split <;> infer_instance

instance (ui : Nat) : Safe (Guarded D c) B (bindOwner ui) := by
  unfold bindOwner
  refine Safe.bind' inferInstance fun s => ?_
  split <;> infer_instance

end Binding

/-! ## The program -/

namespace Assembly

theorem safe_fieldType {f : Field} (hf : f.type.isSome) :
    Safe (Guarded D c) B (fieldType f) := by
  obtain ⟨t, ht⟩ := Option.isSome_iff_exists.mp hf
  unfold fieldType
  rw [ht]
  infer_instance

instance (fields : List Field) : Safe (Guarded D c) B (checkNames fields) := by
  unfold checkNames
  refine Safe.bind' inferInstance fun s => ?_
  refine Safe.bind' (Safe.forInMem fun f _ _ => ?_) fun _ => Safe.failing
  split <;> infer_instance

/-- The fields of a session have types, so they can be declared. -/
theorem safeAt_assemble (settings : Settings) (url binderName : Text) {root : FieldId}
    {s : Session} (hs : Guarded D c s) (hroot : root < s.fields.fields.size) :
    SafeAt (Guarded D c) B (assemble settings url binderName root) s := by
  have hdeclared : ∀ f ∈ s.fields.declarationOrder.map s.fields.field, f.type.isSome := by
    intro f hf
    obtain ⟨id, hid, rfl⟩ := List.mem_map.mp hf
    have hlt := List.mem_range.mp (s.fields.declarationOrder_perm.mem_iff.mp hid)
    exact hs.draft.fields.fields id hlt
  have hdeclarations : ∀ fields : List Field, (∀ f ∈ fields, f.type.isSome) →
      Safe (Guarded D c) B
        (fields.mapM fun f => do return (⟨f.name, ← fieldType f⟩ : Declaration)) := by
    intro fields hfields
    refine Safe.mapMMem fun f hf => ?_
    have := safe_fieldType (D := D) (c := c) (B := B) (hfields f hf)
    infer_instance
  have := hdeclarations _ hdeclared
  have hrootType := safe_fieldType (D := D) (c := c) (B := B) (hs.draft.fields.fields root hroot)
  unfold assemble
  refine SafeAt.bind ((inferInstance : Safe (Guarded D c) B get).safe s hs) fun hget => ?_
  cases hget
  refine (?_ : Safe (Guarded D c) B _).safe s hs
  dsimp only
  refine Safe.bind' inferInstance fun order => Safe.bind' hrootType fun rootType => ?_
  refine Safe.bind' inferInstance fun s => ?_
  split <;> infer_instance

end Assembly

/-! ## Whole templates -/

namespace Template

/-- The interface is one of the children of the root. -/
theorem interface_mem {root : Nat} {children : List Nat} {first : Option Nat} {ui : Nat}
    {s s' : Session} (h : (interface root children first).runOn s = (.ok ui, s')) :
    ui ∈ children ∨ first = some ui := by
  induction children generalizing first with
  | nil =>
    cases first with
    | none => cases h
    | some e =>
      cases h
      exact Or.inr rfl
  | cons child rest ih =>
    unfold interface at h
    obtain ⟨_, _, hget, h⟩ := Work.bind_ok h
    cases hget
    split at h
    · exact (ih h).imp_left (List.mem_cons_of_mem _)
    · split at h
      · cases h
      · rcases ih h with hlater | hhere
        · exact Or.inl (List.mem_cons_of_mem _ hlater)
        · cases hhere
          exact Or.inl List.mem_cons_self

instance (root : Nat) (children : List Nat) (ui : Option Nat) :
    Safe (Guarded D c) B (interface root children ui) := by
  induction children generalizing ui with
  | nil => cases ui <;> (unfold interface; infer_instance)
  | cons child rest ih =>
    unfold interface
    refine Safe.bind' inferInstance fun d => ?_
    repeat' (first | infer_instance | split)

instance : Safe (Guarded D c) B failIfReported := by
  unfold failIfReported
  exact Safe.failing

/-- Gathering up to the bindings of the owner. It gives the element of the interface and its field. -/
def walk (root : Nat) : Work Session (Nat × FieldId) := do
  for attr in generatorAttributes do discard (Document.takeBinder root attr)
  Document.assertNoAttributes root
  Document.assertNoText root
  let d ← getDocument
  let ui ← interface root (d.childElements root) none
  Directive.followAll (← Document.takeChildrenWhere root d.isBinder)
  discard (Document.takeChildren root)
  let f ← Element.build ui
  discard (Draft.use f)
  failIfReported
  return (ui, f)

theorem gather_eq (root : Nat) : gather root = (do
    let (ui, f) ← walk root
    Binding.bindOwner ui
    return f) := by
  unfold gather walk
  simp only [bind_assoc, pure_bind]

instance (root : Nat) : Safe (Guarded D c) HasBareTree (walk root) := by
  unfold walk
  refine Safe.bind' inferInstance fun _ => ?_
  refine Safe.bind' inferInstance fun _ => Safe.bind' inferInstance fun _ => ?_
  refine safe_getDocument fun d hd hordered => ?_
  refine Safe.after (Q := fun ui => D.Below root ui) inferInstance ?_ fun ui hui => ?_
  · intro s ui s' _ hrun
    rcases interface_mem hrun with hchild | hnone
    · exact hd.below hordered (Document.mem_children_of_childElements hchild)
    · cases hnone
  · have := Element.safe_build (c := c) hui.2
    refine Safe.bind' inferInstance fun directives => Safe.bind' inferInstance fun _ => ?_
    refine Safe.bind' inferInstance fun _ => Safe.bind' inferInstance fun f => ?_
    refine Safe.bind' inferInstance fun _ => Safe.bind' inferInstance fun _ => ?_
    infer_instance

instance (root : Nat) : Safe (Guarded D c) HasBareTree (gather root) := by
  rw [gather_eq]
  refine Safe.bind' inferInstance fun (ui, f) => ?_
  infer_instance

instance (root : Nat) : Safe (Guarded D c) HasBareTree (read root) := by
  unfold read
  infer_instance

instance (p : Program) : Safe (Guarded D c) B (weave p) := by
  have hattempt : Safe (Guarded D c) B
      (liftM (Markers.weave p.render : Work Markers Text).attempt : Work Session _) :=
    Safe.of_ok fun s hs => ⟨_, rfl, { hs with draft := hs.draft.withOthers _ _ _ }⟩
  unfold weave
  refine Safe.bind' hattempt fun answer => ?_
  split <;> infer_instance

end Template

end ViewBinder
