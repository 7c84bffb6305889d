-- Work that takes elements of the document. Most work leaves the document alone or uses attributes;
-- work that takes elements has to finish them. Here are the ways to put such work together, and
-- what sessions and drafts do to the document, function by function.
import ViewBinder.Proofs.Markup.Consume
import ViewBinder.Proofs.Template.Rewriting

namespace ViewBinder

open Markup (Document)
open Markup.Document (Bare Gone Empty Finished AllFinished Lasting)
open Work (Keeps Leads)

/-! ## Parts of a session -/

/-- Every element that was taken in between is finished. -/
def Draft.Takes (d d' : Draft) : Prop := d.document.Takes d'.document

/-- Every element that was taken in between is finished. -/
def Session.Takes (s s' : Session) : Prop := s.document.Takes s'.document

instance : Std.Refl Draft.Takes := ⟨fun d => Std.Refl.refl d.document⟩

instance : IsTrans Draft Draft.Takes :=
  ⟨fun _ _ _ h h' => IsTrans.trans (r := Document.Takes) _ _ _ h h'⟩

instance : Std.Refl Session.Takes := ⟨fun s => Std.Refl.refl s.document⟩

instance : IsTrans Session Session.Takes :=
  ⟨fun _ _ _ h h' => IsTrans.trans (r := Document.Takes) _ _ _ h h'⟩

instance (priority := low) {w : Work Draft α} [h : Leads Draft.SameDocument w] :
    Leads Draft.Takes w where
  leads d := by
    unfold Draft.Takes
    rw [show (w.runOn d).2.document = d.document from h.leads d]
    exact Std.Refl.refl _

instance (priority := low) {w : Work Session α} [h : Leads Session.SameDocument w] :
    Leads Session.Takes w where
  leads s := by
    unfold Session.Takes
    rw [show (w.runOn s).2.document = s.document from h.leads s]
    exact Std.Refl.refl _

instance {w : Work Document α} [h : Leads Document.Takes w] :
    Leads Draft.Takes (liftM w : Work Draft α) := ⟨fun d => h.leads d.document⟩

instance {w : Work Document α} [h : Leads Document.Takes w] :
    Leads Session.Takes (liftM w : Work Session α) := ⟨fun s => h.leads s.document⟩

instance {w : Work Draft α} [h : Leads Draft.Takes w] :
    Leads Session.Takes (liftM w : Work Session α) := ⟨fun s => h.leads s.toDraft⟩

/-- Every element that was taken in between is finished, but for some. -/
def Session.TakesBut (p : Nat → Prop) (s s' : Session) : Prop :=
  Document.TakesBut p s.document s'.document

instance (p : Nat → Prop) : Std.Refl (Session.TakesBut p) :=
  ⟨fun s => Document.TakesBut.refl p s.document⟩

instance (p : Nat → Prop) : IsTrans Session (Session.TakesBut p) :=
  ⟨fun _ _ _ h h' => Document.TakesBut.trans h h'⟩

instance (priority := low) {p : Nat → Prop} {w : Work Session α} [h : Keeps Session.Takes w] :
    Keeps (Session.TakesBut p) w := ⟨fun hok => Document.Takes.but (h.keeps hok)⟩

/-! ## Work that ensures something -/

namespace Session

/-- Where the work succeeds, the elements it took are finished, and something holds of the
document. -/
class Ensures (P : Document → Prop) (w : Work Session α) : Prop where
  ensures : ∀ {s a s'}, w.runOn s = (.ok a, s') → s.Takes s' ∧ P s'.document

namespace Ensures

variable {P Q : Document → Prop} {w : Work Session α} {k : α → Work Session β}

theorem keeps (h : Ensures P w) : Keeps Takes w := ⟨fun hok => (h.ensures hok).1⟩

theorem and (h : Ensures P w) (h' : Ensures Q w) : Ensures (fun d => P d ∧ Q d) w :=
  ⟨fun hok => ⟨(h.ensures hok).1, (h.ensures hok).2, (h'.ensures hok).2⟩⟩

theorem imp (h : Ensures P w) (hPQ : ∀ d, P d → Q d) : Ensures Q w :=
  ⟨fun hok => ⟨(h.ensures hok).1, hPQ _ (h.ensures hok).2⟩⟩

/-- Something holds after the last piece of work. -/
theorem after (hw : Keeps Takes w) (hk : ∀ a, Ensures P (k a)) : Ensures P (w >>= k) where
  ensures hok := by
    obtain ⟨a, s', hfirst, hrest⟩ := Work.bind_ok hok
    obtain ⟨htakes, hP⟩ := (hk a).ensures hrest
    exact ⟨IsTrans.trans _ _ _ (hw.keeps hfirst) htakes, hP⟩

/-- Something that lasts holds after the first piece of work already. -/
theorem before [Lasting P] (hw : Ensures P w) (hk : ∀ a, Keeps Takes (k a)) :
    Ensures P (w >>= k) where
  ensures hok := by
    obtain ⟨a, s', hfirst, hrest⟩ := Work.bind_ok hok
    obtain ⟨htakes, hP⟩ := hw.ensures hfirst
    have hlater := (hk a).keeps hrest
    exact ⟨IsTrans.trans _ _ _ htakes hlater, Lasting.lasts hlater hP⟩

theorem map {f : α → β} (h : Ensures P w) : Ensures P (f <$> w) where
  ensures hok := by
    obtain ⟨_, hrun, -⟩ := Work.map_ok hok
    exact h.ensures hrun

instance [hw : Keeps Takes w] [hk : ∀ a, Ensures P (k a)] : Ensures P (w >>= k) := after hw hk

instance [Lasting P] [hw : Ensures P w] [hk : ∀ a, Keeps Takes (k a)] : Ensures P (w >>= k) :=
  before hw hk

instance {p : Prop} [Decidable p] {v : Work Session α} [hw : Ensures P w] [hv : Ensures P v] :
    Ensures P (if p then w else v) := by
  split
  · exact hw
  · exact hv

/-- Work that fails ensures everything. -/
instance (e : Nat) (p : Document → Problem) : Ensures P (failOn e p : Work Session α) :=
  ⟨fun hok => by cases hok⟩

instance (e : Nat) (p : Document → Problem) : Ensures P (failOn e p >>= k) where
  ensures hok := by
    obtain ⟨_, _, hfail, _⟩ := Work.bind_ok hok
    cases hfail

instance (failure : Failure) : Ensures P (throw failure : Work Session α) :=
  ⟨fun hok => by cases hok⟩

theorem both {e : Nat} (hbare : Ensures (Bare e) w) (hempty : Ensures (Empty e) w) :
    Ensures (Finished e) w :=
  (hbare.and hempty).imp fun _ h => ⟨h.1, .inr h.2⟩

instance (priority := low) finished {e : Nat} [hbare : Ensures (Bare e) w]
    [hempty : Ensures (Empty e) w] : Ensures (Finished e) w := both hbare hempty

theorem nil (h : Keeps Takes w) : Ensures (AllFinished []) w :=
  ⟨fun hok => ⟨h.keeps hok, fun _ he => absurd he List.not_mem_nil⟩⟩

theorem cons {e : Nat} {es : List Nat} (h : Ensures (Finished e) w)
    (hall : Ensures (AllFinished es) w) : Ensures (AllFinished (e :: es)) w :=
  (h.and hall).imp fun _ hP => List.forall_mem_cons.mpr hP

/-- Work on each of some values, one after the other. -/
theorem mapM {P : γ → Document → Prop} [∀ c, Lasting (P c)] {f : γ → Work Session β}
    {cs : List γ} (h : ∀ c, Ensures (P c) (f c)) :
    Ensures (fun d => ∀ c ∈ cs, P c d) (cs.mapM f) := by
  induction cs with
  | nil =>
    refine ⟨fun hok => ?_⟩
    rw [List.mapM_nil] at hok
    cases hok
    exact ⟨Std.Refl.refl _, fun _ hc => absurd hc List.not_mem_nil⟩
  | cons c cs ih =>
    rw [List.mapM_cons]
    have hfirst : Ensures (P c) (f c >>= fun b => cs.mapM f >>= fun bs => pure (b :: bs)) :=
      before (h c) fun _ => Keeps.bind' ih.keeps fun _ => inferInstance
    have hrest : Ensures (fun d => ∀ c ∈ cs, P c d)
        (f c >>= fun b => cs.mapM f >>= fun bs => pure (b :: bs)) := by
      have : Lasting fun d => ∀ c ∈ cs, P c d :=
        ⟨fun htakes hP c hc => Lasting.lasts htakes (hP c hc)⟩
      exact after (h c).keeps fun _ => before ih fun _ => inferInstance
    exact (hfirst.and hrest).imp fun _ hP => List.forall_mem_cons.mpr hP

end Ensures

/-- A step of a loop that never ends it. -/
class Yields (w : Work Session (ForInStep β)) : Prop where
  yields : ∀ {s step s'}, w.runOn s = (.ok step, s') → ∃ b, step = .yield b

namespace Yields

instance pure (b : β) : Yields (pure (.yield b) : Work Session (ForInStep β)) :=
  ⟨fun hok => by cases hok; exact ⟨b, rfl⟩⟩

instance bind {w : Work Session α} {k : α → Work Session (ForInStep β)} [h : ∀ a, Yields (k a)] :
    Yields (w >>= k) where
  yields hok := by
    obtain ⟨a, _, _, hrest⟩ := Work.bind_ok hok
    exact (h a).yields hrest

instance ite {p : Prop} [Decidable p] {w v : Work Session (ForInStep β)} [hw : Yields w]
    [hv : Yields v] : Yields (if p then w else v) := by
  split
  · exact hw
  · exact hv

end Yields

/-- A loop that finishes one element after the other. -/
theorem ensures_forIn {f : Nat → β → Work Session (ForInStep β)} {es : List Nat} {b : β}
    (h : ∀ e b, Ensures (Finished e) (f e b)) (hyields : ∀ e b, Yields (f e b)) :
    Ensures (AllFinished es) (forIn es b f) := by
  induction es generalizing b with
  | nil =>
    refine ⟨fun hok => ?_⟩
    cases hok
    exact ⟨Std.Refl.refl _, fun _ he => absurd he List.not_mem_nil⟩
  | cons e es ih =>
    rw [List.forIn_cons]
    refine ⟨fun {s a s'} hok => ?_⟩
    obtain ⟨step, s₁, hfirst, hrest⟩ := Work.bind_ok hok
    obtain ⟨b', rfl⟩ := (hyields e b).yields hfirst
    obtain ⟨htakes, hfinished⟩ := (h e b).ensures hfirst
    obtain ⟨hlater, hall⟩ := ih.ensures hrest
    exact ⟨IsTrans.trans _ _ _ htakes hlater,
      List.forall_mem_cons.mpr ⟨hlater.finished id hfinished, hall⟩⟩

/-! ## Taking elements -/

theorem runOn_document (w : Work Document α) (s : Session) :
    (liftM w : Work Session α).runOn s =
      ((w.runOn s.document).1, { s with document := (w.runOn s.document).2 }) := rfl

/-- Work on the document that succeeds in a session succeeds on the document. -/
theorem document_ok {w : Work Document α} {s s' : Session} {a : α}
    (h : (liftM w : Work Session α).runOn s = (.ok a, s')) :
    w.runOn s.document = (.ok a, s'.document) := by
  rw [runOn_document] at h
  rcases hrun : w.runOn s.document with ⟨answer, d⟩
  rw [hrun] at h
  cases h
  rfl

instance (e : Nat) :
    Ensures (Bare e) (liftM (Document.assertNoAttributes e) : Work Session Unit) where
  ensures {s _ s'} hok := by
    obtain ⟨hsame, hbare⟩ := Document.assertNoAttributes_ok (document_ok hok)
    unfold Takes
    rw [hsame]
    exact ⟨Std.Refl.refl _, hbare⟩

instance (e : Nat) : Ensures (Empty e) (liftM (Document.assertNoBody e) : Work Session Unit) where
  ensures {s _ s'} hok := by
    obtain ⟨hsame, hempty⟩ := Document.assertNoBody_ok (document_ok hok)
    unfold Takes
    rw [hsame]
    exact ⟨Std.Refl.refl _, hempty⟩

instance (e : Nat) : Ensures (Empty e) (liftM (Document.takePlainText e) : Work Session Text) :=
  ⟨fun hok => Document.takePlainText_ok (document_ok hok)⟩

instance (e : Nat) : Keeps Takes (liftM (Document.takePlainText e) : Work Session Text) :=
  Ensures.keeps (P := Empty e) inferInstance

variable {e : Nat} {k : List Nat → Work Session α}

/-- Children that are taken have to be finished. -/
theorem ensures_takeChildren (hk : ∀ cs, Ensures (AllFinished cs) (k cs)) :
    Ensures (Empty e) (liftM (Document.takeChildren e) >>= k) where
  ensures hok := by
    obtain ⟨cs, s₁, htake, hrest⟩ := Work.bind_ok hok
    obtain ⟨-, hbut, hempty⟩ := Document.takeChildren_ok (document_ok htake)
    obtain ⟨hlater, hall⟩ := (hk cs).ensures hrest
    exact ⟨(hbut.trans hlater.but).close hall, hlater.empty hempty⟩

/-- A loop over all children finishes each of them. -/
theorem ensures_eachChild {f : Nat → β → Work Session (ForInStep β)} {b : β}
    {k : β → Work Session α} (h : ∀ c b, Ensures (Finished c) (f c b))
    (hyields : ∀ c b, Yields (f c b)) (hk : ∀ b, Keeps Takes (k b)) :
    Ensures (Empty e) (liftM (Document.takeChildren e) >>= fun cs => forIn cs b f >>= k) :=
  ensures_takeChildren fun _ => Ensures.before (ensures_forIn h hyields) hk

/-- What work on the document takes has to be finished. -/
theorem keeps_taking {w : Work Document (List Nat)}
    (hw : ∀ {d cs d'}, w.runOn d = (.ok cs, d') → Document.TakesBut (· ∈ cs) d d')
    (hk : ∀ cs, Ensures (AllFinished cs) (k cs)) : Keeps Takes (liftM w >>= k) where
  keeps hok := by
    obtain ⟨cs, s₁, htake, hrest⟩ := Work.bind_ok hok
    obtain ⟨hlater, hall⟩ := (hk cs).ensures hrest
    exact ((hw (document_ok htake)).trans hlater.but).close hall

theorem keeps_takeChildrenWhere {passes : Nat → Bool} (hk : ∀ cs, Ensures (AllFinished cs) (k cs)) :
    Keeps Takes (liftM (Document.takeChildrenWhere e passes) >>= k) :=
  keeps_taking (fun hok => (Document.takeChildrenWhere_ok hok).2.1) hk

theorem ensures_takeSingleChild {k : Nat → Work Session α}
    (hk : ∀ c, Ensures (Finished c) (k c)) :
    Ensures (Empty e) (liftM (Document.takeSingleChild e) >>= k) where
  ensures hok := by
    obtain ⟨c, s₁, htake, hrest⟩ := Work.bind_ok hok
    obtain ⟨hbut, hempty⟩ : Document.TakesBut (· = c) _ s₁.document ∧ Empty e s₁.document := by
      have hsingle := document_ok htake
      unfold Document.takeSingleChild at hsingle
      obtain ⟨cs, d₁, hchildren, hsingle⟩ := Work.bind_ok hsingle
      obtain ⟨-, hbut, hempty⟩ := Document.takeChildren_ok hchildren
      split at hsingle
      · cases hsingle
        exact ⟨hbut.mono fun n hn => List.mem_singleton.mp hn, hempty⟩
      · cases hsingle
    obtain ⟨hlater, hfinished⟩ := (hk c).ensures hrest
    exact ⟨(hbut.trans hlater.but).close fun n hn => hn ▸ hfinished, hlater.empty hempty⟩

/-- Work that is left out where there is no content. -/
theorem ensures_ifContent {w v : Work Session α} (hw : Ensures (Empty e) w) (hv : Keeps Takes v) :
    Ensures (Empty e) (getDocument >>= fun d => if d.hasContent e then w else v) where
  ensures hok := by
    obtain ⟨_, _, hget, hok⟩ := Work.bind_ok hok
    cases hget
    split at hok
    · exact hw.ensures hok
    · rename_i hnone
      have htakes := hv.keeps hok
      exact ⟨htakes, htakes.empty (Document.empty_of_hasContent (by simpa using hnone))⟩

/-! ## Work that changes other parts -/

/-- Work between two changes of the session that leave the document alone. -/
theorem Ensures.between {P : Document → Prop} {w : Work Session α} (h : Ensures P w)
    {first last : Session → Session} (hfirst : ∀ s, (first s).document = s.document)
    (hlast : ∀ s, (last s).document = s.document) :
    Ensures P (modify first >>= fun _ => w.andThenAlways last) where
  ensures {s a s'} hok := by
    rw [Work.runOn_bind, Work.runOn_modify] at hok
    simp only [Work.runOn_andThenAlways] at hok
    rcases hrun : w.runOn (first s) with ⟨answer, s''⟩
    rw [hrun] at hok
    cases hok
    have hinner := h.ensures hrun
    unfold Takes at hinner ⊢
    rw [hfirst] at hinner
    rw [hlast]
    exact hinner

theorem Ensures.of_keeps {w : Work Session α} (h : Keeps Takes w) : Ensures (fun _ => True) w :=
  ⟨fun hok => ⟨h.keeps hok, trivial⟩⟩

instance (P : Document → Prop) (expr : Text) (w : Work Session α) [h : Ensures P w] :
    Ensures P (attached expr w) := h.between (fun _ => rfl) fun _ => rfl

instance (P : Document → Prop) (e : Nat) (f : FieldId) (w : Work Session α) [h : Ensures P w] :
    Ensures P (Element.inside e f w) := h.between (fun _ => rfl) fun _ => rfl

instance (expr : Text) (w : Work Session α) [h : Keeps Takes w] :
    Keeps Takes (attached expr w) := by
  have := Ensures.of_keeps h
  exact Ensures.keeps (P := fun _ => True) inferInstance

instance (e : Nat) (f : FieldId) (w : Work Session α) [h : Keeps Takes w] :
    Keeps Takes (Element.inside e f w) := by
  have := Ensures.of_keeps h
  exact Ensures.keeps (P := fun _ => True) inferInstance

instance (P : Document → Prop) (w : Work Session α) [h : Ensures P w] :
    Ensures P (withSplices w) := by
  unfold withSplices
  exact Ensures.after inferInstance fun s => h.between (fun _ => rfl) fun _ => rfl

end Session

/-! ## The document -/

namespace Markup.Document

instance (e : Nat) (p : Document → Problem) : Leads Takes (failOn e p : Work Document α) :=
  ⟨fun _ => Std.Refl.refl _⟩

instance (e : Nat) (base : Text) : Leads Takes (takeRaw e base) := by
  unfold takeRaw
  infer_instance

instance (e : Nat) (base otherwise : Text) : Leads Takes (takeDefault e base otherwise) := by
  unfold takeDefault
  infer_instance

instance (e : Nat) (base : Text) : Leads Takes (takeRequired e base) := by
  unfold takeRequired
  refine Leads.bind' inferInstance fun found => ?_
  split <;> infer_instance

instance (e : Nat) (base : Text) (otherwise : Bool) :
    Leads Takes (takeBoolean e base otherwise) := by
  unfold takeBoolean
  refine Leads.bind' inferInstance fun found => ?_
  split <;> infer_instance

instance (e : Nat) (base : Text) : Leads Takes (takeBinder e base) := by
  unfold takeBinder
  refine Leads.bind' inferInstance fun found => ?_
  split <;> infer_instance

instance (e : Nat) : Leads Takes (assertNoAttributes e) := by
  unfold assertNoAttributes
  refine Leads.bind' inferInstance fun d => ?_
  split <;> infer_instance

instance (e : Nat) : Leads Takes (assertNoText e) := by
  unfold assertNoText
  refine Leads.bind' inferInstance fun d => ?_
  split <;> infer_instance

instance (e : Nat) : Leads Takes (assertNoBody e) := by
  unfold assertNoBody
  refine Leads.bind' inferInstance fun d => ?_
  split <;> infer_instance

end Markup.Document

/-! ## Drafts -/

namespace Draft

instance (e : Nat) (message : Document → Text) : Leads SameDocument (warn e message) :=
  ⟨fun _ => rfl⟩

instance (place : Option Location) (p : Problem) : Leads SameDocument (report place p) :=
  ⟨fun _ => rfl⟩

instance : Reading Takes := ⟨fun _ _ _ => inferInstance, fun _ _ => inferInstance⟩

instance (t : TypeId) : Leads SameDocument (typeRef t) := ⟨fun _ => rfl⟩

instance (precedence : Precedence) (type : Option TypeId) (name : Text) :
    Leads SameDocument (register precedence type name) := by
  refine ⟨fun d => ?_⟩
  unfold register
  rw [runOn_changeFields]
  split <;> rfl

instance (id : FieldId) (statement : Text) : Leads SameDocument (addStatement id statement) := by
  unfold addStatement
  infer_instance

instance (id : FieldId) (other : Text) : Leads SameDocument (addNeed id other) := by
  unfold addNeed
  infer_instance

instance (name : Text) : Leads SameDocument (resourceType name) := by
  refine ⟨fun d => ?_⟩
  unfold resourceType
  rw [Work.runOn_modifyGet]
  split <;> rfl

instance (b : Bundle) : Leads SameDocument (openBundle b) := ⟨fun _ => rfl⟩

instance (package packageName name : Text) :
    Leads SameDocument (openMessages package packageName name) := ⟨fun _ => rfl⟩

instance (name : Text) (returns : TypeId) : Leads SameDocument (addBundleMethod name returns) := by
  refine ⟨fun d => ?_⟩
  unfold addBundleMethod
  rw [Work.runOn_modify]
  split <;> rfl

instance (f : Draft → Bundle) :
    Leads SameDocument (modify fun d => { d with bundle := f d } : Work Draft Unit) :=
  ⟨fun _ => rfl⟩

instance (f : Draft → Catalog) :
    Leads SameDocument (modify fun d => { d with catalog := f d } : Work Draft Unit) :=
  ⟨fun _ => rfl⟩

instance (place : Option Location) (field : Text) :
    Leads SameDocument (claimMethod place field) := by
  unfold claimMethod
  infer_instance

instance (field : Text) (interfaces : List TypeId) (classes : List StyleClass) :
    Leads SameDocument (generateStyleType field interfaces classes) := ⟨fun _ => rfl⟩

instance (place : Option Location) (s : Style) : Leads SameDocument (declareStyle place s) := by
  unfold declareStyle
  refine Leads.bind' inferInstance fun method => Leads.bind' inferInstance fun d => ?_
  refine Leads.bind' inferInstance fun css => Leads.bind' inferInstance fun classes => ?_
  refine Leads.bind' inferInstance fun resource => ?_
  split <;> infer_instance

instance (typeName method expr : Text) : Leads SameDocument (addFile typeName method expr) := by
  unfold addFile
  infer_instance

instance (place : Option Location) (i : Image) : Leads SameDocument (declareImage place i) := by
  unfold declareImage
  refine Leads.bind' inferInstance fun d => Leads.bind' inferInstance fun source => ?_
  refine Leads.bind' inferInstance fun repetition => Leads.bind' inferInstance fun method => ?_
  infer_instance

instance (place : Option Location) (f : DataFile) : Leads SameDocument (declareData place f) := by
  unfold declareData
  infer_instance

instance : Leads SameDocument adoptStyleTypes := by
  unfold adoptStyleTypes
  refine Leads.bind' inferInstance fun d => ?_
  refine Leads.bind' (Leads.forIn (h := fun s _ => ?_)) fun _ => inferInstance
  refine Leads.bind' inferInstance fun d => ?_
  split <;> infer_instance

end Draft

/-! ## Sessions -/

namespace Session

instance (f : FieldId) (method : Text) (args : List Text) :
    Leads SameDocument (call f method args) := by
  unfold call
  infer_instance

instance : Leads SameDocument resourceBundle := by
  unfold resourceBundle
  infer_instance

instance (f : Session → Nat) :
    Leads SameDocument (modify fun s => { s with ids := f s } : Work Session Unit) :=
  ⟨fun _ => rfl⟩

instance : Leads SameDocument declareId := by
  unfold declareId
  infer_instance

instance (statement : Text) : Leads SameDocument (addAttached statement) := ⟨fun _ => rfl⟩

instance (statement : Text) : Leads SameDocument (addDetached statement) := ⟨fun _ => rfl⟩

instance (e : Nat) (value : Text) (types : List (Option TypeId)) :
    Leads SameDocument (readValue e value types) := by
  unfold readValue
  infer_instance

instance (e : Nat) (name : Text) (types : List (Option TypeId)) :
    Leads Takes (take? e name types) := by
  unfold take?
  infer_instance

instance (e : Nat) (name otherwise : Text) (types : List (Option TypeId)) :
    Leads Takes (takeDefault e name otherwise types) := by
  unfold takeDefault
  infer_instance

instance (e : Nat) (name : Text) (types : List (Option TypeId)) :
    Leads Takes (takeRequired e name types) := by
  unfold takeRequired
  infer_instance

end Session

end ViewBinder
