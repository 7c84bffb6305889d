-- Whatever an element takes, it finishes. Function by function, from content over the rules of
-- elements to whole templates: children that are taken are built or read to the end, and elements
-- that are read themselves have neither attributes nor content left when that is over.
import ViewBinder.Proofs.Session.Taking

namespace ViewBinder

open Markup (Document)
open Markup.Document (Bare Gone Empty Finished AllFinished Lasting)
open Session
open Work (Keeps Leads)

/-! ## Attributes -/

namespace Content

instance (e decl : Nat) : Ensures (Finished decl) (attributeMessage e decl) := by
  unfold attributeMessage
  have hlast : ∀ name description meaning key, Keeps Takes (do
      match (← getDocument).peek e name with
      | none => failOn decl fun d => .absentMessageAttribute (d.tag decl) name (d.tag e)
      | some value =>
        if Segment.hasReference value then
          failOn decl fun d => .referenceInMessage name (d.tag e)
        return (name, { description, meaning, key, parts := [.literal value] }) :
      Work Session (Text × Message)) := by
    intro name description meaning key
    refine Keeps.bind' inferInstance fun d => ?_
    split <;> infer_instance
  infer_instance

/-- The attribute that a message is for is there. -/
theorem attributeMessage_has {e decl : Nat} {s s' : Session} {name : Text} {m : Message}
    (h : (attributeMessage e decl).runOn s = (.ok (name, m), s')) :
    (s'.document.find? e [] name).isSome = true := by
  unfold attributeMessage at h
  obtain ⟨_, s₁, -, h⟩ := Work.bind_ok h
  obtain ⟨_, s₂, -, h⟩ := Work.bind_ok h
  obtain ⟨_, s₃, -, h⟩ := Work.bind_ok h
  obtain ⟨_, s₄, -, h⟩ := Work.bind_ok h
  obtain ⟨_, s₅, -, h⟩ := Work.bind_ok h
  obtain ⟨_, s₆, -, h⟩ := Work.bind_ok h
  obtain ⟨_, _, hget, h⟩ := Work.bind_ok h
  cases hget
  split at h
  · cases h
  · rename_i value hpeek
    split at h
    · obtain ⟨_, _, hfail, _⟩ := Work.bind_ok h
      cases hfail
    · cases h
      unfold Document.peek at hpeek
      obtain ⟨found, hfound, -⟩ := Option.map_eq_some_iff.mp hpeek
      rw [hfound]
      rfl

/-- Steps that finish one element each and give another new attributes. -/
theorem takesBut_forIn {e : Nat} {f : Nat → Work Session (ForInStep PUnit)}
    (h : ∀ {c s step s'}, (f c).runOn s = (.ok step, s') →
      step = .yield ⟨⟩ ∧ TakesBut (· = e) s s' ∧ (c = e ∨ s'.document.Finished c))
    {cs : List Nat} {s s' : Session} {u : PUnit}
    (hok : (forIn cs PUnit.unit fun c _ => f c).runOn s = (.ok u, s')) :
    TakesBut (· = e) s s' ∧ ∀ c ∈ cs, c = e ∨ s'.document.Finished c := by
  induction cs generalizing s with
  | nil =>
    cases hok
    exact ⟨Std.Refl.refl _, fun _ hc => absurd hc List.not_mem_nil⟩
  | cons c cs ih =>
    rw [List.forIn_cons] at hok
    obtain ⟨step, s₁, hfirst, hrest⟩ := Work.bind_ok hok
    obtain ⟨rfl, hbut, hfinished⟩ := h hfirst
    obtain ⟨hlater, hall⟩ := ih hrest
    refine ⟨IsTrans.trans _ _ _ hbut hlater, List.forall_mem_cons.mpr ⟨?_, hall⟩⟩
    by_cases hce : c = e
    · exact .inl hce
    · exact .inr (Document.TakesBut.finished hlater hce (hfinished.resolve_left hce))

/-- Only the element itself gets other attributes. -/
theorem keeps_declareAttributeMessages (e : Nat) {value : Text → Work Session Text}
    [∀ t, Leads SameDocument (value t)] :
    Keeps (TakesBut (· = e)) (declareAttributeMessages e value) where
  keeps {s u s'} hok := by
    unfold declareAttributeMessages at hok
    obtain ⟨decls, s₁, htake, hok⟩ := Work.bind_ok hok
    obtain ⟨-, hbut, -⟩ := Document.takeChildrenWhere_ok (document_ok htake)
    obtain ⟨_, s₂, hloop, hlast⟩ := Work.bind_ok hok
    cases hlast
    have hloop' : TakesBut (· = e) s₁ s' ∧ ∀ c ∈ decls, c = e ∨ s'.document.Finished c := by
      refine takesBut_forIn (fun {decl s step s'} hok => ?_) hloop
      obtain ⟨⟨name, m⟩, s₁, hmessage, hok⟩ := Work.bind_ok hok
      obtain ⟨_, _, hget, hok⟩ := Work.bind_ok hok
      cases hget
      obtain ⟨method, s₂, hmethod, hok⟩ := Work.bind_ok hok
      obtain ⟨text, s₃, htext, hok⟩ := Work.bind_ok hok
      obtain ⟨_, _, hset, hok⟩ := Work.bind_ok hok
      cases hset
      cases hok
      have hsame : SameDocument s₁ s₃ :=
        IsTrans.trans _ _ _ (Keeps.keeps hmethod) (Keeps.keeps htext)
      obtain ⟨htakes, hfinished⟩ := Ensures.ensures (P := Finished decl) hmessage
      have hset : s₁.document.TakesBut (· = e) (s₃.document.setAttribute e name text) := by
        rw [show s₃.document = s₁.document from hsame]
        exact Document.takesBut_setAttribute s₁.document e name text
      refine ⟨rfl, htakes.but.trans hset, ?_⟩
      by_cases hde : decl = e
      · exact .inl hde
      · exact .inr (hset.finished hde hfinished)
    obtain ⟨hlater, hall⟩ := hloop'
    have hwhole := (hbut.mono (q := fun n => n ∈ decls ∨ n = e) fun n => .inl).trans
      (hlater.mono fun n => .inr)
    exact hwhole.close_to fun n hn => hn.elim (hall n) .inl

instance (e : Nat) : Keeps (TakesBut (· = e)) (computeAttributes e) := by
  have hreplace : ∀ i value, Leads (TakesBut (· = e))
      (modify fun s => { s with document := s.document.replaceAttribute e i value } :
        Work Session Unit) :=
    fun i value => ⟨fun s => Document.takesBut_replaceAttribute s.document e i value⟩
  unfold computeAttributes
  infer_instance

end Content

/-! ## Fields and widgets in markup -/

namespace Content

/-- Only the element itself gets an attribute. -/
instance (e : Nat) : Keeps (TakesBut (· = e)) (bindField e) := by
  have hset : ∀ marker, Leads (TakesBut (· = e))
      (modify fun s => { s with document := s.document.setAttribute e "id" marker } :
        Work Session Unit) :=
    fun marker => ⟨fun s => Document.takesBut_setAttribute s.document e "id" marker⟩
  unfold bindField
  repeat' (first | infer_instance | split | refine Keeps.bind' inferInstance fun _ => ?_)

variable {build : Builder} [∀ e, Ensures (Finished e) (build e)]

instance (parent child : Nat) (wanted : Option TypeId) :
    Ensures (Finished child) (buildChild build parent child wanted) := by
  unfold buildChild
  refine Ensures.after inferInstance fun d => ?_
  dsimp only
  split <;> infer_instance

instance (parent child : Nat) (wanted : Option TypeId) :
    Keeps Takes (buildChild build parent child wanted) :=
  Ensures.keeps (P := Finished child) inferInstance

instance (e : Nat) (child : FieldId) (holder : Text) :
    Keeps Takes (stampWidget e child holder) := by
  unfold stampWidget
  repeat' (first | infer_instance | split | refine Keeps.bind' inferInstance fun _ => ?_)

instance (e : Nat) (panel child : FieldId) (holder : Text) :
    Keeps Takes (replaceByWidget e panel child holder) := by
  unfold replaceByWidget
  infer_instance

instance (panel : FieldId) (stamped : Bool) (e : Nat) :
    Ensures (Finished e) (placeWidget build panel stamped e) := by
  unfold placeWidget
  infer_instance

/-! ## Values and messages -/

instance (e : Nat) (type : Option TypeId) : Ensures (Finished e) (valueFrom e type) := by
  unfold valueFrom
  infer_instance

instance (kind : ContentKind) (e : Nat) : Ensures (Finished e) (textValue kind e) := by
  unfold textValue
  infer_instance

instance (e : Nat) : Ensures (Finished e) (markupValue e) := by
  unfold markupValue
  refine Ensures.after inferInstance fun type => ?_
  split <;> infer_instance

instance (count : Nat) (pieces : List Marker.Piece) :
    Leads SameDocument (literalParts count pieces) := by
  induction pieces generalizing count with
  | nil =>
    unfold literalParts
    infer_instance
  | cons piece rest ih =>
    cases piece with
    | plain run =>
      unfold literalParts
      infer_instance
    | marker digits =>
      unfold literalParts
      infer_instance

variable {slot : Nat → Work Session Html} [∀ n, Ensures (Gone n) (slot n)]

instance (slots : List Nat) : Lasting fun d => ∀ c ∈ slots, d.Gone c :=
  ⟨fun htakes hgone c hc => htakes.gone (hgone c hc)⟩

/-- An element is empty when every slot that was left is taken. -/
theorem ensures_contents {e : Nat} {f : List Nat → Work Session α}
    (h : ∀ slots, Ensures (fun d => ∀ c ∈ slots, d.Gone c) (f slots)) :
    Ensures (Empty e) (getDocument >>= fun d => f (d.contents e)) where
  ensures hok := by
    obtain ⟨_, _, hget, hok⟩ := Work.bind_ok hok
    cases hget
    obtain ⟨htakes, hgone⟩ := (h _).ensures hok
    exact ⟨htakes, Document.TakesBut.empty_of_contents htakes hgone⟩

instance (e : Nat) : Ensures (Empty e) (renderSlots slot e) := by
  unfold renderSlots
  exact ensures_contents fun slots => Ensures.mapM fun n => inferInstance

instance (e : Nat) : Keeps Takes (renderSlots slot e) := Ensures.keeps (P := Empty e) inferInstance

instance (e : Nat) : Ensures (Finished e) (placeholder slot e) := by
  unfold placeholder
  dsimp only
  infer_instance

/-- Work that finishes an element takes it. -/
theorem ensures_useChild {P : Document → Prop} {c : Nat} {w : Work Session α}
    (h : Ensures (Finished c) w) (hP : Ensures P w) :
    Ensures (fun d => d.Gone c ∧ P d)
      ((modify fun s => { s with document := s.document.useChild c }) >>= fun _ => w) where
  ensures {s a s'} hok := by
    obtain ⟨_, _, huse, hok⟩ := Work.bind_ok hok
    cases huse
    obtain ⟨htakes, hfinished⟩ := h.ensures hok
    have huse := Document.takesBut_useChild (d := s.document) (c := c) (p := (· = c)) fun _ => rfl
    exact ⟨(huse.trans htakes.but).close fun n hn => hn ▸ hfinished,
      htakes.gone (Document.gone_useChild s.document c), (hP.ensures hok).2⟩

/-- Every slot of a message is taken. -/
instance (e : Nat) (literal : Text) (count : Nat) (slots : List Nat) :
    Ensures (fun d => ∀ c ∈ slots, d.Gone c) (messageParts slot e literal count slots) := by
  induction slots generalizing literal count with
  | nil =>
    have hnil : Keeps Takes (messageParts slot e literal count []) := by
      unfold messageParts
      infer_instance
    exact ⟨fun hok => ⟨hnil.keeps hok, fun _ hc => absurd hc List.not_mem_nil⟩⟩
  | cons c rest ih =>
    have hkeeps := fun literal count => (ih literal count).keeps
    have hslot : Keeps Takes (slot c) := Ensures.keeps (P := Gone c) inferInstance
    have hplaceholder : Keeps Takes (placeholder slot c) :=
      Ensures.keeps (P := Finished c) inferInstance
    unfold messageParts
    refine Ensures.imp (P := fun d => d.Gone c ∧ ∀ n ∈ rest, d.Gone n)
      (Ensures.after inferInstance fun d => ?_) fun _ hgone => List.forall_mem_cons.mpr hgone
    dsimp only
    split
    · infer_instance
    · split
      · exact ensures_useChild inferInstance inferInstance
      · exact Ensures.and inferInstance inferInstance

instance (kind : ContentKind) (e : Nat) : Ensures (Finished e) (message kind slot e) := by
  unfold message
  have hempty : ∀ description meaning key, Ensures (Empty e) (do
      let parts ← messageParts slot e [] 0 ((← getDocument).contents e)
      let m : Message := { description, meaning, key, html := !kind.isText, parts }
      let method ← declareMessage ((← getDocument).location e) m
      splice e (method ++ "(" ++ Text.join ", " m.args ++ ")") : Work Session Text) := by
    intro description meaning key
    dsimp only
    exact ensures_contents fun slots => Ensures.before inferInstance fun _ => inferInstance
  refine Ensures.after inferInstance fun description => ?_
  refine Ensures.after inferInstance fun meaning => Ensures.after inferInstance fun key => ?_
  have := (hempty description meaning key).keeps
  exact Ensures.finished

/-! ## Elements -/

/-- What stands for an element of markup once its attributes are rewritten. -/
def standIn? (build : Builder) (kind : ContentKind) (slot : Nat → Work Session Html) (e : Nat)
    (d : Document) (panel : Option FieldId) (stamped : Bool) : Work Session (Option Text) := do
  match panel with
  | some panel =>
    if d.isImported e then return some (← placeWidget build panel stamped e)
  | none => pure ()
  if d.isBinderTag e "msg" then some <$> message kind slot e
  else if d.isBinderTag e "text" then some <$> textValue kind e
  else if d.isBinderTag e "safehtml" then some <$> markupValue e
  else return none

omit [∀ e, Ensures (Finished e) (build e)] [∀ n, Ensures (Gone n) (slot n)] in
theorem interpret?_markup (attached : Bool) (panel : Option FieldId) (stamped : Bool) (e : Nat) :
    interpret? build (.markup attached panel stamped) slot e = (do
      let d ← getDocument
      declareAttributeMessages e fun method => do splice e (← escaped (method ++ "()"))
      computeAttributes e
      if attached then bindField e
      standIn? build (.markup attached panel stamped) slot e d panel stamped) := by
  unfold interpret? standIn?
  rfl

/-- An element that something stands for is finished. -/
theorem standIn?_ok {kind : ContentKind} {e : Nat} {d : Document} {panel : Option FieldId}
    {stamped : Bool} {s s' : Session} {answer : Option Text}
    (h : (standIn? build kind slot e d panel stamped).runOn s = (.ok answer, s')) :
    s.Takes s' ∧ (answer.isSome = true → s'.document.Finished e) ∧
      (d.isImported e = false → d.isBinder e = false → answer = none) := by
  have hfinished : ∀ {w : Work Session Text}, Ensures (Finished e) w →
      (some <$> w).runOn s = (.ok answer, s') → s.Takes s' ∧ s'.document.Finished e :=
    fun hw hok => (Ensures.map hw).ensures hok
  have htag : ∀ {base : Text}, d.isBinderTag e base = true → d.isBinder e = true := by
    intro base hbase
    simp only [Document.isBinderTag, Bool.and_eq_true] at hbase
    exact hbase.1.2
  have hother : d.isBinder e = true → s.Takes s' ∧ s'.document.Finished e →
      s.Takes s' ∧ (answer.isSome = true → s'.document.Finished e) ∧
        (d.isImported e = false → d.isBinder e = false → answer = none) := by
    intro hbinder hdone
    refine ⟨hdone.1, fun _ => hdone.2, fun _ hnot => ?_⟩
    rw [hbinder] at hnot
    cases hnot
  have htags : (if d.isBinderTag e "msg" then some <$> message kind slot e
      else if d.isBinderTag e "text" then some <$> textValue kind e
      else if d.isBinderTag e "safehtml" then some <$> markupValue e
      else return none : Work Session (Option Text)).runOn s = (.ok answer, s') →
      s.Takes s' ∧ (answer.isSome = true → s'.document.Finished e) ∧
        (d.isImported e = false → d.isBinder e = false → answer = none) := by
    intro h
    split at h
    · rename_i hmsg
      exact hother (htag hmsg) (hfinished inferInstance h)
    · split at h
      · rename_i htext
        exact hother (htag htext) (hfinished inferInstance h)
      · split at h
        · rename_i hsafe
          exact hother (htag hsafe) (hfinished inferInstance h)
        · cases h
          exact ⟨Std.Refl.refl _, nofun, fun _ _ => rfl⟩
  unfold standIn? at h
  cases panel with
  | none => exact htags h
  | some panel =>
    dsimp only at h
    split at h
    · rename_i himported
      obtain ⟨text, s₁, hplace, hlast⟩ := Work.bind_ok h
      cases hlast
      obtain ⟨htakes, hdone⟩ := Ensures.ensures (P := Finished e) hplace
      refine ⟨htakes, fun _ => hdone, fun hnot => ?_⟩
      rw [himported] at hnot
      cases hnot
    · exact htags h

/-- Whatever stands for an element, it is finished; otherwise it may have got an attribute. -/
theorem interpret?_ok {kind : ContentKind} {e : Nat} {s s' : Session} {answer : Option Text}
    (h : (interpret? build kind slot e).runOn s = (.ok answer, s')) :
    (answer.isSome = true → s.Takes s' ∧ s'.document.Finished e) ∧ TakesBut (· = e) s s' := by
  cases kind with
  | plainText =>
    have hfinished : ∀ {w : Work Session Text}, Ensures (Finished e) w →
        (some <$> w).runOn s = (.ok answer, s') →
        (answer.isSome = true → s.Takes s' ∧ s'.document.Finished e) ∧ TakesBut (· = e) s s' := by
      intro w hw hok
      have hdone := (Ensures.map hw).ensures hok
      exact ⟨fun _ => hdone, hdone.1.but⟩
    unfold interpret? at h
    obtain ⟨_, _, hget, h⟩ := Work.bind_ok h
    cases hget
    dsimp only at h
    split at h
    · exact hfinished inferInstance h
    · split at h
      · exact hfinished inferInstance h
      · cases h
        exact ⟨nofun, Std.Refl.refl _⟩
  | markup attached panel stamped =>
    rw [interpret?_markup] at h
    obtain ⟨_, _, hget, h⟩ := Work.bind_ok h
    cases hget
    obtain ⟨_, s₁, hmessages, h⟩ := Work.bind_ok h
    obtain ⟨_, s₂, hcompute, h⟩ := Work.bind_ok h
    have hbefore : TakesBut (· = e) s s₂ := IsTrans.trans _ _ _
      ((keeps_declareAttributeMessages e).keeps hmessages) (Keeps.keeps hcompute)
    obtain ⟨s₃, hbind, hstand⟩ : ∃ s₃, TakesBut (· = e) s₂ s₃ ∧
        (standIn? build (.markup attached panel stamped) slot e s.document panel stamped).runOn s₃ =
          (.ok answer, s') := by
      dsimp only at h
      split at h
      · obtain ⟨_, s₃, hfield, h⟩ := Work.bind_ok h
        exact ⟨s₃, Keeps.keeps hfield, h⟩
      · exact ⟨s₂, Std.Refl.refl _, h⟩
    obtain ⟨htakes, hdone, -⟩ := standIn?_ok hstand
    have hbut : TakesBut (· = e) s s' :=
      IsTrans.trans _ _ _ hbefore (IsTrans.trans _ _ _ hbind htakes.but)
    refine ⟨fun hsome => ⟨?_, hdone hsome⟩, hbut⟩
    exact Document.TakesBut.close hbut fun n hn => hn ▸ hdone hsome

/-- The remaining attributes are used one after the other. -/
theorem markupAttributes_ok {e : Nat} {attributes : List (Nat × Markup.Attribute)} {s s' : Session}
    {written : List (Text × Text)}
    (h : (markupAttributes e attributes).runOn s = (.ok written, s')) :
    s'.document = (attributes.map (·.1)).foldl (fun d i => d.useAttribute e i) s.document := by
  induction attributes generalizing s written with
  | nil =>
    cases h
    rfl
  | cons a rest ih =>
    unfold markupAttributes at h
    dsimp only at h
    split at h
    · obtain ⟨_, _, hfail, _⟩ := Work.bind_ok h
      cases hfail
    · obtain ⟨_, _, huse, h⟩ := Work.bind_ok h
      cases huse
      obtain ⟨others, s₁, hrest, hlast⟩ := Work.bind_ok h
      cases hlast
      exact ih hrest

instance (e : Nat) (attributes : List (Nat × Markup.Attribute)) :
    Keeps Takes (markupAttributes e attributes) where
  keeps {s _ s'} hok := by
    unfold Takes
    rw [markupAttributes_ok hok]
    generalize attributes.map (·.1) = places
    generalize s.document = d
    induction places generalizing d with
    | nil => exact Std.Refl.refl _
    | cons i places ih => exact IsTrans.trans _ _ _ (Document.takes_useAttribute d e i) (ih _)

instance (e : Nat) : Leads SameDocument (checkName e) := by
  unfold checkName
  infer_instance

/-- No attribute is left when all that remained are used. -/
theorem ensures_markupAttributes {e : Nat} {k : List (Text × Text) → Work Session α}
    (hk : ∀ written, Keeps Takes (k written)) :
    Ensures (Bare e) (getDocument >>= fun d => markupAttributes e (d.remaining e) >>= k) where
  ensures {s a s'} hok := by
    obtain ⟨_, _, hget, hok⟩ := Work.bind_ok hok
    cases hget
    obtain ⟨written, s₁, hattributes, hrest⟩ := Work.bind_ok hok
    have hlater : s₁.Takes s' := (hk written).keeps hrest
    have hbare : s₁.document.Bare e := by
      rw [markupAttributes_ok hattributes]
      exact Document.bare_useAttributes s.document e
    exact ⟨IsTrans.trans _ _ _ (Keeps.keeps hattributes) hlater, Lasting.lasts hlater hbare⟩

instance (e : Nat) : Ensures (Finished e) (markupElement slot e) := by
  unfold markupElement
  refine Ensures.after inferInstance fun _ => ?_
  have hbare := ensures_markupAttributes (e := e) (k := fun attributes => do
    let children ← renderSlots slot e
    return Html.element ((← getDocument).name e).base attributes children) inferInstance
  exact Ensures.finished

/-- An element is read to the end, whatever stands for it. -/
instance (kind : ContentKind) (e : Nat) :
    Ensures (Finished e) (renderElement build kind slot e) where
  ensures {s html s'} hok := by
    unfold renderElement at hok
    obtain ⟨answer, s₁, hinterpret, hok⟩ := Work.bind_ok hok
    obtain ⟨hsome, hbut⟩ := interpret?_ok hinterpret
    cases answer with
    | some text =>
      cases hok
      exact hsome rfl
    | none =>
      have hplain : Ensures (Finished e) (do
          let d ← getDocument
          if kind.isText then failOn e fun d => .elementInText (d.tag e)
          if d.isBinder e then failOn e fun d => .binderInHtml (d.tag e)
          if d.isImported e then failOn e fun d => .widgetInHtml (d.tag e)
          markupElement slot e : Work Session Html) := by
        infer_instance
      obtain ⟨hlater, hfinished⟩ := hplain.ensures hok
      exact ⟨(hbut.trans hlater.but).close fun n hn => hn ▸ hfinished, hfinished⟩

omit [∀ n, Ensures (Gone n) (slot n)] in
/-- A slot is taken and, if it is an element, read to the end. -/
instance (kind : ContentKind) (fuel n : Nat) : Ensures (Gone n) (renderSlot build kind fuel n) := by
  induction fuel generalizing n with
  | zero =>
    unfold renderSlot
    infer_instance
  | succ fuel ih =>
    refine ⟨fun {s html s'} hok => ?_⟩
    unfold renderSlot at hok
    obtain ⟨_, _, huse, hok⟩ := Work.bind_ok hok
    cases huse
    obtain ⟨_, _, hget, hok⟩ := Work.bind_ok hok
    cases hget
    dsimp only at hok
    have hgone := Document.gone_useChild s.document n
    have hkind : ((s.document.useChild n).node n).isElement = (s.document.node n).isElement :=
      (Document.takesBut_useChild (p := (· = n)) fun _ => rfl).shape.isElement n
    have htext : ((s.document.useChild n).node n).isElement = false →
        s.document.Takes (s.document.useChild n) := by
      intro hnot
      refine Document.takesBut_useChild fun helement => ?_
      rw [hkind] at hnot
      rw [hnot] at helement
      cases helement
    split at hok
    · rename_i hbody
      cases hok
      exact ⟨htext (by simp [Markup.Node.isElement, hbody]), hgone⟩
    · rename_i hbody
      cases hok
      exact ⟨htext (by simp [Markup.Node.isElement, hbody]), hgone⟩
    · obtain ⟨hlater, hfinished⟩ := Ensures.ensures (P := Finished n) hok
      have huse := Document.takesBut_useChild (d := s.document) (c := n) (p := (· = n))
        fun _ => rfl
      exact ⟨(huse.trans hlater.but).close fun m hm => hm ▸ hfinished, hlater.gone hgone⟩

omit [∀ n, Ensures (Gone n) (slot n)]

instance (kind : ContentKind) (e : Nat) : Ensures (Empty e) (inner build kind e) := by
  unfold inner
  infer_instance

instance (kind : ContentKind) (e : Nat) : Keeps Takes (inner build kind e) :=
  Ensures.keeps (P := Empty e) inferInstance

instance (kind : ContentKind) (e : Nat) : Ensures (Finished e) (outer build kind e) := by
  unfold outer
  infer_instance

instance (kind : ContentKind) (e : Nat) : Keeps Takes (outer build kind e) :=
  Ensures.keeps (P := Finished e) inferInstance

instance (e : Nat) : Ensures (Empty e) (markupLiteral build e) := by
  unfold markupLiteral
  infer_instance

instance (e : Nat) : Keeps Takes (markupLiteral build e) :=
  Ensures.keeps (P := Empty e) inferInstance

end Content

end ViewBinder
