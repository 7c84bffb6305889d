-- What can happen in a session. Runs are made of calm steps of the draft, of attach sections that are
-- opened and closed again, and of what happens to fields: a field that is declared is settled before
-- the declaration is over, by an expression that makes it or by a statement of an attach section,
-- and a field that is marked as read is read by a line that is written before the run is over.
import ViewBinder.Proofs.Program.Imports
import ViewBinder.Proofs.Resource.Declare
import ViewBinder.Proofs.Text.Word
import ViewBinder.Session

namespace ViewBinder

/-! ## Statements of sections -/

namespace Sections

/-- The line is a statement of some section. -/
def Holds (s : Sections) (line : Text) : Prop :=
  ∃ part ∈ s.unfinished ++ s.finished, line ∈ part.statements

/-- A statement of some section assigns to a name. -/
def Assigns (s : Sections) (name : Text) : Prop :=
  ∃ part ∈ s.unfinished ++ s.finished, ∃ expr, name ++ " = " ++ expr ∈ part.statements

theorem assigns_iff {s : Sections} {name : Text} :
    s.Assigns name ↔ ∃ expr, s.Holds (name ++ " = " ++ expr) := by
  constructor
  · rintro ⟨part, hpart, expr, hline⟩
    exact ⟨expr, part, hpart, hline⟩
  · rintro ⟨expr, part, hpart, hline⟩
    exact ⟨part, hpart, expr, hline⟩

theorem Holds.enter {s : Sections} {line : Text} (h : s.Holds line) (expr : Text) :
    (s.enter expr).Holds line := by
  obtain ⟨part, hpart, hline⟩ := h
  exact ⟨part, List.mem_cons_of_mem _ hpart, hline⟩

theorem Holds.add {s : Sections} {line : Text} (h : s.Holds line) (statement : Text) :
    (s.add statement).Holds line := by
  unfold Sections.add
  split
  · rename_i inner outer hopen
    obtain ⟨part, hpart, hline⟩ := h
    rw [hopen, List.cons_append] at hpart
    rcases List.mem_cons.mp hpart with rfl | hrest
    · exact ⟨_, List.mem_cons_self, List.mem_append_left _ hline⟩
    · exact ⟨part, List.mem_cons_of_mem _ hrest, hline⟩
  · exact h

theorem holds_add {s : Sections} (h : s.unfinished ≠ []) (statement : Text) :
    (s.add statement).Holds statement := by
  unfold add
  split
  · exact ⟨_, List.mem_cons_self, List.mem_append_right _ List.mem_cons_self⟩
  · rename_i hnil
    exact absurd hnil h

theorem Holds.leave {s : Sections} {line : Text} (h : s.Holds line) : s.leave.Holds line := by
  unfold Sections.leave
  split
  · rename_i inner outer hopen
    obtain ⟨part, hpart, hline⟩ := h
    refine ⟨part, ?_, hline⟩
    rw [hopen, List.cons_append] at hpart
    rcases List.mem_cons.mp hpart with rfl | hrest
    · have hfull : part.statements.isEmpty = false := by
        rw [List.isEmpty_eq_false_iff]
        exact List.ne_nil_of_mem hline
      simp [hfull]
    · rcases List.mem_append.mp hrest with houter | hdone
      · exact List.mem_append_left _ houter
      · refine List.mem_append_right _ ?_
        dsimp only
        split
        · exact hdone
        · exact List.mem_append_left _ hdone
  · exact h

theorem Assigns.leave {s : Sections} {name : Text} (h : s.Assigns name) :
    s.leave.Assigns name := by
  obtain ⟨expr, hline⟩ := assigns_iff.mp h
  exact assigns_iff.mpr ⟨expr, hline.leave⟩

end Sections

namespace Session

/-! ## Fields and lines -/

/-- The field is made, or it is assigned to once its markup is attached. -/
def Settled (s : Session) (id : FieldId) : Prop :=
  (s.fields.field id).initializer.isSome ∨ s.sections.Assigns (s.fields.field id).name

/-- The line makes a field, is a statement of one, or is a statement of a section. -/
def Writes (s : Session) (line : Text) : Prop := s.fields.Writes line ∨ s.sections.Holds line

/-- A line that is written shows the name. -/
def Shown (s : Session) (name : Text) : Prop := ∃ line, s.Writes line ∧ Text.Shows name line

/-- The local of the generated messages. -/
def messagesName : Text := "uibindMessages"

/-- The expression is a constant of an enumeration as the program writes it. -/
def Constant (s : Session) (expr : Text) : Prop :=
  ∃ t, ∃ k ∈ (s.catalog.decl t).constants,
    expr = k.ident ∨ ∃ entry ∈ s.imports.names, expr = entry.2 ++ "." ++ k.ident

/-- The owner provides the field of a name that it declares. -/
def Provides (s : Session) (name : Text) (u : UiField) : Prop :=
  s.ownerTraits.bind (·.uiField? name) = some u ∧ u.provided = true

/-- The field is taken from the owner exactly if the owner provides it by the very name. -/
def Honours (s : Session) (id : FieldId) : Prop :=
  (s.fields.field id).provided = true ↔ ∃ u, s.Provides (s.fields.field id).declared u

/-- The local of the resource bundle. -/
def bundleName : Text := "uibindBundle"

/-- The owner is not asked for the field: it is a style or made for the program itself, it is found
in markup, or it is made from a resource or a constant. -/
def Unasked (s : Session) (id : FieldId) : Prop :=
  (s.fields.field id).precedence ∈ [.stamper, .domId, .style, .bundle] ∨
    s.sections.Assigns (s.fields.field id).name ∨
    ∃ expr, (s.fields.field id).initializer = some expr ∧
      (s.Constant expr ∨ ∃ method, expr = bundleName ++ "." ++ method ++ "()")

end Session

/-- The expression ends like a call or an object. -/
def Text.IsClosed (expr : Text) : Prop := ∃ front, expr = front ++ ")" ∨ expr = front ++ "\x7d"

namespace Session

/-! ## Runs -/

/-- What can happen in a session. -/
inductive Run : Session → Session → Prop
  | refl (s : Session) : Run s s
  | trans {s s' s'' : Session} : Run s s' → Run s' s'' → Run s s''
  | draft {s : Session} {d : Draft} : Draft.Calm s.toDraft d → Run s { s with toDraft := d }
  | resource {s : Session} {d : Draft} :
      Draft.Declares s.toDraft d → Run s { s with toDraft := d }
  | aside {s : Session} (ids : Nat) (splices : List (Text × Text)) :
      Run s { s with ids, splices }
  | attached {s s' : Session} (expr : Text) :
      Run { s with sections := s.sections.enter expr } s' →
      Run s { s' with sections := s'.sections.leave }
  | addAttached {s : Session} (statement : Text) :
      Run s { s with sections := s.sections.add statement }
  | addDetached {s : Session} (statement : Text) :
      Run s { s with sections := s.sections.addDetached statement }
  | declare {s s' : Session} {precedence : Precedence} {type : Option TypeId} {name : Text}
      {id : FieldId} {fields : FieldTable} :
      s.fields.register s.catalog precedence type name = .ok (id, fields) →
      Run { s with fields } s' → s'.Settled id → s'.Honours id ∨ s'.Unasked id → Run s s'
  | make {s : Session} {id : FieldId} {expr : Text} :
      (s.fields.field id).initializer = none → expr.IsClosed ∨ s.Constant expr →
      Run s { s with fields := s.fields.change id ({ · with initializer := some expr }) }
  | provide {s : Session} {id : FieldId} {u : UiField} :
      s.Provides (s.fields.field id).declared u → (s.fields.field id).initializer = none →
      Run s { s with
        fields := (s.fields.change id ({ · with provided := true })).change id
          ({ · with initializer := some ("owner." ++ u.name) }) }
  | call {s : Session} (id : FieldId) (rest : Text) :
      Run s { s with fields :=
        s.fields.change id (·.withStatement ((s.fields.field id).name ++ "." ++ rest)) }
  | use {s s' : Session} {id : FieldId} :
      Run { s with fields := s.fields.change id ({ · with used := true }) } s' →
      s'.Shown (s.fields.field id).name ∨ (s.fields.field id).name = messagesName → Run s s'

/-- No section is left open and none is closed that was open before. -/
theorem Run.depth {s s' : Session} (h : Run s s') :
    s'.sections.unfinished.length = s.sections.unfinished.length := by
  induction h with
  | trans _ _ ih ih' => exact ih'.trans ih
  | @attached s s' expr _ ih =>
    simp only [Sections.enter, List.length_cons] at ih
    simp only [Sections.leave]
    split
    · rename_i inner outer hopen
      rw [hopen, List.length_cons] at ih
      exact Nat.succ.inj ih
    · rename_i hopen
      rw [hopen] at ih
      cases ih
  | @addAttached s statement =>
    simp only [Sections.add]
    split
    · rename_i inner outer hopen
      simp [hopen]
    · rfl
  | declare _ _ _ _ ih => exact ih
  | use _ _ ih => exact ih
  | _ => rfl

/-- One thing that happens in a session. -/
inductive Step (s : Session) : Session → Prop
  | draft {d : Draft} : Draft.Step s.toDraft d → Step s { s with toDraft := d }
  | declare {precedence : Precedence} {type : Option TypeId} {name : Text} {id : FieldId}
      {fields : FieldTable} :
      s.fields.register s.catalog precedence type name = .ok (id, fields) → Step s { s with fields }
  | sections (sections : Sections) : Step s { s with sections }
  | aside (ids : Nat) (splices : List (Text × Text)) (trailing : List Text) :
      Step s { s with ids, splices, trailing }

/-- A session comes after another one. It may be in the midst of a run: sections may be open, and
fields declared that nothing has settled yet. -/
def Reaches : Session → Session → Prop := Relation.ReflTransGen Step

theorem Reaches.refl (s : Session) : Reaches s s := Relation.ReflTransGen.refl

theorem Reaches.trans {s s' s'' : Session} (h : Reaches s s') (h' : Reaches s' s'') :
    Reaches s s'' := Relation.ReflTransGen.trans h h'

theorem Step.reaches {s s' : Session} (h : Step s s') : Reaches s s' :=
  Relation.ReflTransGen.single h

theorem reaches_draft {s : Session} {d : Draft} (h : Draft.Run s.toDraft d) :
    Reaches s { s with toDraft := d } := by
  induction h with
  | refl => exact Reaches.refl s
  | tail _ hstep ih => exact ih.trans (Step.draft hstep).reaches

theorem reaches_change {s : Session} {id : FieldId} {g : Field → Field}
    (h : Field.Change (s.fields.field id) (g (s.fields.field id))) :
    Reaches s { s with fields := s.fields.change id g } :=
  (Step.draft (Draft.Step.change id g h)).reaches

theorem Run.reaches {s s' : Session} (h : Run s s') : Reaches s s' := by
  induction h with
  | refl s => exact Reaches.refl s
  | trans _ _ ih ih' => exact ih.trans ih'
  | draft hcalm => exact (Step.draft hcalm.step).reaches
  | resource hdeclares => exact reaches_draft hdeclares.run
  | aside ids splices => exact (Step.aside ids splices _).reaches
  | attached expr _ ih =>
    exact (Step.sections _).reaches.trans (ih.trans (Step.sections _).reaches)
  | addAttached _ => exact (Step.sections _).reaches
  | addDetached _ => exact (Step.sections _).reaches
  | declare hregister _ _ _ ih => exact (Step.declare hregister).reaches.trans ih
  | make hnone _ => exact reaches_change (.make _ hnone)
  | @provide s id u _ hnone =>
    have hfirst : Reaches s
        { s with fields := s.fields.change id ({ · with provided := true }) } :=
      reaches_change .provide
    refine hfirst.trans (reaches_change (.make _ ?_))
    rw [← hnone]
    exact s.fields.field_change_apply id id _ (·.initializer) fun _ => rfl
  | call id rest => exact reaches_change (.statement rest)
  | use _ _ ih => exact (reaches_change .use).trans ih

/-! ## What every run keeps -/

theorem Reaches.fields {s s' : Session} (h : Reaches s s') :
    FieldTable.Run s.fields s'.fields := by
  induction h with
  | refl => exact FieldTable.Run.refl _
  | tail _ hstep ih =>
    refine ih.trans ?_
    cases hstep with
    | draft hstep => exact hstep.fields
    | declare hregister => exact FieldTable.run_register hregister
    | sections _ => exact FieldTable.Run.refl _
    | aside _ _ _ => exact FieldTable.Run.refl _

theorem Run.fields {s s' : Session} (h : Run s s') : FieldTable.Run s.fields s'.fields :=
  h.reaches.fields

theorem Reaches.catalog {s s' : Session} (h : Reaches s s') : s.catalog.Extends s'.catalog := by
  induction h with
  | refl => exact Std.Refl.refl _
  | tail _ hstep ih =>
    refine IsTrans.trans _ _ _ ih ?_
    cases hstep with
    | draft hstep => exact hstep.catalog
    | _ => exact Std.Refl.refl _

/-- What holds of imports, whatever is added, holds of sessions that come after. -/
theorem Reaches.imports {P : Imports → Prop}
    (hadd : ∀ im path preferred, P im → P (im.add path preferred).2) {s s' : Session}
    (hreaches : Reaches s s') (h : P s.imports) : P s'.imports := by
  induction hreaches with
  | refl => exact h
  | tail _ hstep ih =>
    cases hstep with
    | draft hstep =>
      rcases hstep.imports with hsame | ⟨path, preferred, hnew⟩
      · exact hsame ▸ ih
      · exact hnew ▸ hadd _ path preferred ih
    | _ => exact ih

/-- Imports stay, in their order. -/
theorem Reaches.prefix {s s' : Session} (h : Reaches s s') :
    s.imports.names <+: s'.imports.names :=
  h.imports (P := fun im => s.imports.names <+: im.names)
    (fun im path preferred h => h.trans (im.prefix_add path preferred)) (List.prefix_refl _)

/-- The owner of a session stays what it was. -/
theorem Reaches.owner {s s' : Session} (h : Reaches s s') :
    s'.owner = s.owner ∧ s'.ownerTraits = s.ownerTraits := by
  induction h with
  | refl => exact ⟨rfl, rfl⟩
  | tail _ hstep ih => cases hstep <;> exact ih

/-- Statements of sections stay there. -/
theorem Run.holds {s s' : Session} (h : Run s s') {line : Text} (hline : s.sections.Holds line) :
    s'.sections.Holds line := by
  induction h with
  | trans _ _ ih ih' => exact ih' (ih hline)
  | attached expr _ ih => exact (ih (hline.enter expr)).leave
  | addAttached statement => exact hline.add statement
  | declare _ _ _ _ ih => exact ih hline
  | use _ _ ih => exact ih hline
  | _ => exact hline

theorem Run.assigns {s s' : Session} (h : Run s s') {name : Text}
    (hname : s.sections.Assigns name) : s'.sections.Assigns name := by
  obtain ⟨expr, hline⟩ := Sections.assigns_iff.mp hname
  exact Sections.assigns_iff.mpr ⟨expr, h.holds hline⟩

theorem Run.writes {s s' : Session} (h : Run s s') {line : Text} (hline : s.Writes line) :
    s'.Writes line := hline.imp h.fields.writes h.holds

/-- What a line shows stays shown. -/
theorem Run.shown {s s' : Session} (h : Run s s') {name : Text} (hname : s.Shown name) :
    s'.Shown name := by
  obtain ⟨line, hline, hshows⟩ := hname
  exact ⟨line, h.writes hline, hshows⟩

theorem Shown.leave {s : Session} {name : Text} (h : s.Shown name) :
    ({ s with sections := s.sections.leave } : Session).Shown name := by
  obtain ⟨line, hline, hshows⟩ := h
  exact ⟨line, hline.imp id Sections.Holds.leave, hshows⟩

theorem Run.settled {s s' : Session} (h : Run s s') {id : FieldId}
    (hid : id < s.fields.fields.size) (hs : s.Settled id) : s'.Settled id := by
  have hfield := h.fields.extends.field id hid
  rcases hs with hmade | hassigned
  · obtain ⟨expr, hexpr⟩ := Option.isSome_iff_exists.mp hmade
    exact Or.inl (by rw [hfield.made expr hexpr]; rfl)
  · exact Or.inr (by rw [hfield.name]; exact h.assigns hassigned)

/-- Constants stay constants while the catalog and the imports grow. -/
theorem Constant.later {s s' : Session} {expr : Text} (h : s.Constant expr)
    (hcatalog : s.catalog.Extends s'.catalog) (himports : s.imports.names <+: s'.imports.names) :
    s'.Constant expr := by
  obtain ⟨t, k, hk, hspelled⟩ := h
  refine ⟨t, k, hcatalog.mem_constants hk, hspelled.imp_right fun ⟨entry, hentry, hexpr⟩ => ?_⟩
  exact ⟨entry, himports.subset hentry, hexpr⟩

theorem Run.constant {s s' : Session} (h : Run s s') {expr : Text} (hexpr : s.Constant expr) :
    s'.Constant expr := hexpr.later h.reaches.catalog h.reaches.prefix

/-! ## Fields and the owner -/

theorem Run.provides {s s' : Session} (h : Run s s') {name : Text} {u : UiField} :
    s'.Provides name u ↔ s.Provides name u := by
  unfold Provides
  rw [h.reaches.owner.2]

/-- A field that is taken from the owner was taken before, or the owner provides it. -/
theorem Run.provided {s s' : Session} (h : Run s s') {id : FieldId}
    (hid : id < s.fields.fields.size) (hprovided : (s'.fields.field id).provided = true) :
    (s.fields.field id).provided = true ∨ ∃ u, s.Provides (s.fields.field id).declared u := by
  induction h with
  | refl s => exact Or.inl hprovided
  | @trans s s' s'' h h' ih ih' =>
    have hfield := h.fields.extends.field id hid
    rcases ih' (Nat.lt_of_lt_of_le hid h.fields.extends.size) hprovided with hold | ⟨u, hu⟩
    · exact ih hid hold
    · rw [hfield.declared, h.provides] at hu
      exact Or.inr ⟨u, hu⟩
  | draft hcalm =>
    obtain ⟨needs, hfield⟩ := hcalm.idle id
    rw [hfield] at hprovided
    exact Or.inl hprovided
  | resource hdeclares =>
    rw [hdeclares.fields] at hprovided
    exact Or.inl hprovided
  | aside _ _ => exact Or.inl hprovided
  | attached _ _ ih => exact ih hid hprovided
  | addAttached _ => exact Or.inl hprovided
  | addDetached _ => exact Or.inl hprovided
  | @declare s s' _ _ _ _ fields hregister _ _ _ ih =>
    obtain ⟨hsame, -⟩ := FieldTable.field_register hregister
    obtain ⟨needs, hfield⟩ := hsame id hid
    have hgrown := (FieldTable.size_register hregister).2
    have hprior := ih (show id < fields.fields.size from hgrown ▸ Nat.lt_succ_of_lt hid) hprovided
    rw [show ({ s with fields } : Session).fields.field id = _ from hfield] at hprior
    exact hprior
  | @make s other expr _ _ =>
    have hsame := s.fields.field_change_apply other id
      ({ · with initializer := some expr }) (·.provided) fun _ => rfl
    exact Or.inl (hsame.symm.trans hprovided)
  | @provide s other u hu _ =>
    by_cases hsame : other = id
    · exact Or.inr ⟨u, hsame ▸ hu⟩
    · rw [FieldTable.field_change_ne hsame, FieldTable.field_change_ne hsame] at hprovided
      exact Or.inl hprovided
  | @call s other rest =>
    have hsame := s.fields.field_change_apply other id
      (·.withStatement ((s.fields.field other).name ++ "." ++ rest)) (·.provided) fun _ => rfl
    exact Or.inl (hsame.symm.trans hprovided)
  | @use s s' other _ _ ih =>
    have hprior := ih (by simpa using hid) hprovided
    have hsame : ∀ {α : Type} (p : Field → α), (∀ f used, p { f with used } = p f) →
        p ((s.fields.change other ({ · with used := true })).field id) = p (s.fields.field id) :=
      fun p hp => (s.fields.marks_change other).apply id p hp
    rw [hsame (·.provided) fun _ _ => rfl, hsame (·.declared) fun _ _ => rfl] at hprior
    exact hprior

theorem Run.honours {s s' : Session} (h : Run s s') {id : FieldId}
    (hid : id < s.fields.fields.size) (hs : s.Honours id) : s'.Honours id := by
  have hfield := h.fields.extends.field id hid
  have howner : (∃ u, s'.Provides (s'.fields.field id).declared u) ↔
      ∃ u, s.Provides (s.fields.field id).declared u := by
    rw [hfield.declared]
    simp only [h.provides]
  unfold Honours
  rw [howner]
  refine ⟨fun hprovided => ?_, fun hu => hfield.provided (hs.mpr hu)⟩
  exact (h.provided hid hprovided).elim hs.mp fun hu => hu

theorem Run.unasked {s s' : Session} (h : Run s s') {id : FieldId}
    (hid : id < s.fields.fields.size) (hs : s.Unasked id) : s'.Unasked id := by
  have hfield := h.fields.extends.field id hid
  unfold Unasked
  rw [hfield.precedence, hfield.name]
  refine hs.imp_right (Or.imp h.assigns ?_)
  rintro ⟨expr, hmade, hexpr⟩
  exact ⟨expr, hfield.made expr hmade, hexpr.imp_left h.constant⟩

/-! ## Declared fields -/

/-- What holds of fields whose declaration is over, and from then on, holds of every field that is
declared in a run. -/
theorem Run.declared {Q : Session → FieldId → Prop}
    (hlasts : ∀ {s s' id}, Run s s' → id < s.fields.fields.size → Q s id → Q s' id)
    (hleave : ∀ {s id}, Q s id → Q { s with sections := s.sections.leave } id)
    (hdeclared : ∀ {s id}, s.Settled id → s.Honours id ∨ s.Unasked id → Q s id)
    {s s' : Session} (h : Run s s') {id : FieldId}
    (hnew : s.fields.fields.size ≤ id) (hid : id < s'.fields.fields.size) : Q s' id := by
  induction h with
  | refl s => exact absurd hid (Nat.not_lt.mpr hnew)
  | @trans s s' s'' h h' ih ih' =>
    by_cases hold : id < s'.fields.fields.size
    · exact hlasts h' hold (ih hnew hold)
    · exact ih' (Nat.not_lt.mp hold) hid
  | draft hcalm =>
    rw [hcalm.step.size] at hid
    exact absurd hid (Nat.not_lt.mpr hnew)
  | resource hdeclares =>
    rw [hdeclares.fields] at hid
    exact absurd hid (Nat.not_lt.mpr hnew)
  | aside _ _ => exact absurd hid (Nat.not_lt.mpr hnew)
  | attached _ _ ih => exact hleave (ih hnew hid)
  | addAttached _ => exact absurd hid (Nat.not_lt.mpr hnew)
  | addDetached _ => exact absurd hid (Nat.not_lt.mpr hnew)
  | declare hregister _ hsettled hasked ih =>
    rcases Nat.eq_or_lt_of_le hnew with rfl | hlt
    · rw [(FieldTable.size_register hregister).1] at hsettled hasked
      exact hdeclared hsettled hasked
    · exact ih (by rw [(FieldTable.size_register hregister).2]; exact hlt) hid
  | make _ _ =>
    simp only [FieldTable.size_change] at hid
    exact absurd hid (Nat.not_lt.mpr hnew)
  | provide _ _ =>
    simp only [FieldTable.size_change] at hid
    exact absurd hid (Nat.not_lt.mpr hnew)
  | call _ _ =>
    simp only [FieldTable.size_change] at hid
    exact absurd hid (Nat.not_lt.mpr hnew)
  | use _ _ ih => exact ih (by simpa using hnew) hid

/-- Every field that is declared in a run is settled when the run is over. -/
theorem Run.declared_settled {s s' : Session} (h : Run s s') {id : FieldId}
    (hnew : s.fields.fields.size ≤ id) (hid : id < s'.fields.fields.size) : s'.Settled id :=
  h.declared (Q := Settled) (fun h hid hs => h.settled hid hs)
    (Or.imp_right Sections.Assigns.leave) (fun hs _ => hs) hnew hid

/-- Every field that is declared in a run honours the owner, or the owner is not asked for it. -/
theorem Run.declared_honours {s s' : Session} (h : Run s s') {id : FieldId}
    (hnew : s.fields.fields.size ≤ id) (hid : id < s'.fields.fields.size) :
    s'.Honours id ∨ s'.Unasked id := by
  refine h.declared (Q := fun s id => s.Honours id ∨ s.Unasked id) (fun h hid hs => ?_)
    (fun hs => ?_) (fun _ hs => hs) hnew hid
  · exact hs.imp (h.honours hid) (h.unasked hid)
  · exact hs.imp_right (Or.imp_right (Or.imp_left Sections.Assigns.leave))

/-! ## Fields that are read -/

/-- A field that is marked as read was marked before, or a line shows its name. The local of the
messages counts as read with the first message. -/
theorem Run.used {s s' : Session} (h : Run s s') {id : FieldId}
    (hid : id < s'.fields.fields.size) (hused : (s'.fields.field id).used = true) :
    id < s.fields.fields.size ∧ (s.fields.field id).used = true ∨
      s'.Shown (s'.fields.field id).name ∨ (s'.fields.field id).name = messagesName := by
  induction h with
  | refl s => exact Or.inl ⟨hid, hused⟩
  | @trans s s' s'' h h' ih ih' =>
    rcases ih' hid hused with ⟨hid', hused'⟩ | hread
    · have hname := (h'.fields.extends.field id hid').name
      rcases ih hid' hused' with hold | hshown | hmessages
      · exact Or.inl hold
      · exact Or.inr (Or.inl (hname ▸ h'.shown hshown))
      · exact Or.inr (Or.inr (hname.trans hmessages))
    · exact Or.inr hread
  | draft hcalm =>
    obtain ⟨needs, hfield⟩ := hcalm.idle id
    rw [hcalm.step.size] at hid
    rw [hfield] at hused
    exact Or.inl ⟨hid, hused⟩
  | resource hdeclares =>
    rw [hdeclares.fields] at hid hused
    exact Or.inl ⟨hid, hused⟩
  | aside _ _ => exact Or.inl ⟨hid, hused⟩
  | attached _ _ ih =>
    rcases ih hid hused with hold | hshown | hmessages
    · exact Or.inl hold
    · exact Or.inr (Or.inl hshown.leave)
    · exact Or.inr (Or.inr hmessages)
  | addAttached _ => exact Or.inl ⟨hid, hused⟩
  | addDetached _ => exact Or.inl ⟨hid, hused⟩
  | declare hregister _ _ _ ih =>
    rcases ih hid hused with ⟨hid', hold⟩ | hread
    · exact Or.inl (FieldTable.used_register hregister hid' hold)
    · exact Or.inr hread
  | @make s other expr _ _ =>
    rw [FieldTable.size_change] at hid
    have hsame := s.fields.field_change_apply other id
      ({ · with initializer := some expr }) (·.used) fun _ => rfl
    exact Or.inl ⟨hid, hsame.symm.trans hused⟩
  | @provide s other u _ _ =>
    rw [FieldTable.size_change, FieldTable.size_change] at hid
    have hfirst := s.fields.field_change_apply other id ({ · with provided := true }) (·.used)
      fun _ => rfl
    have hsecond := (s.fields.change other ({ · with provided := true })).field_change_apply other id
      ({ · with initializer := some ("owner." ++ u.name) }) (·.used) fun _ => rfl
    exact Or.inl ⟨hid, hfirst.symm.trans (hsecond.symm.trans hused)⟩
  | @call s other rest =>
    rw [FieldTable.size_change] at hid
    by_cases hsame : other = id
    · subst hsame
      refine Or.inr (Or.inl ⟨(s.fields.field other).name ++ "." ++ rest, Or.inl ?_, ?_⟩)
      · refine ⟨other, by simpa using hid, Or.inr ?_⟩
        rw [FieldTable.field_change_self hid]
        exact List.mem_append_right _ List.mem_cons_self
      · rw [FieldTable.field_change_self hid]
        exact Text.shows_receiver _ _
    · rw [FieldTable.field_change_ne hsame] at hused
      exact Or.inl ⟨hid, hused⟩
  | @use s s' other hrun hread ih =>
    rcases ih hid hused with ⟨hid', hold⟩ | hlater
    · rw [FieldTable.size_change] at hid'
      by_cases hsame : other = id
      · subst hsame
        have hname : (s'.fields.field other).name = (s.fields.field other).name := by
          rw [(hrun.fields.extends.field other (by simpa using hid')).name]
          exact s.fields.field_change_apply other other _ (·.name) fun _ => rfl
        rw [hname]
        exact Or.inr hread
      · rw [FieldTable.field_change_ne hsame] at hold
        exact Or.inl ⟨hid', hold⟩
    · exact Or.inr hlater

end Session

end ViewBinder
