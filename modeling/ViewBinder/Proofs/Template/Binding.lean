-- Binding the owner. All that happens then is that fields are marked as read and that statements come
-- at the end of the program, each of them showing the field that it was written for: one for every
-- field of the owner that the template has to fill, and one for every field that a handler names.
import ViewBinder.Proofs.Template.Runs

namespace ViewBinder

open Work (Keeps Leads)

namespace Session

/-- Statements were added at the end, and the fields they show were marked as read. -/
structure Binds (s s' : Session) : Prop where
  reaches : Reaches s s'
  sections : s'.sections = s.sections
  catalog : s'.catalog = s.catalog
  bundle : s'.bundle = s.bundle
  messages : s'.messages = s.messages
  marks : s.fields.Marks s'.fields
  trailing : s.trailing <+: s'.trailing
  shown : ∀ id, (s'.fields.field id).used = true → (s.fields.field id).used = true ∨
    ∃ line ∈ s'.trailing, Text.Shows (s.fields.field id).name line
  reports : s.log.hasErrors = true → s'.log.hasErrors = true

theorem Binds.refl (s : Session) : Binds s s where
  reaches := Reaches.refl s
  sections := rfl
  catalog := rfl
  bundle := rfl
  messages := rfl
  marks := FieldTable.Marks.refl _
  trailing := List.prefix_refl _
  shown _ h := Or.inl h
  reports h := h

theorem Binds.trans {s s' s'' : Session} (h : Binds s s') (h' : Binds s' s'') : Binds s s'' where
  reaches := h.reaches.trans h'.reaches
  sections := h'.sections.trans h.sections
  catalog := h'.catalog.trans h.catalog
  bundle := h'.bundle.trans h.bundle
  messages := h'.messages.trans h.messages
  marks := h.marks.trans h'.marks
  trailing := h.trailing.trans h'.trailing
  shown id hused := by
    rcases h'.shown id hused with hused' | ⟨line, hline, hshows⟩
    · refine (h.shown id hused').imp_right fun ⟨line, hline, hshows⟩ => ?_
      exact ⟨line, h'.trailing.subset hline, hshows⟩
    · exact Or.inr ⟨line, hline, h.marks.name id ▸ hshows⟩
  reports hreported := h'.reports (h.reports hreported)

instance : Std.Refl Binds := ⟨Binds.refl⟩

instance : IsTrans Session Binds := ⟨fun _ _ _ => Binds.trans⟩

instance (place : Option Location) (p : Problem) :
    Leads Binds (liftM (Draft.report place p) : Work Session Unit) where
  leads s := { Binds.refl s with
    reaches := (Step.draft (Draft.Step.log _)).reaches
    reports := fun _ => Draft.hasErrors_problem _ _ _ }

instance (t : TypeId) (name : Text) :
    Leads Binds (liftM (Draft.qualify t name) : Work Session Text) where
  leads s := { Binds.refl s with reaches := (Step.draft (Draft.Step.import _ _)).reaches }

/-- A statement at the end that shows the field it reads. -/
theorem binds_statement {f : FieldId} {statement : Text → Text}
    (hshows : ∀ name, Text.Shows name (statement name)) {s s' : Session} {a : Unit}
    (h : (do
      let name ← Draft.use f
      Binding.addTrailing (statement name) : Work Session Unit).runOn s = (.ok a, s')) :
    Binds s s' ∧ s'.trailing = s.trailing ++ [statement (s.fields.field f).name] := by
  obtain ⟨name, s₁, huse, hadd⟩ := Work.bind_ok h
  obtain ⟨rfl, rfl⟩ := use_ok huse
  cases hadd
  refine ⟨?_, rfl⟩
  exact { Binds.refl s with
    reaches := (reaches_change .use).trans (Step.aside _ _ _).reaches
    marks := FieldTable.marks_change _ _
    trailing := List.prefix_append _ _
    shown := fun id hused => by
      rcases FieldTable.used_mark hused with hold | rfl
      · exact Or.inl hold
      · exact Or.inr ⟨_, List.mem_append_right _ List.mem_cons_self, hshows _⟩ }

end Session

namespace Binding

open Session

/-! ## Fields of the owner -/

/-- The statement that fills a field of the owner. -/
def fillLine (owned name : Text) : Text := "owner." ++ owned ++ " = " ++ name

/-- The statement for a field of the owner, if the template has to fill it. -/
def filling? (t : FieldTable) (u : UiField) : Option Text :=
  (t.find? u.name).bind fun id =>
    if (t.field id).provided then none else some (fillLine u.name (t.field id).name)

/-- The template has the field, and what it holds could be used where the owner's is expected. -/
def Fits (c : Catalog) (t : FieldTable) (u : UiField) : Prop :=
  ∃ id, t.find? u.name = some id ∧
    (u.type.isSome = true → c.isAssignable (t.field id).type u.type = true)

theorem Fits.isSome {c : Catalog} {t : FieldTable} {u : UiField} (h : Fits c t u) :
    (t.find? u.name).isSome = true := by
  obtain ⟨id, hfind, -⟩ := h
  rw [hfind]
  rfl

theorem fits_marks {c : Catalog} {t t' : FieldTable} (h : t.Marks t') (u : UiField) :
    Fits c t' u ↔ Fits c t u := by
  have htype : ∀ id, (t'.field id).type = (t.field id).type := fun id =>
    h.apply id (·.type) fun _ _ => rfl
  unfold Fits
  rw [h.find?]
  simp only [htype]

theorem shows_fillLine (owned name : Text) : Text.Shows name (fillLine owned name) :=
  (Text.shows_self name).assigned ("owner." ++ owned)

theorem filling?_marks {t t' : FieldTable} (h : t.Marks t') (u : UiField) :
    filling? t' u = filling? t u := by
  have hprovided : ∀ id, (t'.field id).provided = (t.field id).provided := fun id =>
    h.apply id (·.provided) fun _ _ => rfl
  unfold filling?
  rw [h.find?]
  simp only [h.name, hprovided]

/-- The template has a field that fits, and what is written for it is the statement that fills the
owner's. -/
theorem bindField_ok {ui : Nat} {ownerName : Text} {u : UiField} {s s' : Session} {a : Unit}
    (h : (bindField ui ownerName u).runOn s = (.ok a, s')) :
    Binds s s' ∧ (s'.log.hasErrors = true ∨ Fits s.catalog s.fields u ∧
      s'.trailing = s.trailing ++ (filling? s.fields u).toList) := by
  have hreport : ∀ {place : Option Location} {p : Problem} {s s' : Session} {a : Unit},
      (liftM (Draft.report place p) : Work Session Unit).runOn s = (.ok a, s') →
        Binds s s' ∧ s'.log.hasErrors = true := by
    intro place p s s' a h
    refine ⟨Keeps.keeps h, ?_⟩
    cases h
    exact Draft.hasErrors_problem _ _ _
  unfold bindField at h
  obtain ⟨_, _, hget, h⟩ := Work.bind_ok h
  cases hget
  split at h
  · exact (hreport h).imp_right Or.inl
  · rename_i id hfound
    dsimp only at h
    split at h
    · obtain ⟨place, _, hplace, h⟩ := Work.bind_ok h
      cases hplace
      exact (hreport h).imp_right Or.inl
    · rename_i htyped
      have hfits : Fits s.catalog s.fields u := by
        refine ⟨id, hfound, fun hdeclared => ?_⟩
        simpa [hdeclared] using htyped
      split at h
      · rename_i hprovided
        obtain ⟨hbinds, hline⟩ := binds_statement (shows_fillLine u.name) h
        refine ⟨hbinds, Or.inr ⟨hfits, ?_⟩⟩
        rw [hline, filling?, hfound, Option.bind_some, if_neg (by simpa using hprovided)]
        rfl
      · rename_i hprovided
        cases h
        refine ⟨Binds.refl s, Or.inr ⟨hfits, ?_⟩⟩
        rw [filling?, hfound, Option.bind_some, if_pos (by simpa using hprovided)]
        exact (List.append_nil _).symm

theorem bindFields_ok {ui : Nat} {ownerName : Text} {us : List UiField} {s s' : Session} {a : PUnit}
    (h : (us.forM (bindField ui ownerName)).runOn s = (.ok a, s')) :
    Binds s s' ∧ (s'.log.hasErrors = true ∨
      (∀ u ∈ us, Fits s.catalog s.fields u) ∧
        s'.trailing = s.trailing ++ us.filterMap (filling? s.fields)) := by
  induction us generalizing s with
  | nil =>
    cases h
    exact ⟨Binds.refl _, Or.inr ⟨nofun, (List.append_nil _).symm⟩⟩
  | cons u us ih =>
    obtain ⟨_, s₁, hfirst, hrest⟩ := Work.bind_ok h
    obtain ⟨hbinds, hfilled⟩ := bindField_ok hfirst
    obtain ⟨hbinds', hrest⟩ := ih hrest
    refine ⟨hbinds.trans hbinds', ?_⟩
    rcases hfilled with hreported | ⟨hfound, hline⟩
    · exact Or.inl (hbinds'.reports hreported)
    · refine hrest.imp_right fun ⟨hothers, hlines⟩ => ⟨?_, ?_⟩
      · refine List.forall_mem_cons.mpr ⟨hfound, fun v hv => ?_⟩
        rw [← fits_marks hbinds.marks, ← hbinds.catalog]
        exact hothers v hv
      · rw [hlines, hline, List.append_assoc, List.filterMap_cons]
        simp only [filling?_marks hbinds.marks]
        cases filling? s.fields u <;> rfl

/-! ## Handlers -/

/-- All that is added at the end are calls of methods of fields. -/
def Registers (s s' : Session) : Prop :=
  Binds s s' ∧ ∃ lines, s'.trailing = s.trailing ++ lines ∧
    ∀ line ∈ lines, ∃ id, (s.fields.field id).Calls line

instance : Std.Refl Registers := ⟨fun s => ⟨Binds.refl s, [], (List.append_nil _).symm, nofun⟩⟩

instance : IsTrans Session Registers where
  trans s s' s'' h h' := by
    obtain ⟨hbinds, lines, hlines, hcalls⟩ := h
    obtain ⟨hbinds', lines', hlines', hcalls'⟩ := h'
    refine ⟨hbinds.trans hbinds', lines ++ lines', ?_, fun line hline => ?_⟩
    · rw [hlines', hlines, List.append_assoc]
    · rcases List.mem_append.mp hline with hold | hnew
      · exact hcalls line hold
      · obtain ⟨id, rest, hcall⟩ := hcalls' line hnew
        exact ⟨id, rest, by rw [hcall, hbinds.marks.name]⟩

instance (place : Option Location) (p : Problem) :
    Leads Registers (liftM (Draft.report place p) : Work Session Unit) where
  leads s := ⟨Leads.leads (R := Binds) s, [], (List.append_nil _).symm, nofun⟩

instance (t : TypeId) (name : Text) :
    Leads Registers (liftM (Draft.qualify t name) : Work Session Text) where
  leads s := ⟨Leads.leads (R := Binds) s, [], (List.append_nil _).symm, nofun⟩

instance (f : FieldId) (ui : Nat) : Leads Registers (placeOf f ui) := by
  unfold placeOf
  infer_instance

instance (ui : Nat) (h : Handler) (method : Method) (name : Text) :
    Keeps Registers (bindHandlerTo ui h method name) := by
  have hcall : ∀ (f : FieldId) (add adapter : Text), Keeps Registers (do
      let name ← Draft.use f
      addTrailing
        (name ++ "." ++ add ++ "(" ++ adapter ++ "(owner." ++ method.name ++ "))") :
      Work Session Unit) := by
    intro f add adapter
    have hrest : ∀ name : Text, name ++ "." ++ add ++ "(" ++ adapter ++ "(owner." ++
        method.name ++ "))" = name ++ "." ++ (add ++ "(" ++ adapter ++ "(owner." ++
          method.name ++ "))") := by
      intro name
      simp only [List.append_assoc]
    simp only [hrest]
    refine ⟨fun {s a s'} hok => ?_⟩
    obtain ⟨hbinds, hline⟩ := binds_statement (fun name => Text.shows_receiver name _) hok
    exact ⟨hbinds, _, hline, List.forall_mem_singleton.mpr ⟨f, _, rfl⟩⟩
  unfold bindHandlerTo
  refine Keeps.bind' inferInstance fun s => ?_
  split
  · infer_instance
  · dsimp only
    split
    · exact Keeps.bind' inferInstance fun adapter => hcall _ _ adapter
    · infer_instance
    · infer_instance

instance (ui : Nat) (owner : TypeId) (h : Handler) :
    Keeps Registers (bindHandler ui owner h) := by
  unfold bindHandler
  refine Keeps.bind' inferInstance fun s => ?_
  repeat' (first | infer_instance | split)

/-! ## The owner -/

/-- What is written for an owner: what fills its fields, and calls of methods of fields. -/
theorem bindOwner_ok {ui : Nat} {s s' : Session} {a : Unit}
    (h : (bindOwner ui).runOn s = (.ok a, s')) :
    Binds s s' ∧ (s'.log.hasErrors = true ∨ ∀ traits, s.owner.isSome = true →
      s.ownerTraits = some traits →
        (∀ u ∈ traits.uiFields, Fits s.catalog s.fields u) ∧
          ∃ calls, s'.trailing =
              s.trailing ++ (traits.uiFields.filterMap (filling? s.fields) ++ calls) ∧
            ∀ line ∈ calls, ∃ id, (s.fields.field id).Calls line) := by
  unfold bindOwner at h
  obtain ⟨_, _, hget, h⟩ := Work.bind_ok h
  cases hget
  split at h
  · rename_i owner traits howner htraits
    obtain ⟨_, s₁, hfields, hhandlers⟩ := Work.bind_ok h
    obtain ⟨hbinds, hfilled⟩ := bindFields_ok hfields
    obtain ⟨hbinds', calls, hcalls, hcall⟩ := Keeps.keeps (R := Registers) hhandlers
    refine ⟨hbinds.trans hbinds', ?_⟩
    refine hfilled.imp hbinds'.reports fun hfills traits' _ htraits' => ?_
    obtain ⟨hfound, hlines⟩ := hfills
    rw [htraits] at htraits'
    cases htraits'
    refine ⟨hfound, calls, ?_, fun line hline => ?_⟩
    · rw [hcalls, hlines, List.append_assoc]
    · obtain ⟨id, rest, hrest⟩ := hcall line hline
      exact ⟨id, rest, by rw [hrest, hbinds.marks.name]⟩
  · rename_i hmissing
    cases h
    refine ⟨Binds.refl _, Or.inr fun traits howner htraits => ?_⟩
    obtain ⟨owner, howner⟩ := Option.isSome_iff_exists.mp howner
    exact (hmissing owner traits howner htraits).elim

end Binding

end ViewBinder
