-- Fields that are shared with the owner. A local is taken from the owner when the owner provides a
-- field by the very name that the local was declared with: it is marked and made at once, and whatever
-- makes any other field is a call, an object or a constant. Every field of the owner whose local was
-- not taken is filled from it, once the run is over. What is found in markup, styles, and what is made
-- from a resource or a constant never asks the owner.
import ViewBinder.Proofs.Session.Run
import ViewBinder.Proofs.Template.Phases

namespace ViewBinder.Session

/-! ## Fields that are made -/

/-- A provided field is made from the field of the owner that has its name; what makes a field that
is not provided ends like a call or an object, or is a constant. -/
def Supplied (s : Session) (id : FieldId) : Prop :=
  ((s.fields.field id).provided = true → ∃ u, s.Provides (s.fields.field id).declared u ∧
    (s.fields.field id).initializer = some ("owner." ++ u.name)) ∧
  ∀ expr, (s.fields.field id).initializer = some expr →
    (s.fields.field id).provided = true ∨ expr.IsClosed ∨ s.Constant expr

/-- A field stays supplied while it is read, called, or needs others. -/
theorem Supplied.alike {s s' : Session} {id : FieldId} (h : s.Supplied id)
    (howner : s'.ownerTraits = s.ownerTraits)
    (hconstant : ∀ expr, s.Constant expr → s'.Constant expr)
    (hfield : ∃ used needs statements,
      s'.fields.field id = { s.fields.field id with used, needs, statements }) :
    s'.Supplied id := by
  obtain ⟨used, needs, statements, hfield⟩ := hfield
  unfold Supplied Provides
  rw [hfield, howner]
  refine ⟨h.1, fun expr hmade => ?_⟩
  exact (h.2 expr hmade).imp_right (Or.imp_right (hconstant expr))

/-- A field that is not made yet is supplied if it is not provided. -/
theorem Supplied.unmade {s : Session} {id : FieldId} (hnone : (s.fields.field id).initializer = none)
    (hprovided : (s.fields.field id).provided = false) : s.Supplied id := by
  unfold Supplied
  rw [hnone, hprovided]
  exact ⟨nofun, nofun⟩

/-- Every field is supplied when a run is over. -/
theorem Run.supplied {s s' : Session} (h : Run s s')
    (hs : ∀ id < s.fields.fields.size, s.Supplied id) :
    ∀ id < s'.fields.fields.size, s'.Supplied id := by
  induction h with
  | refl s => exact hs
  | trans _ _ ih ih' => exact ih' (ih hs)
  | draft hcalm =>
    intro id hid
    rw [hcalm.step.size] at hid
    obtain ⟨needs, hfield⟩ := hcalm.idle id
    exact (hs id hid).alike rfl (fun _ => (Run.draft hcalm).constant) ⟨_, needs, _, hfield⟩
  | resource hdeclares =>
    intro id hid
    rw [hdeclares.fields] at hid
    exact (hs id hid).alike rfl (fun _ => (Run.resource hdeclares).constant)
      ⟨_, _, _, congrArg (·.field id) hdeclares.fields⟩
  | aside _ _ => exact hs
  | attached _ _ ih => exact ih hs
  | addAttached _ => exact hs
  | addDetached _ => exact hs
  | @declare s s' _ _ _ new fields hregister _ _ _ ih =>
    refine ih fun id hid => ?_
    obtain ⟨hnew, hsize⟩ := FieldTable.size_register hregister
    obtain ⟨hold, needs, hfresh⟩ := FieldTable.field_register hregister
    rw [hsize] at hid
    rcases Nat.eq_or_lt_of_le (Nat.lt_succ_iff.mp hid) with heq | hlt
    · rw [← hnew] at heq
      rw [← heq] at hfresh
      exact Supplied.unmade (by rw [hfresh]) (by rw [hfresh])
    · obtain ⟨needs, hfield⟩ := hold id hlt
      exact (hs id hlt).alike rfl (fun _ h => h) ⟨_, needs, _, hfield⟩
  | @make s other expr hnone hexpr =>
    intro id hid
    rw [FieldTable.size_change] at hid
    by_cases hsame : other = id
    · subst hsame
      -- a provided field would have been made before
      have hprovided : (s.fields.field other).provided = false := by
        rw [← Bool.not_eq_true]
        intro hprovided
        obtain ⟨u, -, hmade⟩ := (hs other hid).1 hprovided
        rw [hnone] at hmade
        cases hmade
      unfold Supplied
      rw [FieldTable.field_change_self hid, hprovided]
      refine ⟨nofun, fun expr' hmade => ?_⟩
      cases hmade
      exact Or.inr hexpr
    · exact (hs id hid).alike rfl (fun _ h => h)
        ⟨_, _, _, FieldTable.field_change_ne hsame⟩
  | @provide s other u hu hnone =>
    intro id hid
    rw [FieldTable.size_change, FieldTable.size_change] at hid
    by_cases hsame : other = id
    · subst hsame
      unfold Supplied
      rw [FieldTable.field_change_self (by rwa [FieldTable.size_change]),
        FieldTable.field_change_self hid]
      exact ⟨fun _ => ⟨u, hu, rfl⟩, fun _ _ => Or.inl rfl⟩
    · exact (hs id hid).alike rfl (fun _ h => h) ⟨_, _, _,
        (FieldTable.field_change_ne hsame).trans (FieldTable.field_change_ne hsame)⟩
  | @call s other rest =>
    intro id hid
    rw [FieldTable.size_change] at hid
    by_cases hsame : other = id
    · subst hsame
      exact (hs other hid).alike rfl (fun _ h => h)
        ⟨_, _, _, FieldTable.field_change_self hid⟩
    · exact (hs id hid).alike rfl (fun _ h => h)
        ⟨_, _, _, FieldTable.field_change_ne hsame⟩
  | @use s s' other _ _ ih =>
    refine ih fun id hid => ?_
    obtain ⟨used, hfield⟩ := (s.fields.marks_change other).field id
    exact (hs id (by simpa using hid)).alike rfl (fun _ h => h) ⟨used, _, _, hfield⟩

/-! ## Statements at the end -/

/-- A run adds no statement at the end of the program. -/
theorem Run.trailing {s s' : Session} (h : Run s s') : s'.trailing = s.trailing := by
  induction h with
  | trans _ _ ih ih' => exact ih'.trans ih
  | attached _ _ ih => exact ih
  | declare _ _ _ _ ih => exact ih
  | use _ _ ih => exact ih
  | _ => rfl

/-! ## Constants and the owner -/

/-- A constant whose text begins like a field of the owner is called by the whole of the text. -/
theorem Constant.owned {s : Session} (hnamed : s.imports.Named) {owned : Text}
    (h : s.Constant ("owner." ++ owned)) :
    ∃ t, ∃ k ∈ (s.catalog.decl t).constants, k.ident = "owner." ++ owned := by
  obtain ⟨t, k, hk, hspelled | ⟨entry, hentry, hspelled⟩⟩ := h
  · exact ⟨t, k, hk, hspelled.symm⟩
  · obtain ⟨hpart, howner⟩ := hnamed entry hentry
    have hdot : Text.isNamePart '.'.toUInt8.toNat = false := by decide
    have hword : ∀ b ∈ Text.ofString "owner", Text.isNamePart b.toNat = true :=
      forall_of_all (by decide)
    rw [List.append_assoc] at hspelled
    exact absurd (Text.append_inj_of_part hword hpart hdot hdot hspelled).1.symm howner

end ViewBinder.Session

namespace ViewBinder

open Markup (Document)

/-! ## Lines that fill a field of the owner -/

namespace Binding

/-- The line assigns to a field of the owner; no blank stands in what is assigned. -/
def FillsOwner (owned line : Text) : Prop :=
  ∃ value, ' '.toUInt8 ∉ value ∧ line = fillLine owned value

theorem fillLine_inj {owned owned' name name' : Text} (h : ' '.toUInt8 ∉ name)
    (h' : ' '.toUInt8 ∉ name') (heq : fillLine owned name = fillLine owned' name') :
    owned = owned' ∧ name = name' := by
  have hsplit : ∀ owned name : Text, fillLine owned name =
      (Text.ofString "owner." ++ owned ++ Text.ofString " =") ++ ' '.toUInt8 :: name := by
    intro owned name
    unfold fillLine
    simp only [List.append_assoc]
    rfl
  rw [hsplit, hsplit] at heq
  obtain ⟨hfront, hname⟩ := Text.append_inj_of_notMem h h' heq
  exact ⟨List.append_cancel_left (List.append_cancel_right hfront), hname⟩

/-- No call of a method of a local fills a field of the owner. -/
theorem not_fillsOwner_call {name rest owned : Text}
    (hpart : ∀ b ∈ name, Text.isNamePart b.toNat = true) (howner : name ≠ "owner") :
    ¬ FillsOwner owned (name ++ "." ++ rest) := by
  rintro ⟨value, -, hline⟩
  have hdot : Text.isNamePart '.'.toUInt8.toNat = false := by decide
  have hword : ∀ b ∈ Text.ofString "owner", Text.isNamePart b.toNat = true :=
    forall_of_all (by decide)
  unfold fillLine at hline
  simp only [List.append_assoc] at hline
  exact howner (Text.append_inj_of_part hpart hword hdot hdot hline).1

theorem filling?_eq_some {t : FieldTable} {u : UiField} {line : Text}
    (h : filling? t u = some line) : ∃ id, t.find? u.name = some id ∧
      (t.field id).provided = false ∧ line = fillLine u.name (t.field id).name := by
  unfold filling? at h
  obtain ⟨id, hfind, hline⟩ := Option.bind_eq_some_iff.mp h
  split at hline
  · cases hline
  · rename_i hprovided
    cases hline
    exact ⟨id, hfind, by simpa using hprovided, rfl⟩

/-- The field of the owner is filled, unless the local of its name is provided. -/
theorem filling?_of_find? {t : FieldTable} {u : UiField} {id : FieldId}
    (h : t.find? u.name = some id) : filling? t u =
      if (t.field id).provided then none else some (fillLine u.name (t.field id).name) := by
  rw [filling?, h, Option.bind_some]

/-- A line that fills a field of the owner fills no other. -/
theorem FillsOwner.name_eq {t : FieldTable} (ht : t.WellFormed) {owned line : Text}
    (h : FillsOwner owned line) {u : UiField} (hline : filling? t u = some line) :
    u.name = owned := by
  obtain ⟨value, hvalue, rfl⟩ := h
  obtain ⟨id, hfind, -, hsame⟩ := filling?_eq_some hline
  have hplain := ht.plain id (FieldTable.byName?_eq_some hfind).1
  have hblank : ' '.toUInt8 ∉ (t.field id).name := fun hmem =>
    absurd (hplain.part _ hmem) (by decide)
  exact (fillLine_inj hvalue hblank hsame).1.symm

theorem fillsOwner_of_filling? {t : FieldTable} (ht : t.WellFormed) {u : UiField} {line : Text}
    (h : filling? t u = some line) : FillsOwner u.name line := by
  obtain ⟨id, hfind, -, rfl⟩ := filling?_eq_some h
  have hplain := ht.plain id (FieldTable.byName?_eq_some hfind).1
  exact ⟨_, fun hmem => absurd (hplain.part _ hmem) (by decide), rfl⟩

/-- Different fields of the owner are filled by different lines. -/
theorem nodup_fillings {t : FieldTable} (ht : t.WellFormed) {us : List UiField}
    (h : (us.map (·.name)).Nodup) : (us.filterMap (filling? t)).Nodup := by
  refine List.pairwise_filterMap.mpr ((List.pairwise_map.mp h).imp ?_)
  intro u v hne line hline line' hline' heq
  exact hne ((fillsOwner_of_filling? ht (heq ▸ hline')).name_eq ht hline)

end Binding

namespace Template

open Binding (FillsOwner fillLine filling?)

/-! ## What becomes of fields at the end -/

namespace Finishes

variable {root : FieldId} {built s : Session}

theorem constant (h : Finishes root built s) {expr : Text} (hexpr : built.Constant expr) :
    s.Constant expr := hexpr.later h.catalog h.imports

theorem supplied (h : Finishes root built s) {id : FieldId} (hs : built.Supplied id) :
    s.Supplied id := by
  obtain ⟨used, hfield⟩ := h.marks.field id
  exact hs.alike h.owner.2 (fun _ => h.constant) ⟨used, _, _, hfield⟩

theorem asked (h : Finishes root built s) {id : FieldId}
    (hs : built.Honours id ∨ built.Unasked id) : s.Honours id ∨ s.Unasked id := by
  obtain ⟨used, hfield⟩ := h.marks.field id
  unfold Session.Honours Session.Unasked Session.Provides
  rw [hfield, h.owner.2, h.sections]
  refine hs.imp_right (Or.imp_right (Or.imp_right ?_))
  rintro ⟨expr, hmade, hexpr⟩
  exact ⟨expr, hmade, hexpr.imp_left h.constant⟩

end Finishes

namespace Stages

variable {t : Template} {settings : Settings} {c : Catalog} {supply : Nat → Nat}
  {document : Document} {built s : Session} {root : FieldId} {compiled : Compiled}

theorem supplied
    (h : Stages t settings (t.start c settings supply document) built s root compiled)
    {id : FieldId} (hid : id < s.fields.fields.size) : s.Supplied id := by
  obtain ⟨opened, hopens, hrun⟩ := h.run
  refine h.finishes.supplied (hrun.supplied ?_ id (h.finishes.marks.size ▸ hid))
  rw [hopens.fields]
  exact fun _ hnone => absurd hnone (Nat.not_lt_zero _)

theorem asked
    (h : Stages t settings (t.start c settings supply document) built s root compiled)
    {id : FieldId} (hid : id < s.fields.fields.size) : s.Honours id ∨ s.Unasked id := by
  obtain ⟨opened, hopens, hrun⟩ := h.run
  refine h.finishes.asked (hrun.declared_honours ?_ (h.finishes.marks.size ▸ hid))
  rw [hopens.fields]
  exact Nat.zero_le _

/-- The owner is what it was at the start. -/
theorem owner
    (h : Stages t settings (t.start c settings supply document) built s root compiled) :
    s.owner = t.owner ∧ s.ownerTraits = t.owner.map fun owner => c.describe owner := by
  obtain ⟨opened, hopens, hrun⟩ := h.run
  have hkept := (hopens.reaches.trans hrun.reaches).owner
  exact ⟨h.finishes.owner.1.trans hkept.1, h.finishes.owner.2.trans hkept.2⟩

theorem named
    (h : Stages t settings (t.start c settings supply document) built s root compiled) :
    built.imports.Named := by
  obtain ⟨opened, hopens, hrun⟩ := h.run
  exact (hopens.reaches.trans hrun.reaches).imports (P := Imports.Named)
    (fun im path preferred h => h.add path preferred) nofun

/-- Every field of the owner has one that fits. What is added at the end of the program is what fills
fields of the owner, between lines that fill none. -/
theorem trailing
    (h : Stages t settings (t.start c settings supply document) built s root compiled)
    {owner : TypeId} (howner : t.owner = some owner) :
    (∀ u ∈ (c.describe owner).uiFields, Binding.Fits s.catalog s.fields u) ∧
      ∃ late calls, compiled.program.trailing =
          late ++ ((c.describe owner).uiFields.filterMap (filling? s.fields) ++ calls) ∧
        ∀ line ∈ late ++ calls, ∀ owned, ¬ FillsOwner owned line := by
  obtain ⟨opened, hopens, hrun⟩ := h.run
  have hempty : built.trailing = [] := hrun.trailing.trans hopens.trailing
  obtain ⟨hkept, htraits⟩ := h.owner
  rw [howner] at hkept htraits
  obtain ⟨hfound, calls, hcalls, hcall⟩ :=
    h.finishes.fills hempty (c.describe owner) (hkept ▸ rfl) htraits
  obtain ⟨order, horder, -, htrailing⟩ := h.assembled.order
  obtain ⟨d, -, -, -, -, hchecked, -⟩ := h.assembled.bundle
  -- the name of a field is a word and not that of the owner, whether there is such a field or not
  have hname : ∀ id, (∀ b ∈ (s.fields.field id).name, Text.isNamePart b.toNat = true) ∧
      (s.fields.field id).name ≠ "owner" := by
    intro id
    by_cases hid : id < s.fields.fields.size
    · exact ⟨(h.wellFormed.plain id hid).part,
        (Assembly.nameProblem?_eq_none (hchecked id hid)).2.1⟩
    · rw [show s.fields.field id = FieldTable.noField by
        simp [FieldTable.field, Array.getElem?_eq_none (Nat.not_lt.mp hid)]]
      exact ⟨List.forall_mem_nil _, show ([] : Text) ≠ Text.ofString "owner" by decide⟩
  refine ⟨hfound, (order.map s.fields.field).flatMap Assembly.lateLines, calls, ?_, ?_⟩
  · rw [htrailing, hcalls]
  · intro line hline owned
    rcases List.mem_append.mp hline with hlate | hcalled
    · obtain ⟨f, hf, hline⟩ := List.mem_flatMap.mp hlate
      obtain ⟨id, hid, rfl⟩ := List.mem_map.mp hf
      have hlt := List.mem_range.mp ((FieldTable.constructionOrder_spec horder).2.mem_iff.mp hid)
      unfold Assembly.lateLines at hline
      split at hline
      · cases hline
      · obtain ⟨rest, rfl⟩ := h.wellFormed.calls id hlt line hline
        exact Binding.not_fillsOwner_call (hname id).1 (hname id).2
    · obtain ⟨id, rest, rfl⟩ := hcall line hcalled
      exact Binding.not_fillsOwner_call (hname id).1 (hname id).2

/-- A line at the end fills a field of the owner if it was written for that field. -/
theorem mem_trailing_iff
    (h : Stages t settings (t.start c settings supply document) built s root compiled)
    {owner : TypeId} (howner : t.owner = some owner) {owned line : Text} :
    line ∈ compiled.program.trailing ∧ FillsOwner owned line ↔
      ∃ u ∈ (c.describe owner).uiFields, u.name = owned ∧ filling? s.fields u = some line := by
  obtain ⟨-, late, calls, htrailing, hothers⟩ := h.trailing howner
  rw [htrailing]
  constructor
  · rintro ⟨hline, hfills⟩
    rcases List.mem_append.mp hline with hlate | hline
    · exact absurd hfills (hothers line (List.mem_append_left _ hlate) owned)
    · rcases List.mem_append.mp hline with hfilling | hcall
      · obtain ⟨u, hu, hwritten⟩ := List.mem_filterMap.mp hfilling
        exact ⟨u, hu, hfills.name_eq h.wellFormed hwritten, hwritten⟩
      · exact absurd hfills (hothers line (List.mem_append_right _ hcall) owned)
  · rintro ⟨u, hu, rfl, hwritten⟩
    refine ⟨?_, Binding.fillsOwner_of_filling? h.wellFormed hwritten⟩
    exact List.mem_append_right _ (List.mem_append_left _ (List.mem_filterMap.mpr ⟨u, hu, hwritten⟩))

/-- What fills a field of the owner stands at the end once. -/
theorem count_trailing
    (h : Stages t settings (t.start c settings supply document) built s root compiled)
    {owner : TypeId} (howner : t.owner = some owner)
    (hdistinct : ((c.describe owner).uiFields.map (·.name)).Nodup) {u : UiField} {line : Text}
    (hu : u ∈ (c.describe owner).uiFields) (hline : filling? s.fields u = some line) :
    compiled.program.trailing.count line = 1 := by
  obtain ⟨-, late, calls, htrailing, hothers⟩ := h.trailing howner
  have hfills := Binding.fillsOwner_of_filling? h.wellFormed hline
  have hlate : late.count line = 0 := List.count_eq_zero.mpr fun hmem =>
    hothers line (List.mem_append_left _ hmem) u.name hfills
  have hcalls : calls.count line = 0 := List.count_eq_zero.mpr fun hmem =>
    hothers line (List.mem_append_right _ hmem) u.name hfills
  have hfilling : ((c.describe owner).uiFields.filterMap (filling? s.fields)).count line = 1 :=
    List.count_eq_one_of_mem (Binding.nodup_fillings h.wellFormed hdistinct)
      (List.mem_filterMap.mpr ⟨u, hu, hline⟩)
  rw [htrailing, List.count_append, List.count_append, hlate, hfilling, hcalls]

end Stages

/-! ## Fields of the owner -/

/-- The local is taken from a field of the owner, and nothing fills that field. -/
structure TakesFrom (p : Program) (owned name : Text) : Prop where
  taken : name ++ " = " ++ ("owner." ++ owned) ∈ p.construct
  unfilled : ∀ line ∈ p.trailing, ¬ FillsOwner owned line

/-- The local fills a field of the owner, once, and nothing else does. -/
structure FillsFrom (p : Program) (owned name : Text) : Prop where
  once : p.trailing.count (fillLine owned name) = 1
  only : ∀ line ∈ p.trailing, FillsOwner owned line → line = fillLine owned name

/-- Besides a field of the owner, the text is a constant of that very name, or ends like a call or an
object. No name of a field in a program is like that. -/
def Ambiguous (s : Session) (owned : Text) : Prop :=
  Text.IsClosed ("owner." ++ owned) ∨
    ∃ t, ∃ k ∈ (s.catalog.decl t).constants, k.ident = "owner." ++ owned

/-- A provided field of the owner goes to its local, and any other is filled from its local and
makes none. -/
structure Flows (s : Session) (p : Program) (u : UiField) (name : Text) : Prop where
  provided : u.provided = true → TakesFrom p u.name name
  filled : u.provided = false → FillsFrom p u.name name
  unread : u.provided = false → ¬ Ambiguous s u.name → ∀ id < s.fields.fields.size,
    (s.fields.field id).initializer ≠ some ("owner." ++ u.name)

namespace Stages

variable {t : Template} {settings : Settings} {c : Catalog} {supply : Nat → Nat}
  {document : Document} {built s : Session} {root : FieldId} {compiled : Compiled}

/-- What makes a provided field is the field of the owner that has its name. -/
theorem provided
    (h : Stages t settings (t.start c settings supply document) built s root compiled)
    {owner : TypeId} (howner : t.owner = some owner) {id : FieldId}
    (hid : id < s.fields.fields.size) (hprovided : (s.fields.field id).provided = true) :
    ∃ u ∈ (c.describe owner).uiFields, u.provided = true ∧
      u.name = (s.fields.field id).declared ∧
      (s.fields.field id).initializer = some ("owner." ++ u.name) := by
  obtain ⟨u, ⟨hfind, hu⟩, hmade⟩ := (h.supplied hid).1 hprovided
  rw [h.owner.2, howner] at hfind
  have hfound : (c.describe owner).uiFields.find? (·.name == (s.fields.field id).declared) =
      some u := hfind
  exact ⟨u, List.mem_of_find?_eq_some hfound, hu, by simpa using List.find?_some hfound, hmade⟩

/-- A local that is made from a field of the owner is provided, unless the text is ambiguous. -/
theorem provided_of_owned
    (h : Stages t settings (t.start c settings supply document) built s root compiled)
    {id : FieldId} (hid : id < s.fields.fields.size) {owned : Text}
    (hmade : (s.fields.field id).initializer = some ("owner." ++ owned)) :
    (s.fields.field id).provided = true ∨ Ambiguous s owned := by
  obtain ⟨opened, hopens, hrun⟩ := h.run
  obtain ⟨used, hfield⟩ := h.finishes.marks.field id
  rw [hfield] at hmade ⊢
  have hnone : ∀ id < opened.fields.fields.size, opened.Supplied id := by
    rw [hopens.fields]
    exact fun _ hnone => absurd hnone (Nat.not_lt_zero _)
  refine ((hrun.supplied hnone id (h.finishes.marks.size ▸ hid)).2 _ hmade).imp_right ?_
  refine Or.imp_right fun hconstant => ?_
  obtain ⟨t', k, hk, hident⟩ := hconstant.owned h.named
  exact ⟨t', k, h.finishes.catalog.mem_constants hk, hident⟩

/-- A local is taken from a field of the owner if it is provided and was declared by that name. -/
theorem takesFrom_iff
    (h : Stages t settings (t.start c settings supply document) built s root compiled)
    (hdone : Done compiled s) {owner : TypeId} (howner : t.owner = some owner)
    (hdistinct : ((c.describe owner).uiFields.map (·.name)).Nodup) {u : UiField}
    (hu : u ∈ (c.describe owner).uiFields) {id : FieldId} (hfind : s.fields.find? u.name = some id) :
    TakesFrom compiled.program u.name (s.fields.field id).name ↔
      (s.fields.field id).provided = true ∧ (s.fields.field id).declared = u.name := by
  have hid := (FieldTable.byName?_eq_some hfind).1
  constructor
  · rintro ⟨htaken, hunfilled⟩
    -- if the local were not provided, the field would be filled
    have hprovided : (s.fields.field id).provided = true := by
      by_contra hfilled
      have hline := Binding.filling?_of_find? hfind
      rw [if_neg hfilled] at hline
      obtain ⟨hmem, hfills⟩ := (h.mem_trailing_iff howner).mpr ⟨u, hu, rfl, hline⟩
      exact hunfilled _ hmem hfills
    obtain ⟨v, -, -, hdeclared, hmade⟩ := h.provided howner hid hprovided
    rw [(hdone.mem_construct_iff hid).mp htaken, Option.some.injEq] at hmade
    rw [List.append_cancel_left hmade]
    exact ⟨hprovided, hdeclared.symm⟩
  · rintro ⟨hprovided, hdeclared⟩
    obtain ⟨v, -, -, hname, hmade⟩ := h.provided howner hid hprovided
    refine ⟨(hdone.mem_construct_iff hid).mpr ?_, fun line hline hfills => ?_⟩
    · rw [hmade, hname, hdeclared]
    · obtain ⟨w, hw, hsame, hwritten⟩ := (h.mem_trailing_iff howner).mp ⟨hline, hfills⟩
      rw [List.inj_on_of_nodup_map hdistinct hw hu hsame, Binding.filling?_of_find? hfind,
        if_pos hprovided] at hwritten
      cases hwritten

/-- A local fills a field of the owner if it is not provided. -/
theorem fillsFrom_iff
    (h : Stages t settings (t.start c settings supply document) built s root compiled)
    {owner : TypeId} (howner : t.owner = some owner)
    (hdistinct : ((c.describe owner).uiFields.map (·.name)).Nodup) {u : UiField}
    (hu : u ∈ (c.describe owner).uiFields) {id : FieldId} (hfind : s.fields.find? u.name = some id) :
    FillsFrom compiled.program u.name (s.fields.field id).name ↔
      (s.fields.field id).provided = false := by
  have hid := (FieldTable.byName?_eq_some hfind).1
  have hblank : ' '.toUInt8 ∉ (s.fields.field id).name := fun hmem =>
    absurd ((h.wellFormed.plain id hid).part _ hmem) (by decide)
  have hfilling := Binding.filling?_of_find? hfind
  constructor
  · rintro ⟨honce, -⟩
    have hmem : fillLine u.name (s.fields.field id).name ∈ compiled.program.trailing :=
      List.count_pos_iff.mp (honce ▸ Nat.one_pos)
    obtain ⟨v, hv, hsame, hwritten⟩ := (h.mem_trailing_iff howner).mp ⟨hmem, _, hblank, rfl⟩
    rw [List.inj_on_of_nodup_map hdistinct hv hu hsame, hfilling] at hwritten
    split at hwritten
    · cases hwritten
    · rename_i hprovided
      simpa using hprovided
  · intro hprovided
    rw [hprovided, if_neg (by decide)] at hfilling
    refine ⟨h.count_trailing howner hdistinct hu hfilling, fun line hline hfills => ?_⟩
    obtain ⟨v, hv, hsame, hwritten⟩ := (h.mem_trailing_iff howner).mp ⟨hline, hfills⟩
    rw [List.inj_on_of_nodup_map hdistinct hv hu hsame, hfilling] at hwritten
    exact (Option.some.inj hwritten).symm

/-- No local is made from a field that the owner does not provide. -/
theorem unread
    (h : Stages t settings (t.start c settings supply document) built s root compiled)
    {owner : TypeId} (howner : t.owner = some owner)
    (hdistinct : ((c.describe owner).uiFields.map (·.name)).Nodup) {u : UiField}
    (hu : u ∈ (c.describe owner).uiFields) (hprovided : u.provided = false)
    (hclear : ¬ Ambiguous s u.name) {id : FieldId} (hid : id < s.fields.fields.size) :
    (s.fields.field id).initializer ≠ some ("owner." ++ u.name) := by
  intro hmade
  rcases h.provided_of_owned hid hmade with htaken | hambiguous
  · obtain ⟨v, hv, hgiven, -, hmade'⟩ := h.provided howner hid htaken
    rw [hmade, Option.some.injEq] at hmade'
    rw [← List.inj_on_of_nodup_map hdistinct hu hv (List.append_cancel_left hmade'),
      hprovided] at hgiven
    cases hgiven
  · exact hclear hambiguous

/-- A local that was declared by what asks the owner is provided if the owner provides a field by
the very name. -/
theorem provided_iff_or_unasked
    (h : Stages t settings (t.start c settings supply document) built s root compiled)
    {owner : TypeId} (howner : t.owner = some owner)
    (hdistinct : ((c.describe owner).uiFields.map (·.name)).Nodup) {id : FieldId}
    (hid : id < s.fields.fields.size) :
    ((s.fields.field id).provided = true ↔ ∃ v ∈ (c.describe owner).uiFields,
      v.provided = true ∧ v.name = (s.fields.field id).declared) ∨ s.Unasked id := by
  refine (h.asked hid).imp_left fun hasked => ?_
  refine ⟨fun hprovided => ?_, fun ⟨v, hv, hgiven, hname⟩ => hasked.mpr ⟨v, ?_, hgiven⟩⟩
  · obtain ⟨v, hv, hgiven, hname, -⟩ := h.provided howner hid hprovided
    exact ⟨v, hv, hgiven, hname⟩
  · rw [h.owner.2, howner]
    show (c.describe owner).uiFields.find? (·.name == (s.fields.field id).declared) = some v
    rw [← hname]
    cases hfound : (c.describe owner).uiFields.find? (·.name == v.name) with
    | none =>
      rw [List.find?_eq_none] at hfound
      exact absurd (beq_self_eq_true v.name) (hfound v hv)
    | some w =>
      have hsame : w.name = v.name := by simpa using List.find?_some hfound
      rw [List.inj_on_of_nodup_map hdistinct (List.mem_of_find?_eq_some hfound) hv hsame]

end Stages

/-- Every field of the owner has a local of its name. The field flows the way the owner declares it
exactly if the local is provided where the field is, and was then declared by the very name of
the field; and what asks the owner makes a local provided by the very name alone. -/
theorem owner_fields_flow_iff {t : Template} {c : Catalog} {settings : Settings}
    {supply : Nat → Nat} {document : Document} {compiled : Compiled} {s : Session} {owner : TypeId}
    (hsupply : Function.Injective supply)
    (h : (t.compileDocument settings).runOn (t.start c settings supply document) =
      (.ok compiled, s))
    (howner : t.owner = some owner)
    (hdistinct : ((c.describe owner).uiFields.map (·.name)).Nodup) :
    ∀ u ∈ (c.describe owner).uiFields, ∃ id < s.fields.fields.size,
      (s.fields.field id).name = Text.sanitize u.name ∧
        (Flows s compiled.program u (s.fields.field id).name ↔
          (s.fields.field id).provided = u.provided ∧
            (u.provided = true → (s.fields.field id).declared = u.name)) ∧
        (((s.fields.field id).provided = true ↔ ∃ v ∈ (c.describe owner).uiFields,
          v.provided = true ∧ v.name = (s.fields.field id).declared) ∨ s.Unasked id) := by
  intro u hu
  have hdone := compileDocument_done hsupply h
  obtain ⟨built, root, hstages⟩ := compileDocument_stages hsupply h
  obtain ⟨id, hfind⟩ := Option.isSome_iff_exists.mp ((hstages.trailing howner).1 u hu).isSome
  obtain ⟨hid, hname⟩ := FieldTable.byName?_eq_some hfind
  have htakes := hstages.takesFrom_iff hdone howner hdistinct hu hfind
  have hfills := hstages.fillsFrom_iff howner hdistinct hu hfind
  refine ⟨id, hid, hname, ?_, hstages.provided_iff_or_unasked howner hdistinct hid⟩
  constructor
  · rintro ⟨hprovided, hfilled, -⟩
    cases hu' : u.provided with
    | true =>
      obtain ⟨htaken, hdeclared⟩ := htakes.mp (hprovided hu')
      exact ⟨htaken, fun _ => hdeclared⟩
    | false => exact ⟨hfills.mp (hfilled hu'), nofun⟩
  · rintro ⟨hsame, hdeclared⟩
    refine ⟨fun hu' => ?_, fun hu' => ?_, fun hu' hclear other hother => ?_⟩
    · exact htakes.mpr ⟨hsame.trans hu', hdeclared hu'⟩
    · exact hfills.mpr (hsame.trans hu')
    · exact hstages.unread howner hdistinct hu hu' hclear hother

/-! ## A provided field that is filled -/

/-- The sample library, and an owner that provides a label. -/
def ownedManifests : List Manifest :=
  sampleManifests ++
    [{ package := "example.com/app",
       types :=
         [{ name := "View", kind := "class",
            traits :=
              { uiFields := [{ name := "a_b", type := Library.ui "Label", provided := true }] } }] }]

/-- The catalog of that library. -/
def ownedCatalog : Catalog := ownedManifests.foldl Catalog.loading Catalog.bare

/-- A label with another spelling of the name of the field that the owner provides. -/
def spelledLabel : Template :=
  { source := "<ui:UiBinder xmlns:ui=\"urn:ui:uibind\" xmlns:g=\"urn:import:uibind.dev/ui\">" ++
      "<g:Label ui:field=\"a-b\"/></ui:UiBinder>",
    url := "View.ui.xml", owner := ownedCatalog.find? "example.com/app" "View" }

theorem spelledLabel_compiles : ∃ owner u document compiled s,
    spelledLabel.owner = some owner ∧ (ownedCatalog.describe owner).uiFields = [u] ∧
      u.name = "a_b" ∧ u.provided = true ∧
      Document.load spelledLabel.source spelledLabel.url = .ok document ∧
      (spelledLabel.compileDocument sampleSettings).runOn
        (spelledLabel.start ownedCatalog sampleSettings (· + 1) document) = (.ok compiled, s) ∧
      compiled.program.trailing.contains "owner.a_b = a_b" = true ∧
      (compiled.program.construct.all fun line =>
        !(Text.ofString "owner.a_b").isSuffixOf line) = true := by
  have hfields : (spelledLabel.owner.map fun owner : TypeId =>
      (ownedCatalog.describe owner).uiFields.map fun u => (u.name, u.provided)) =
        some [(Text.ofString "a_b", true)] := by
    decide +kernel
  have h : spelledLabel.succeeds (fun document =>
      (spelledLabel.compileDocument sampleSettings).runOn
        (spelledLabel.start ownedCatalog sampleSettings (· + 1) document))
      (fun _ compiled _ => compiled.program.trailing.contains "owner.a_b = a_b" &&
        compiled.program.construct.all fun line =>
          !(Text.ofString "owner.a_b").isSuffixOf line) = true := by
    decide +kernel
  obtain ⟨owner, howner, hfields⟩ := Option.map_eq_some_iff.mp hfields
  obtain ⟨u, hu, hshape⟩ := List.map_eq_singleton_iff.mp hfields
  obtain ⟨hname, hprovided⟩ := Prod.mk.inj hshape
  obtain ⟨document, compiled, s, hload, hrun, htest⟩ := exists_of_succeeds h
  rw [Bool.and_eq_true] at htest
  exact ⟨owner, u, document, compiled, s, howner, hu, hname, hprovided, hload, hrun, htest⟩

/-- What is known of the field of that owner. -/
theorem owner_fields_of_spelledLabel : ∃ owner document compiled s,
    Function.Injective (· + 1 : Nat → Nat) ∧
      (spelledLabel.compileDocument sampleSettings).runOn
        (spelledLabel.start ownedCatalog sampleSettings (· + 1) document) = (.ok compiled, s) ∧
      spelledLabel.owner = some owner ∧
      ((ownedCatalog.describe owner).uiFields.map (·.name)).Nodup ∧
      ∀ u ∈ (ownedCatalog.describe owner).uiFields, ∃ id < s.fields.fields.size,
        (s.fields.field id).name = Text.sanitize u.name ∧
          (Flows s compiled.program u (s.fields.field id).name ↔
            (s.fields.field id).provided = u.provided ∧
              (u.provided = true → (s.fields.field id).declared = u.name)) := by
  obtain ⟨owner, u, document, compiled, s, howner, hu, -, -, -, hrun, -⟩ := spelledLabel_compiles
  have hsupply : Function.Injective (· + 1 : Nat → Nat) := fun _ _ h => Nat.succ.inj h
  have hdistinct : ((ownedCatalog.describe owner).uiFields.map (·.name)).Nodup := by
    rw [hu]
    exact List.nodup_singleton _
  refine ⟨owner, document, compiled, s, hsupply, hrun, howner, hdistinct, fun u hu => ?_⟩
  obtain ⟨id, hid, hname, hflows, -⟩ :=
    owner_fields_flow_iff hsupply hrun howner hdistinct u hu
  exact ⟨id, hid, hname, hflows⟩

/-- The owner provides the label, but no local is taken from its field: the field is filled. -/
theorem spelledLabel_fills_a_provided_field : ∃ owner document compiled s,
    spelledLabel.owner = some owner ∧
      ((ownedCatalog.describe owner).uiFields.map (·.name)).Nodup ∧
      Document.load spelledLabel.source spelledLabel.url = .ok document ∧
      (spelledLabel.compileDocument sampleSettings).runOn
        (spelledLabel.start ownedCatalog sampleSettings (· + 1) document) = (.ok compiled, s) ∧
      ∃ u ∈ (ownedCatalog.describe owner).uiFields, u.provided = true ∧
        (∃ line ∈ compiled.program.trailing, FillsOwner u.name line) ∧
        ∀ name, ¬ TakesFrom compiled.program u.name name ∧
          name ++ " = " ++ ("owner." ++ u.name) ∉ compiled.program.construct := by
  obtain ⟨owner, u, document, compiled, s, howner, hu, hname, hprovided, hload, hrun, hfilled,
    hmade⟩ := spelledLabel_compiles
  have hdistinct : ((ownedCatalog.describe owner).uiFields.map (·.name)).Nodup := by
    rw [hu]
    exact List.nodup_singleton _
  have hline : Text.ofString "owner.a_b = a_b" = fillLine (Text.ofString "a_b") "a_b" := by
    decide
  have howned : Text.ofString "owner." ++ Text.ofString "a_b" = Text.ofString "owner.a_b" := by
    decide
  have hunmade : ∀ name, name ++ " = " ++ ("owner." ++ u.name) ∉ compiled.program.construct := by
    intro name hmem
    have htest := List.all_eq_true.mp hmade _ hmem
    rw [hname, howned, List.isSuffixOf_iff_suffix.mpr (List.suffix_append _ _)] at htest
    cases htest
  refine ⟨owner, document, compiled, s, howner, hdistinct, hload, hrun, u, ?_, hprovided, ?_, ?_⟩
  · rw [hu]
    exact List.mem_singleton_self u
  · rw [hname]
    exact ⟨_, List.contains_iff_mem.mp hfilled, "a_b", by decide, hline⟩
  · exact fun name => ⟨fun htakes => hunmade name htakes.taken, hunmade name⟩

end Template

end ViewBinder
