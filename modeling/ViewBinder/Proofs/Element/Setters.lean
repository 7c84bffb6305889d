-- Setters. An attribute that is left of an element is passed to the setter it names, in a call that
-- is added to the statements of the field: of the value of the attribute that call has whatever the
-- parser for the setter's parameters makes of it.
import ViewBinder.Element.Construction
import ViewBinder.Proofs.Attribute.Braces
import ViewBinder.Proofs.Field.Order

namespace ViewBinder

open Markup (Document Attribute)
open Session

namespace Element

variable {s s' : Session} {e i : Nat} {f : FieldId} {type : TypeId} {a : Attribute}

/-- The call of a setter of a field. -/
def setterCall (name : Text) (setter : Method) (expr : Text) : Text :=
  callText (name ++ "." ++ setter.name) [expr]

/-- The session with a statement added to a field. -/
def addingStatement (s : Session) (d : Draft) (f : FieldId) (statement : Text) : Session :=
  { s with toDraft := { d with fields := d.fields.change f fun x => x.withStatement statement } }

/-- A property is set exactly if it has one setter and the value is read for the parameters of that;
the call of the setter is then all that is added to the field. -/
theorem setProperty_ok_iff : (setProperty e f type i a).runOn s = (.ok true, s') ↔
    ∃ setter expr d, s.catalog.setters type a.name.base = [setter] ∧
      (Attribute.parse (s.parsers.get s.catalog (setter.params.map (·.type))) e a.value).runOn
        { s.toDraft with document := s.document.useAttribute e i } = (.ok expr, d) ∧
      s' = addingStatement s d f (setterCall (d.fields.field f).name setter expr) := by
  let before : Draft := { s.toDraft with document := s.document.useAttribute e i }
  have hread : ∀ types, (readValue e a.value types).runOn
      { s with document := s.document.useAttribute e i } =
      (((Attribute.parse (s.parsers.get s.catalog types) e a.value).runOn before).1,
        { s with toDraft :=
          ((Attribute.parse (s.parsers.get s.catalog types) e a.value).runOn before).2 }) :=
    fun _ => rfl
  constructor
  · intro h
    unfold setProperty at h
    obtain ⟨c, _, hget, h⟩ := Work.bind_ok h
    cases hget
    obtain ⟨document, _, hget, h⟩ := Work.bind_ok h
    cases hget
    dsimp only at h
    split at h
    · obtain ⟨_, _, -, h⟩ := Work.bind_ok h
      cases h
    · rename_i setter hsetters
      obtain ⟨_, s₁, huse, h⟩ := Work.bind_ok h
      cases huse
      rw [Work.runOn_bind, Work.runOn_attempt, hread] at h
      rcases hparse : (Attribute.parse (s.parsers.get s.catalog (setter.params.map (·.type))) e
        a.value).runOn before with ⟨failure | expr, d⟩
      · rw [hparse] at h
        cases failure <;> cases h
      · rw [hparse] at h
        cases h
        exact ⟨setter, expr, d, hsetters, hparse, rfl⟩
    · obtain ⟨_, _, -, h⟩ := Work.bind_ok h
      cases h
  · rintro ⟨setter, expr, d, hsetters, hparse, rfl⟩
    unfold setProperty
    rw [Work.runOn_bind, show getCatalog.runOn s = (.ok s.catalog, s) from rfl]
    dsimp only
    rw [Work.runOn_bind, show getDocument.runOn s = (.ok s.document, s) from rfl]
    simp only [hsetters]
    rw [Work.runOn_bind, Work.runOn_modify]
    dsimp only
    rw [Work.runOn_bind, Work.runOn_attempt, hread, hparse]
    rfl

/-- The attribute is set by one call of the setter, which is all that is added to the field. -/
def Sets (s : Session) (e : Nat) (f : FieldId) (type : TypeId) (i : Nat) (a : Attribute)
    (setter : Method) (expr : Text) : Prop :=
  ∃ s', (setProperty e f type i a).runOn s = (.ok true, s') ∧
    s'.fields.field f =
      (s.fields.field f).withStatement (setterCall (s.fields.field f).name setter expr)

/-- A value that is read without a change to the fields is passed to the only setter. -/
theorem sets_of_parse {setter : Method} {expr : Text} (hf : f < s.fields.fields.size)
    (hsetters : s.catalog.setters type a.name.base = [setter])
    (hparse : ∃ d, (Attribute.parse (s.parsers.get s.catalog (setter.params.map (·.type))) e
      a.value).runOn { s.toDraft with document := s.document.useAttribute e i } = (.ok expr, d) ∧
        d.fields = s.fields) : Sets s e f type i a setter expr := by
  obtain ⟨d, hparse, hfields⟩ := hparse
  refine ⟨_, setProperty_ok_iff.mpr ⟨setter, expr, d, hsetters, hparse, rfl⟩, ?_⟩
  unfold addingStatement
  dsimp only
  rw [hfields, FieldTable.field_change_self hf]

end Element

end ViewBinder
