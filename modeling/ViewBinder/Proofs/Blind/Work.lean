-- Work that does not look at the numbers of markers. Two states are alike if they are the same but for
-- the numbers: these stand in the table of markers, and in the expressions that fields are made by. As
-- long as all markers stand for references, blind work leads from states that are alike to such
-- states, and its answer is the same under all numberings or at least drawn.
import ViewBinder.Proofs.Blind.Text
import ViewBinder.Proofs.Field.Order
import ViewBinder.Proofs.Markup.Once
import ViewBinder.Session

namespace ViewBinder

open Markup (Document)

variable {n : Nat} {E : MarkerEntry → Prop} {σ α β : Type}

theorem Each.same {L : Numbering n → List α} (h : Each Same L) : Same L := by
  obtain ⟨as, has, rfl⟩ := h
  induction as with
  | nil => exact ⟨[], rfl⟩
  | cons A as ih =>
    obtain ⟨⟨a, rfl⟩, hrest⟩ := List.forall_mem_cons.mp has
    obtain ⟨l, hl⟩ := ih hrest
    exact ⟨a :: l, funext fun ν => congrArg (a :: ·) (congrFun hl ν)⟩

/-! ## Fields -/

/-- The field without its expressions. What is left shows no marker. -/
def Field.outline (f : Field) : Field :=
  { f with initializer := f.initializer.map fun _ => [], statements := [] }

/-- The fields are the same but for the markers in their expressions. -/
def Field.Alike (F : Numbering n → Field) : Prop :=
  ∃ (f : Field) (I : Numbering n → Option Text) (L : Numbering n → List Text),
    Maybe Drawn I ∧ Each Drawn L ∧ F = fun ν => { f with initializer := I ν, statements := L ν }

instance : Kind (Field.Alike (n := n)) where
  plain f := ⟨f, _, _, Kind.plain f.initializer, Kind.plain f.statements, rfl⟩

theorem Field.Alike.outline {F : Numbering n → Field} (h : Field.Alike F) :
    Same fun ν => (F ν).outline := by
  obtain ⟨f, I, L, hI, -, rfl⟩ := h
  cases hI with
  | none => exact ⟨{ f with initializer := none, statements := [] }, rfl⟩
  | some _ => exact ⟨{ f with initializer := some [], statements := [] }, rfl⟩

/-- The references are the same but for their markers. -/
def FieldReference.Alike (R : Numbering n → FieldReference) : Prop :=
  ∃ (r : FieldReference) (k : Nat), k < n ∧ R = fun ν => { r with marker := ν.marker k }

namespace FieldTable

/-- The table without expressions and references. -/
def outline (t : FieldTable) : FieldTable :=
  { t with fields := t.fields.map Field.outline, references := [] }

theorem field_outline (t : FieldTable) (id : FieldId) :
    t.outline.field id = (t.field id).outline := by
  show ((t.fields.map Field.outline)[id]?).getD noField = _
  rw [Array.getElem?_map]
  unfold field
  cases t.fields[id]? <;> rfl

theorem size_outline (t : FieldTable) : t.outline.fields.size = t.fields.size := Array.size_map

theorem byName?_outline (t : FieldTable) (name : Text) : t.outline.byName? name = t.byName? name := by
  unfold byName?
  simp only [field_outline, size_outline]
  rfl

theorem find?_outline (t : FieldTable) (name : Text) : t.outline.find? name = t.find? name :=
  byName?_outline t _

theorem declarationOrder_outline (t : FieldTable) :
    t.outline.declarationOrder = t.declarationOrder := by
  have hprecedes : t.outline.precedes = t.precedes := by
    funext a b
    unfold precedes
    simp only [field_outline]
    rfl
  unfold declarationOrder
  rw [hprecedes, size_outline]

theorem constructionOrder_outline (t : FieldTable) :
    t.outline.constructionOrder = t.constructionOrder := by
  have hready : ∀ made id, t.outline.isReady made id = t.isReady made id := by
    intro made id
    unfold isReady
    simp only [field_outline, byName?_outline]
    rfl
  unfold constructionOrder
  rw [size_outline, declarationOrder_outline, makeReady_congr hready]
  simp only [field_outline]
  rfl

/-- The tables are the same but for the markers in them. -/
def Alike (T : Numbering n → FieldTable) : Prop :=
  ∃ (t : FieldTable) (F : Numbering n → List Field) (R : Numbering n → List FieldReference),
    Each Field.Alike F ∧ Each FieldReference.Alike R ∧
      T = fun ν => { t with fields := (F ν).toArray, references := R ν }

namespace Alike

variable {T : Numbering n → FieldTable}

theorem outline (h : Alike T) : Same fun ν => (T ν).outline := by
  obtain ⟨t, F, R, hF, -, rfl⟩ := h
  obtain ⟨fs, hfs⟩ := (hF.map (f := fun _ => Field.outline) fun _ hA => hA.outline).same
  refine ⟨{ t with fields := fs.toArray, references := [] }, funext fun ν => ?_⟩
  show ({ t with fields := (F ν).toArray.map Field.outline, references := [] } : FieldTable) = _
  rw [List.map_toArray, show (F ν).map Field.outline = fs from congrFun hfs ν]

theorem field (h : Alike T) (id : FieldId) : Field.Alike fun ν => (T ν).field id := by
  obtain ⟨t, F, R, ⟨as, has, rfl⟩, -, rfl⟩ := h
  rcases hid : as[id]? with _ | A
  · have hnone : (fun ν => (⟨(as.map (· ν)).toArray, t.stack, R ν, t.counter⟩ : FieldTable).field
        id) = fun _ => noField := by
      funext ν
      simp [FieldTable.field, hid]
    exact hnone ▸ Kind.plain noField
  · have hsome : (fun ν => (⟨(as.map (· ν)).toArray, t.stack, R ν, t.counter⟩ : FieldTable).field
        id) = A := by
      funext ν
      simp [FieldTable.field, hid]
    exact hsome ▸ has A (List.mem_of_getElem? hid)

/-- The field changed, in each table in its way. -/
theorem change {g : Numbering n → Field → Field} (h : Alike T) (id : FieldId)
    (hg : ∀ F, Field.Alike F → Field.Alike fun ν => g ν (F ν)) :
    Alike fun ν => (T ν).change id (g ν) := by
  obtain ⟨t, F, R, ⟨as, has, rfl⟩, hR, rfl⟩ := h
  refine ⟨t, _, R, ⟨as.modify id fun A ν => g ν (A ν), fun B hB => ?_, rfl⟩, hR, funext fun ν => ?_⟩
  · obtain ⟨k, hk⟩ := List.mem_iff_getElem?.mp hB
    rw [List.getElem?_modify] at hk
    rcases hold : as[k]? with _ | A
    · rw [hold] at hk
      cases hk
    · rw [hold] at hk
      cases hk
      have hA := has A (List.mem_of_getElem? hold)
      split
      · exact hg A hA
      · exact hA
  · unfold FieldTable.change
    dsimp only
    rw [List.modify_toArray]
    congr 2
    refine List.ext_getElem? fun k => ?_
    simp only [List.getElem?_modify, List.getElem?_map]
    rcases as[k]? with _ | A
    · rfl
    · dsimp only [Option.map_some]
      split <;> rfl

theorem push (h : Alike T) (f : Field) :
    Alike fun ν => { T ν with fields := (T ν).fields.push f } := by
  obtain ⟨t, F, R, hF, hR, rfl⟩ := h
  refine ⟨t, _, R, hF.append (Each.one (Kind.plain f)), hR, funext fun ν => ?_⟩
  simp

theorem withStack (h : Alike T) (f : List Frame → List Frame) :
    Alike fun ν => { T ν with stack := f (T ν).stack } := by
  obtain ⟨t, F, R, hF, hR, rfl⟩ := h
  exact ⟨{ t with stack := f t.stack }, F, R, hF, hR, rfl⟩

theorem current (h : Alike T) : Same fun ν => (T ν).current := by
  obtain ⟨t, F, R, -, -, rfl⟩ := h
  exact ⟨t.current, rfl⟩

theorem depend (h : Alike T) (other : Text) : Alike fun ν => (T ν).depend other := by
  obtain ⟨current, hcurrent⟩ := h.current
  unfold FieldTable.depend
  simp only [show ∀ ν, (T ν).current = current from congrFun hcurrent]
  cases current with
  | none => exact h
  | some id =>
    refine h.change id fun F hF => ?_
    obtain ⟨f, I, L, hI, hL, rfl⟩ := hF
    refine ⟨f.withNeed other, I, L, hI, hL, funext fun ν => ?_⟩
    unfold Field.withNeed
    dsimp only
    split <;> rfl

theorem addReference (h : Alike T) {R : Numbering n → FieldReference} (hR : FieldReference.Alike R) :
    Alike fun ν => (T ν).addReference (R ν) := by
  obtain ⟨r, k, hk, rfl⟩ := hR
  have hadded : Alike fun ν =>
      { T ν with references := (T ν).references ++ [{ r with marker := ν.marker k }] } := by
    obtain ⟨t, F, Rs, hF, hRs, rfl⟩ := h
    exact ⟨t, F, _, hF, hRs.append (Each.one ⟨r, k, hk, rfl⟩), rfl⟩
  exact hadded.depend r.fieldName

theorem find? (h : Alike T) (name : Text) : Same fun ν => (T ν).find? name := by
  obtain ⟨t, ht⟩ := h.outline
  refine ⟨t.find? name, funext fun ν => ?_⟩
  rw [← find?_outline, show (T ν).outline = t from congrFun ht ν]

theorem size (h : Alike T) : Same fun ν => (T ν).fields.size := by
  obtain ⟨t, ht⟩ := h.outline
  refine ⟨t.fields.size, funext fun ν => ?_⟩
  rw [← size_outline, show (T ν).outline = t from congrFun ht ν]

variable {c : Catalog} {precedence : Precedence} {type : Option TypeId} {name : Text} {id : FieldId}

theorem register (h : Alike T) {ν : Numbering n} {t : FieldTable}
    (hok : (T ν).register c precedence type name = .ok (id, t)) :
    ∃ T', Alike T' ∧ ∀ ν, (T ν).register c precedence type name = .ok (id, T' ν) := by
  obtain ⟨found, hfound⟩ := h.find? name
  obtain ⟨size, hsize⟩ := h.size
  obtain ⟨element, helement⟩ : Same fun ν => (T ν).currentElement := by
    obtain ⟨t, F, R, -, -, rfl⟩ := h
    exact ⟨t.currentElement, rfl⟩
  unfold FieldTable.register at hok ⊢
  simp only [show ∀ ν, (T ν).find? name = found from congrFun hfound,
    show ∀ ν, (T ν).fields.size = size from congrFun hsize,
    show ∀ ν, (T ν).currentElement = element from congrFun helement] at hok ⊢
  cases found with
  | some old => cases hok
  | none =>
    cases hok
    exact ⟨_, (h.push _).depend _, fun _ => rfl⟩

theorem require (h : Alike T) {ν : Numbering n} {t : FieldTable}
    (hok : (T ν).require c precedence type name = .ok (id, t)) :
    ∃ T', Alike T' ∧ ∀ ν, (T ν).require c precedence type name = .ok (id, T' ν) := by
  obtain ⟨found, hfound⟩ := h.find? name
  unfold FieldTable.require at hok ⊢
  simp only [show ∀ ν, (T ν).find? name = found from congrFun hfound] at hok ⊢
  cases found with
  | none => exact h.register hok
  | some old =>
    obtain ⟨f, I, L, -, -, hf⟩ := h.field old
    simp only [show ∀ ν, (T ν).field old = _ from congrFun hf] at hok ⊢
    split at hok
    · cases hok
    · rename_i hkey
      cases hok
      refine ⟨_, h.depend f.name, fun ν => ?_⟩
      rw [if_neg hkey]

theorem nextName (h : Alike T) (tag : Text) : ∃ (made : Text) (T' : Numbering n → FieldTable),
    Alike T' ∧ ∀ ν, (T ν).nextName tag = (made, T' ν) := by
  obtain ⟨t, F, R, hF, hR, rfl⟩ := h
  exact ⟨(t.nextName tag).1, _, ⟨{ t with counter := t.counter + 1 }, F, R, hF, hR, rfl⟩,
    fun _ => rfl⟩

end Alike

end FieldTable

theorem Markup.name_stripped (x : Markup.Node) : x.stripped.name = x.name := by
  obtain ⟨body, _, _, _⟩ := x
  cases body <;> rfl

/-! ## Markers -/

/-- The marker was made for a reference: it stands for the path. -/
def MarkerEntry.IsReference (e : MarkerEntry) : Prop :=
  ∃ path, e.meaning = .known path ∧ e.source = "\x7b" ++ path ++ "\x7d"

instance (e : MarkerEntry) : Decidable e.IsReference :=
  match hmeaning : e.meaning with
  | .known path =>
    decidable_of_iff (e.source = "\x7b" ++ path ++ "\x7d")
      ⟨fun hsource => ⟨path, hmeaning, hsource⟩, fun ⟨_, hknown, hsource⟩ => by
        cases hmeaning.symm.trans hknown
        exact hsource⟩
  | .pending _ _ => .isFalse fun ⟨_, hknown, _⟩ => nomatch hmeaning.symm.trans hknown

/-- The marker was made for a splice: it stands for the expression between two literals. -/
def MarkerEntry.IsSplice (e : MarkerEntry) : Prop :=
  e.meaning = .known ("\" + " ++ e.source ++ " + \"")

/-- No splices are among some markers. -/
class Unspliced (E : MarkerEntry → Prop) : Prop where
  unspliced : ∀ e, E e → ¬ e.IsSplice

/-- A splice is longer than what it was made for, and a reference is shorter. -/
instance : Unspliced MarkerEntry.IsReference where
  unspliced e hreference hsplice := by
    obtain ⟨path, hmeaning, hsource⟩ := hreference
    rw [MarkerEntry.IsSplice, hmeaning, hsource] at hsplice
    have hlength := congrArg List.length (Meaning.known.inj hsplice)
    have hbrace : ("\x7b" : Text).length = 1 := by decide
    simp only [List.length_append] at hlength
    omega

namespace Markers

/-- Some entries with their numbers. -/
def numbered (ν : Numbering n) (entries : List MarkerEntry) : List (Nat × MarkerEntry) :=
  entries.mapIdx fun k e => (ν.supply k, e)

/-- The markers are the same but for their numbers. -/
def Alike (M : Numbering n → Markers) : Prop :=
  ∃ (entries : List MarkerEntry) (woven : Nat), (∀ e ∈ entries, ∃ value, e.meaning = .known value) ∧
    M = fun ν => ⟨ν.supply, numbered ν entries, woven⟩

variable {M : Numbering n → Markers}

/-- A new marker has the place behind the others. -/
theorem Alike.add (h : Alike M) (source : Text) (place : Option Location) (value : Text) :
    ∃ (k : Nat) (M' : Numbering n → Markers), Alike M' ∧ ∀ ν,
      (M ν).size = k ∧ (M ν).add source place (.known value) = (ν.marker k, M' ν) := by
  obtain ⟨entries, woven, hknown, rfl⟩ := h
  refine ⟨entries.length, _, ⟨entries ++ [⟨source, place, .known value⟩], woven, fun e he => ?_, rfl⟩,
    fun ν => ⟨List.length_mapIdx, ?_⟩⟩
  · rcases List.mem_append.mp he with hold | hnew
    · exact hknown e hold
    · exact ⟨value, List.mem_singleton.mp hnew ▸ rfl⟩
  · unfold Markers.add
    simp [Numbering.marker, numbered, List.mapIdx_append]

end Markers

/-! ## States -/

/-- A draft in which no error was reported, and all markers, at most `n`, were made for references. It
has no cell of a dock: the direction of such a cell is read as a pattern. -/
structure Draft.Refers (n : Nat) (E : MarkerEntry → Prop) (d : Draft) : Prop where
  few : d.markers.size ≤ n
  allowed : ∀ entry ∈ d.markers.entries, E entry.2
  calm : d.log.failure? = none
  names : ∀ e, (d.document.name e).base ≠ "Dock"

/-- A state that holds a draft. -/
class Dressed (σ : Type) where
  draft : σ → Draft
  /-- The state with other markers and fields. -/
  dress : Markers → FieldTable → σ → σ

instance : Dressed Draft := ⟨id, fun markers fields d => { d with markers, fields }⟩

instance : Dressed Session :=
  ⟨fun s => s.toDraft, fun markers fields s => { s with markers, fields }⟩

open Dressed (draft dress)

/-- The states are the same but for the numbers of their markers. -/
def Alike [Dressed σ] (S : Numbering n → σ) : Prop :=
  ∃ (M : Numbering n → Markers) (T : Numbering n → FieldTable) (s : σ), Markers.Alike M ∧
    FieldTable.Alike T ∧ S = fun ν => dress (M ν) (T ν) s

namespace Work

variable [Dressed σ]

/-! ## Drawing work -/

/-- The second state refers only if the first one does. -/
def Sinks (n : Nat) (E : MarkerEntry → Prop) (s s' : σ) : Prop :=
  (draft s').Refers n E → (draft s).Refers n E

instance : Std.Refl (Sinks (σ := σ) n E) := ⟨fun _ => id⟩

instance : IsTrans σ (Sinks n E) := ⟨fun _ _ _ h h' hrefers => h (h' hrefers)⟩

/-- From states that are alike, the work leads to such states with an answer of a kind, under all
numberings if it does under one. This holds as long as all markers are made for references; how the
work begins, if it ends that way, is not asked. -/
structure Draws (E : MarkerEntry → Prop) (w : Numbering n → Work σ α)
    (Q : (Numbering n → α) → Prop) : Prop where
  back : ∀ ν, Keeps (Sinks n E) (w ν)
  draws : ∀ {S}, Alike S → ∀ {ν a s'}, (w ν).runOn (S ν) = (.ok a, s') → (draft s').Refers n E →
    ∃ A S', Alike S' ∧ Q A ∧ ∀ ν, (w ν).runOn (S ν) = (.ok (A ν), S' ν)

/-- The work does not look at the numbers of markers, and its answer shows none. -/
class Blind (n : Nat) (E : MarkerEntry → Prop) (w : Work σ α) : Prop where
  draws : Draws (n := n) E (fun _ => w) Same

/-- After the work some marker was not made for a reference, or an error was reported. -/
class Spoils (n : Nat) (E : MarkerEntry → Prop) (w : Work σ α) : Prop where
  spoils : ∀ {s a s'}, w.runOn s = (.ok a, s') → ¬ (draft s').Refers n E

/-- The work never succeeds. -/
class Fails (w : Work σ α) : Prop where
  fails : ∀ s, ∃ failure, (w.runOn s).1 = .error failure

instance (e : Failure) : Fails (throw e : Work σ α) := ⟨fun _ => ⟨e, rfl⟩⟩

instance (place : Option Location) (p : Problem) : Fails (failAt place p : Work σ α) :=
  ⟨fun _ => ⟨_, rfl⟩⟩

instance (w : Work σ α) (k : α → Work σ β) [hw : Fails w] : Fails (w >>= k) where
  fails s := by
    obtain ⟨failure, hfails⟩ := hw.fails s
    rcases hrun : w.runOn s with ⟨answer, s'⟩
    rw [hrun] at hfails
    subst hfails
    exact ⟨failure, by rw [runOn_bind, hrun]⟩

instance (w : Work σ α) [hw : Fails w] : Spoils n E w where
  spoils {s _ _} hrun := by
    obtain ⟨failure, hfails⟩ := hw.fails s
    rw [hrun] at hfails
    cases hfails

namespace Draws

variable {Q : (Numbering n → α) → Prop} {Q' : (Numbering n → β) → Prop}
  {w : Numbering n → Work σ α}

theorem of_spoils (h : ∀ ν, Spoils n E (w ν)) : Draws E w Q where
  back ν := ⟨fun hrun hrefers => absurd hrefers ((h ν).spoils hrun)⟩
  draws _ _ _ _ hrun hrefers := absurd hrefers ((h _).spoils hrun)

theorem mono {K : (Numbering n → α) → Prop} (h : Draws E w Q) (hQ : ∀ A, Q A → K A) : Draws E w K where
  back := h.back
  draws hS _ _ _ hrun hrefers := by
    obtain ⟨A, S', hS', hA, hall⟩ := h.draws hS hrun hrefers
    exact ⟨A, S', hS', hQ A hA, hall⟩

theorem answer {A : Numbering n → α} (hA : Q A) : Draws E (fun ν => (pure (A ν) : Work σ α)) Q where
  back _ := inferInstance
  draws hS _ _ _ _ _ := ⟨A, _, hS, hA, fun _ => rfl⟩

theorem bind [Kind Q] {k : Numbering n → α → Work σ β} (hw : Draws E w Q)
    (hk : ∀ A, Q A → Draws E (fun ν => k ν (A ν)) Q') : Draws E (fun ν => w ν >>= k ν) Q' where
  back ν := (hw.back ν).bind' fun a => (hk _ (Kind.plain a)).back ν
  draws {S} hS ν b s'' hrun hrefers := by
    obtain ⟨a, s', hfirst, hrest⟩ := bind_ok hrun
    obtain ⟨A, S', hS', hA, hall⟩ :=
      hw.draws hS hfirst (((hk _ (Kind.plain a)).back ν).keeps hrest hrefers)
    have hhere := hall ν
    rw [hfirst] at hhere
    cases hhere
    obtain ⟨B, S'', hS'', hB, hall'⟩ := (hk A hA).draws hS' hrest hrefers
    refine ⟨B, S'', hS'', hB, fun ν => ?_⟩
    rw [runOn_bind, hall ν]
    exact hall' ν

/-- Work behind work whose answer shows no number. -/
theorem after {k : Numbering n → α → Work σ β} (hw : Draws E w Same)
    (hk : ∀ a, Draws E (fun ν => k ν a) Q') : Draws E (fun ν => w ν >>= k ν) Q' :=
  hw.bind fun _ ⟨a, ha⟩ => ha ▸ hk a

theorem map [Kind Q] {f : Numbering n → α → β} (hw : Draws E w Q)
    (hf : ∀ A, Q A → Q' fun ν => f ν (A ν)) : Draws E (fun ν => f ν <$> w ν) Q' := by
  simp only [map_eq_pure_bind]
  exact bind hw fun A hA => answer (hf A hA)

theorem ite {p : Prop} [Decidable p] {v : Numbering n → Work σ α} (hw : p → Draws E w Q)
    (hv : ¬ p → Draws E v Q) : Draws E (fun ν => if p then w ν else v ν) Q := by
  by_cases hp : p
  · simp only [hp, if_true]
    exact hw hp
  · simp only [hp, if_false]
    exact hv hp

/-- Work that is only done where no problem is found. -/
theorem guarded {p : Prop} [Decidable p] {problem : Work σ β} [Fails problem] (hw : Draws E w Q) :
    Draws E (fun ν => if p then problem >>= fun _ => w ν else w ν) Q :=
  ite (fun _ => of_spoils fun _ => inferInstance) fun _ => hw

/-- Work on the values of a list, one after the other. -/
theorem mapM [Kind Q'] {f : Numbering n → α → Work σ β} {L : Numbering n → List α}
    (hL : Each Q L) (hf : ∀ A, Q A → Draws E (fun ν => f ν (A ν)) Q') :
    Draws E (fun ν => (L ν).mapM (f ν)) (Each Q') := by
  obtain ⟨as, has, rfl⟩ := hL
  induction as with
  | nil => exact answer Each.nil
  | cons A as ih =>
    obtain ⟨hA, hrest⟩ := List.forall_mem_cons.mp has
    simp only [List.map_cons, List.mapM_cons]
    exact bind (hf A hA) fun B hB => bind (ih hrest) fun Bs hBs => answer (Each.cons hB hBs)

/-- A loop over the values of a list. -/
theorem forIn {f : Numbering n → α → PUnit → Work σ (ForInStep PUnit)}
    {L : Numbering n → List α} (hL : Each Q L)
    (hf : ∀ A, Q A → Draws E (fun ν => f ν (A ν) ⟨⟩) Same) :
    Draws E (fun ν => ForIn.forIn (L ν) PUnit.unit (f ν)) Same := by
  obtain ⟨as, has, rfl⟩ := hL
  induction as with
  | nil => exact answer ⟨⟨⟩, rfl⟩
  | cons A as ih =>
    obtain ⟨hA, hrest⟩ := List.forall_mem_cons.mp has
    simp only [List.map_cons, List.forIn_cons]
    refine bind (hf A hA) ?_
    rintro B ⟨step, rfl⟩
    cases step with
    | done b => exact answer ⟨b, rfl⟩
    | yield b => exact ih hrest

/-- A change of the state. -/
theorem changing {f : Numbering n → σ → σ}
    (hback : ∀ ν s, Sinks n E s (f ν s))
    (h : ∀ S, Alike S → ∀ ν, (draft (f ν (S ν))).Refers n E → Alike fun ν => f ν (S ν)) :
    Draws E (fun ν => (modify (f ν) : Work σ Unit)) Same where
  back ν := ⟨fun hrun => by
    cases hrun
    exact hback ν _⟩
  draws hS ν _ _ hrun hrefers := by
    cases hrun
    exact ⟨_, _, h _ hS ν hrefers, ⟨⟨⟩, rfl⟩, fun _ => rfl⟩

/-- Work on the state as it is. -/
theorem reading {k : Numbering n → σ → Work σ α} (hback : ∀ ν s, Keeps (Sinks n E) (k ν s))
    (h : ∀ S, Alike S → Draws E (fun ν => k ν (S ν)) Q) : Draws E (fun ν => get >>= k ν) Q where
  back ν := Keeps.bind' inferInstance (hback ν)
  draws hS ν _ _ hrun hrefers := by
    obtain ⟨A, S', hS', hA, hall⟩ := (h _ hS).draws hS hrun hrefers
    exact ⟨A, S', hS', hA, fun ν => hall ν⟩

/-- Work on the state as it is, of which it reads no marker and no expression. -/
theorem looking {k : Numbering n → σ → Work σ α} (hk : ∀ s, Draws E (fun ν => k ν s) Q)
    (hsame : ∀ {ν} m t s, k ν (dress m t s) = k ν (dress {} t.outline s)) :
    Draws E (fun ν => get >>= k ν) Q :=
  reading (fun ν s => (hk s).back ν) fun S hS => by
    obtain ⟨M, T, s, -, hT, rfl⟩ := hS
    obtain ⟨t, ht⟩ := hT.outline
    have hall : ∀ ν, k ν (dress (M ν) (T ν) s) = k ν (dress {} t s) := fun ν => by
      rw [hsame, show (T ν).outline = t from congrFun ht ν]
    simp only [hall]
    exact hk _

end Draws

/-! ## Blind work -/

namespace Blind

instance (priority := low) of_spoils {w : Work σ α} [h : Spoils n E w] : Blind n E w :=
  ⟨.of_spoils fun _ => h⟩

theorem keeps {w : Work σ α} [hw : Blind n E w] (ν : Numbering n) : Keeps (Sinks n E) w :=
  hw.draws.back ν

instance pure (a : α) : Blind n E (pure a : Work σ α) := ⟨.answer ⟨a, rfl⟩⟩

theorem bind' {w : Work σ α} {k : α → Work σ β} (hw : Blind n E w) (hk : ∀ a, Blind n E (k a)) :
    Blind n E (w >>= k) :=
  ⟨hw.draws.bind fun _ ⟨a, ha⟩ => ha ▸ (hk a).draws⟩

instance bind {w : Work σ α} {k : α → Work σ β} [hw : Blind n E w] [hk : ∀ a, Blind n E (k a)] :
    Blind n E (w >>= k) := bind' hw hk

instance map {f : α → β} {w : Work σ α} [hw : Blind n E w] : Blind n E (f <$> w) := by
  rw [map_eq_pure_bind]
  infer_instance

instance discarded {w : Work σ α} [Blind n E w] : Blind n E (discard w : Work σ Unit) := map

instance ite {p : Prop} [Decidable p] {w v : Work σ α} [hw : Blind n E w] [hv : Blind n E v] :
    Blind n E (if p then w else v) := by
  split
  · exact hw
  · exact hv

theorem forIn' {f : α → β → Work σ (ForInStep β)} {xs : List α} {b : β}
    (h : ∀ a b, Blind n E (f a b)) : Blind n E (ForIn.forIn xs b f) := by
  induction xs generalizing b with
  | nil => exact pure b
  | cons x xs ih =>
    rw [List.forIn_cons]
    refine bind' (h x b) fun step => ?_
    cases step with
    | done b => exact pure b
    | yield b => exact ih

instance forIn {f : α → β → Work σ (ForInStep β)} {xs : List α} {b : β}
    [h : ∀ a b, Blind n E (f a b)] : Blind n E (ForIn.forIn xs b f) := forIn' h

theorem mapM' {f : α → Work σ β} {xs : List α} (h : ∀ a, Blind n E (f a)) : Blind n E (xs.mapM f) := by
  induction xs with
  | nil =>
    rw [List.mapM_nil]
    infer_instance
  | cons x xs ih =>
    rw [List.mapM_cons]
    exact bind' (h x) fun _ => bind' ih fun _ => inferInstance

instance mapM {f : α → Work σ β} {xs : List α} [h : ∀ a, Blind n E (f a)] : Blind n E (xs.mapM f) :=
  mapM' h

instance forM {f : α → Work σ PUnit} {xs : List α} [h : ∀ a, Blind n E (f a)] :
    Blind n E (xs.forM f) := by
  induction xs with
  | nil => exact pure _
  | cons x xs ih =>
    show Blind n E (f x >>= fun _ => xs.forM f)
    exact bind' (h x) fun _ => ih

/-- A change that commutes with the dress of the state and does not make up for anything. -/
theorem changingTo {f : σ → α × σ}
    (hback : ∀ s, Sinks n E s (f s).2)
    (h : ∀ m t s, f (dress m t s) = ((f s).1, dress m t (f s).2)) :
    Blind n E (modifyGet f : Work σ α) where
  draws := {
    back := fun _ => ⟨fun hrun => by
      cases hrun
      exact hback _⟩
    draws := by
      rintro S ⟨M, T, s, hM, hT, rfl⟩ ν a s' - -
      refine ⟨fun _ => (f s).1, fun ν => dress (M ν) (T ν) (f s).2, ⟨M, T, _, hM, hT, rfl⟩,
        ⟨_, rfl⟩, fun ν => ?_⟩
      rw [runOn_modifyGet, h] }

theorem changing {f : σ → σ} (hback : ∀ s, Sinks n E s (f s))
    (h : ∀ m t s, f (dress m t s) = dress m t (f s)) : Blind n E (modify f : Work σ Unit) := by
  have hto : Blind n E (modifyGet fun s => (PUnit.unit, f s) : Work σ PUnit) :=
    changingTo hback fun m t s => by rw [h]
  exact hto

/-- Work on the state as it is, of which it reads no marker and no expression. -/
theorem reading {k : σ → Work σ α} (hk : ∀ s, Blind n E (k s))
    (hsame : ∀ m t s, k (dress m t s) = k (dress {} t.outline s)) : Blind n E (get >>= k) :=
  ⟨.looking (fun s => (hk s).draws) hsame⟩

end Blind

/-- Work that depends on whether some drawing work fails. A state in which it failed is spoiled. -/
theorem Draws.attempted {w : Numbering n → Work σ α} {Q : (Numbering n → α) → Prop}
    {Q' : (Numbering n → β) → Prop} {k : Numbering n → Except Failure α → Work σ β} [Kind Q]
    (hw : Draws E w Q) (hk : ∀ A, Q A → Draws E (fun ν => k ν (.ok (A ν))) Q')
    (hfails : ∀ ν failure, Spoils n E (k ν (.error failure))) :
    Draws E (fun ν => (w ν).attempt >>= k ν) Q' where
  back ν := ⟨fun {s b s'} hrun hrefers => by
    rcases hwork : (w ν).runOn s with ⟨failure | a, s''⟩
    · rw [runOn_bind, runOn_attempt, hwork] at hrun
      exact absurd hrefers ((hfails ν failure).spoils hrun)
    · rw [runOn_bind, runOn_attempt, hwork] at hrun
      exact (hw.back ν).keeps hwork (((hk _ (Kind.plain a)).back ν).keeps hrun hrefers)⟩
  draws {S} hS ν b s' hrun hrefers := by
    rcases hwork : (w ν).runOn (S ν) with ⟨failure | a, s''⟩
    · rw [runOn_bind, runOn_attempt, hwork] at hrun
      exact absurd hrefers ((hfails ν failure).spoils hrun)
    · rw [runOn_bind, runOn_attempt, hwork] at hrun
      obtain ⟨A, S', hS', hA, hall⟩ :=
        hw.draws hS hwork (((hk _ (Kind.plain a)).back ν).keeps hrun hrefers)
      have hhere := hall ν
      rw [hwork] at hhere
      cases hhere
      obtain ⟨B, S'', hS'', hB, hall'⟩ := (hk A hA).draws hS' hrun hrefers
      refine ⟨B, S'', hS'', hB, fun ν => ?_⟩
      rw [runOn_bind, runOn_attempt, hall ν]
      exact hall' ν

namespace Spoils

/-- Work spoils a state if it begins with what does, and nothing behind that makes up for it. -/
theorem before {w : Work σ α} {k : α → Work σ β} (hw : Spoils n E w)
    (hk : ∀ a, Keeps (Sinks n E) (k a)) : Spoils n E (w >>= k) where
  spoils hrun hrefers := by
    obtain ⟨a, s', hfirst, hrest⟩ := bind_ok hrun
    exact hw.spoils hfirst ((hk a).keeps hrest hrefers)

/-- Work spoils a state if what it ends with does. -/
theorem bind' {w : Work σ α} {k : α → Work σ β} (h : ∀ a, Spoils n E (k a)) :
    Spoils n E (w >>= k) where
  spoils hrun := by
    obtain ⟨a, s', -, hrest⟩ := bind_ok hrun
    exact (h a).spoils hrest

instance bind {w : Work σ α} {k : α → Work σ β} [h : ∀ a, Spoils n E (k a)] : Spoils n E (w >>= k) :=
  bind' h

instance ite {p : Prop} [Decidable p] {w v : Work σ α} [hw : Spoils n E w] [hv : Spoils n E v] :
    Spoils n E (if p then w else v) := by
  split
  · exact hw
  · exact hv

end Spoils

/-! ## Work on parts -/

/-- Names of elements stay while a document is read. -/
theorem refers_of_later {d : Draft} {document : Document} (hlater : d.document.Later document)
    (h : ({ d with document } : Draft).Refers n E) : d.Refers n E where
  few := h.few
  allowed := h.allowed
  calm := h.calm
  names e := by
    have hname : (document.name e).base = (d.document.name e).base := by
      show (document.node e).name.base = _
      rw [← Markup.name_stripped, hlater.stripped, Markup.name_stripped]
      rfl
    exact hname ▸ h.names e

instance {w : Work Document α} [hw : Leads Document.Later w] :
    Blind n E (liftM w : Work Draft α) where
  draws := {
    back := fun _ => ⟨fun {d a d'} hrun hrefers => by
      have hafter : { d with document := (w.runOn d.document).2 } = d' := (Prod.mk.inj hrun).2
      exact refers_of_later (hw.leads d.document) (hafter ▸ hrefers)⟩
    draws := by
      rintro S ⟨M, T, d, hM, hT, rfl⟩ ν a d' hrun -
      rcases hwork : w.runOn d.document with ⟨answer, document⟩
      have hall : ∀ ν : Numbering n, (liftM w : Work Draft α).runOn (dress (M ν) (T ν) d) =
          (answer, dress (M ν) (T ν) { d with document }) := fun ν => by
        show ((w.runOn d.document).1, ({ dress (M ν) (T ν) d with
          document := (w.runOn d.document).2 } : Draft)) = _
        rw [hwork]
        rfl
      rw [hall ν] at hrun
      cases hrun
      exact ⟨fun _ => a, _, ⟨M, T, _, hM, hT, rfl⟩, ⟨a, rfl⟩, hall⟩ }

/-- Drawing work on the draft of a session. -/
theorem Draws.lift {w : Numbering n → Work Draft α} {Q : (Numbering n → α) → Prop}
    (hw : Draws E w Q) : Draws E (fun ν => (liftM (w ν) : Work Session α)) Q where
  back ν := ⟨fun {s a s'} hrun hrefers => by
    rcases hwork : (w ν).runOn s.toDraft with ⟨answer, d⟩
    have hlift : (liftM (w ν) : Work Session α).runOn s = (answer, { s with toDraft := d }) := by
      show (((w ν).runOn s.toDraft).1, ({ s with toDraft := ((w ν).runOn s.toDraft).2 } : Session)) = _
      rw [hwork]
    rw [hlift] at hrun
    cases hrun
    exact (hw.back ν).keeps hwork hrefers⟩
  draws := by
    rintro S ⟨M, T, s, hM, hT, rfl⟩ ν a s' hrun hrefers
    have hlift : ∀ ν, (liftM (w ν) : Work Session α).runOn (dress (M ν) (T ν) s) =
        (((w ν).runOn (dress (M ν) (T ν) s.toDraft)).1,
          { s with toDraft := ((w ν).runOn (dress (M ν) (T ν) s.toDraft)).2 }) := fun _ => rfl
    rcases hwork : (w ν).runOn (dress (M ν) (T ν) s.toDraft) with ⟨answer, d⟩
    rw [hlift, hwork] at hrun
    cases hrun
    obtain ⟨A, S', ⟨M', T', d', hM', hT', rfl⟩, hA, hall⟩ :=
      hw.draws ⟨M, T, s.toDraft, hM, hT, rfl⟩ hwork hrefers
    refine ⟨A, fun ν => dress (M' ν) (T' ν) { s with toDraft := d' },
      ⟨M', T', _, hM', hT', rfl⟩, hA, fun ν => ?_⟩
    rw [hlift, hall ν]
    rfl

instance {w : Work Draft α} [hw : Blind n E w] : Blind n E (liftM w : Work Session α) :=
  ⟨hw.draws.lift⟩

instance {w : Work Document α} [Leads Document.Later w] : Blind n E (liftM w : Work Session α) :=
  inferInstanceAs (Blind n E (liftM (liftM w : Work Draft α) : Work Session α))

/-- Drawing work with a change of the state behind it, also where it fails. -/
theorem Draws.always {w : Numbering n → Work σ α} {Q : (Numbering n → α) → Prop} (hw : Draws E w Q)
    {last : σ → σ} (hback : ∀ s, Sinks n E s (last s))
    (hlast : ∀ S : Numbering n → σ, Alike S → Alike fun ν => last (S ν)) :
    Draws E (fun ν => (w ν).andThenAlways last) Q where
  back ν := ⟨fun {s a s'} hrun hrefers => by
    rcases hwork : (w ν).runOn s with ⟨answer, s''⟩
    rw [runOn_andThenAlways, hwork] at hrun
    cases hrun
    exact (hw.back ν).keeps hwork (hback _ hrefers)⟩
  draws {S} hS ν a s' hrun hrefers := by
    rcases hwork : (w ν).runOn (S ν) with ⟨answer, s''⟩
    rw [runOn_andThenAlways, hwork] at hrun
    cases hrun
    obtain ⟨A, S', hS', hA, hall⟩ := hw.draws hS hwork (hback _ hrefers)
    refine ⟨A, fun ν => last (S' ν), hlast S' hS', hA, fun ν => ?_⟩
    rw [runOn_andThenAlways, hall ν]

/-- Work between two changes of a session that leave the draft alone. -/
theorem Blind.between {w : Work Session α} (hw : Blind n E w) {first last : Session → Session}
    (hfirst : ∀ s, (first s).toDraft = s.toDraft) (hlast : ∀ s, (last s).toDraft = s.toDraft)
    (hfirst' : ∀ m t s, first (dress m t s) = dress m t (first s))
    (hlast' : ∀ m t s, last (dress m t s) = dress m t (last s)) :
    Blind n E (modify first >>= fun _ => w.andThenAlways last) := by
  have hsinks : ∀ {f : Session → Session}, (∀ s, (f s).toDraft = s.toDraft) → ∀ s,
      Sinks n E s (f s) := fun {f} hf s hrefers => by
    rwa [show draft (f s) = draft s from hf s] at hrefers
  refine bind' (changing (hsinks hfirst) hfirst') fun _ =>
    ⟨hw.draws.always (hsinks hlast) fun S hS => ?_⟩
  obtain ⟨M, T, s, hM, hT, rfl⟩ := hS
  exact ⟨M, T, last s, hM, hT, funext fun ν => hlast' _ _ s⟩

end Work

end ViewBinder
