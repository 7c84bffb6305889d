-- Writing programs. A program that is the same under all numberings but for its markers is written
-- to a drawn text. If that is woven under two numberings with no number in common, then no marker of it
-- was there by chance, and it is woven to the same text under all. So the numbers do not show in what
-- becomes of such a template.
import ViewBinder.Proofs.Blind.Template
import ViewBinder.Proofs.Marker.Again
import ViewBinder.Proofs.Numbering.Template
import ViewBinder.Proofs.Template.Leftovers

namespace ViewBinder

open Markup (Document)
open Session
open Dressed (draft)
open Draft (Any)
open Work (Blind Draws Keeps)

variable {n : Nat}

/-! ## Rendering -/

/-- Lists whose places are of a kind are empty under all numberings or under none. -/
theorem Each.isEmpty {α : Type} {Q : (Numbering n → α) → Prop} {L : Numbering n → List α}
    (hL : Each Q L) : Same fun ν => (L ν).isEmpty := by
  obtain ⟨as, -, rfl⟩ := hL
  exact ⟨as.isEmpty, funext fun _ => List.isEmpty_map⟩

theorem Each.full {α : Type} {Q : (Numbering n → α) → Prop} {L : Numbering n → List (List α)}
    (hL : Each (Each Q) L) : Each (Each Q) fun ν => (L ν).filter (!·.isEmpty) := by
  obtain ⟨as, has, rfl⟩ := hL
  induction as with
  | nil => exact Each.nil
  | cons A as ih =>
    obtain ⟨hA, hrest⟩ := List.forall_mem_cons.mp has
    obtain ⟨empty, hempty⟩ := hA.isEmpty
    simp only [List.map_cons, List.filter_cons, show ∀ ν, (A ν).isEmpty = empty from congrFun hempty]
    cases empty with
    | true => exact ih hrest
    | false => exact Each.cons hA (ih hrest)

/-- The lines are the same but for the markers in their texts. -/
def Line.Alike (A : Numbering n → Line) : Prop :=
  ∃ (F : Numbering n → Text) (indent : Int), Drawn F ∧ A = fun ν => ⟨F ν, indent⟩

instance : Kind (Line.Alike (n := n)) := ⟨fun l => ⟨_, l.indent, .plain l.text, rfl⟩⟩

namespace Lines

/-- The lines are the same but for the markers in their texts. -/
def Alike (L : Numbering n → Lines) : Prop :=
  ∃ (A : Numbering n → List Line) (C : Numbering n → Line) (indent : Int), Each Line.Alike A ∧
    Line.Alike C ∧ L = fun ν => ⟨A ν, C ν, indent⟩

variable {L : Numbering n → Lines} {F : Numbering n → Text}

instance : Kind (Alike (n := n)) :=
  ⟨fun ls => ⟨_, _, ls.indent, Kind.plain ls.above, Kind.plain ls.current, rfl⟩⟩

namespace Alike

theorem print (h : Alike L) (hF : Drawn F) : Alike fun ν => (L ν).print (F ν) := by
  obtain ⟨A, C, indent, hA, ⟨G, i, hG, rfl⟩, rfl⟩ := h
  exact ⟨A, _, indent, hA, ⟨_, i, hG.append hF, rfl⟩, rfl⟩

theorem println (h : Alike L) (hF : Drawn F) : Alike fun ν => (L ν).println (F ν) := by
  obtain ⟨A, C, indent, hA, hC, hL⟩ := h.print hF
  refine ⟨_, _, indent, Each.cons hC hA, ⟨_, indent, .plain [], rfl⟩, funext fun ν => ?_⟩
  unfold Lines.println
  rw [show (L ν).print (F ν) = _ from congrFun hL ν]

theorem lineIsEmpty (h : Alike L) : Same fun ν => (L ν).lineIsEmpty := by
  obtain ⟨A, C, indent, -, ⟨G, i, hG, rfl⟩, rfl⟩ := h
  rcases hG.empty_or with rfl | hfull
  · exact ⟨true, rfl⟩
  · exact ⟨false, funext hfull⟩

theorem shift (h : Alike L) (by_ : Int) : Alike fun ν => (L ν).shift by_ := by
  obtain ⟨A, C, indent, hA, ⟨G, i, hG, rfl⟩, rfl⟩ := h
  unfold Lines.shift Lines.lineIsEmpty
  rcases hG.empty_or with rfl | hfull
  · exact ⟨A, _, indent + by_, hA, ⟨_, indent + by_, .plain [], rfl⟩, rfl⟩
  · simp only [hfull, Bool.false_eq_true, if_false]
    exact ⟨A, _, _, hA, ⟨G, i, hG, rfl⟩, rfl⟩

theorem blank (h : Alike L) : Alike fun ν => (L ν).blank := by
  obtain ⟨empty, hempty⟩ := h.lineIsEmpty
  have hadded : Alike fun ν => (L ν).println [] := h.println (.plain [])
  unfold Lines.blank
  simp only [show ∀ ν, (L ν).lineIsEmpty = empty from congrFun hempty]
  obtain ⟨A, C, indent, ⟨as, has, rfl⟩, hC, rfl⟩ := id h
  cases as with
  | nil => exact hadded
  | cons B as =>
    obtain ⟨⟨G, i, hG, rfl⟩, -⟩ := List.forall_mem_cons.mp has
    rcases hG.empty_or with rfl | hfull
    · cases empty with
      | true => exact h
      | false => exact hadded
    · simp only [List.map_cons, hfull, Bool.false_and, Bool.false_eq_true, if_false]
      exact hadded

theorem dropEmptyLast (h : Alike L) : Alike fun ν => (L ν).dropEmptyLast := by
  obtain ⟨empty, hempty⟩ := h.lineIsEmpty
  unfold Lines.dropEmptyLast
  simp only [show ∀ ν, (L ν).lineIsEmpty = empty from congrFun hempty]
  obtain ⟨A, C, indent, ⟨as, has, rfl⟩, hC, rfl⟩ := id h
  cases as with
  | nil => exact h
  | cons B as =>
    obtain ⟨hB, hrest⟩ := List.forall_mem_cons.mp has
    cases empty with
    | true => exact ⟨_, B, indent, ⟨as, hrest, rfl⟩, hB, rfl⟩
    | false => exact h

theorem foldl {α : Type} {Q : (Numbering n → α) → Prop} {f : Lines → α → Lines}
    {X : Numbering n → List α} (hX : Each Q X) (h : Alike L)
    (hf : ∀ L, Alike L → ∀ A, Q A → Alike fun ν => f (L ν) (A ν)) :
    Alike fun ν => (X ν).foldl f (L ν) := by
  obtain ⟨as, has, rfl⟩ := hX
  induction as generalizing L with
  | nil => exact h
  | cons A as ih =>
    obtain ⟨hA, hrest⟩ := List.forall_mem_cons.mp has
    exact ih (hf L h A hA) hrest

theorem printAll {X : Numbering n → List Text} (h : Alike L) (hX : Each Drawn X) :
    Alike fun ν => (L ν).printAll (X ν) :=
  h.foldl hX fun _ hL _ hA => hL.println hA

theorem addParts {X : Numbering n → List (List Text)} (h : Alike L) (hX : Each (Each Drawn) X) :
    Alike fun ν => Program.addParts (L ν) (X ν) := by
  obtain ⟨as, has, rfl⟩ := hX
  cases as with
  | nil => exact h
  | cons A as =>
    obtain ⟨hA, hrest⟩ := List.forall_mem_cons.mp has
    exact (h.printAll hA).foldl ⟨as, hrest, rfl⟩ fun _ hL _ hB => hL.blank.printAll hB

theorem render (h : Alike L) : Drawn fun ν => (L ν).render := by
  obtain ⟨A, C, indent, ⟨as, has, rfl⟩, hC, rfl⟩ := h
  unfold Lines.render
  have hlines : Each Line.Alike fun ν => (C ν :: as.map (· ν)).reverse := by
    refine ⟨(C :: as).reverse, fun B hB => ?_, funext fun ν => ?_⟩
    · exact List.forall_mem_cons.mpr ⟨hC, has⟩ B (List.mem_reverse.mp hB)
    · rw [List.map_reverse]
      rfl
  refine .join _ (hlines.map fun B hB => ?_)
  obtain ⟨G, i, hG, rfl⟩ := hB
  unfold lineText
  rcases hG.empty_or with rfl | hfull
  · exact .plain []
  · simp only [hfull, Bool.false_eq_true, if_false]
    exact (Drawn.plain _).append hG

end Alike

end Lines

namespace Program

/-- What is written of alike programs is drawn. -/
theorem Alike.render {P : Numbering n → Program} (h : Alike P) : Drawn fun ν => (P ν).render := by
  obtain ⟨p, C, T, hC, hT, rfl⟩ := h
  have hparts : Each (Each Drawn) fun ν =>
      bodyParts { p with construct := C ν, trailing := T ν } :=
    Each.full (.cons (Kind.plain (declarationLines p.declarations)) (.cons hC
      (.cons (Kind.plain p.attach) (.cons (Kind.plain p.detach) (.cons hT
        (.one (Kind.plain (p.unused.map discardLine))))))))
  have hbody : Lines.Alike fun ν =>
      let ls := headLines p (Lines.empty 0)
      let ls := ls.println
        ("// " ++ p.binderName ++ " builds the widget tree declared in " ++ p.source ++ ".")
      let ls := (ls.println ("type " ++ p.binderName ++ " struct\x7b\x7d")).blank
      let ls := ls.println
        "// CreateAndBindUI constructs the template and binds its fields to owner."
      let ls := (ls.println p.openingLine).shift 1
      addParts ls (bodyParts { p with construct := C ν, trailing := T ν }) :=
    .addParts (Kind.plain _) hparts
  have hreturned := ((hbody.println (.plain ("return " ++ p.rootExpr))).shift (-1)).println
    (.plain "\x7d")
  have hextra := hreturned.foldl (Q := Drawn) (f := fun ls extra => ls.blank.println extra)
    (Kind.plain p.extra) fun _ hL _ hF => hL.blank.println hF
  exact hextra.dropEmptyLast.render.append (.plain "\n")

end Program

/-! ## Markers behind a text -/

namespace Marker

/-- The back of a marker does not reach into a marker behind it further than the front of that. -/
theorem back_in_front {y more : Text} (h : back <+: y ++ (front ++ more)) : back <+: y ++ front := by
  have hoverlap : ∀ i < 14, (back.drop i).take front.length <+: front →
      (back.drop i).length ≤ front.length := by
    decide
  rcases List.prefix_or_prefix_of_prefix h (List.prefix_append y _) with hy | ⟨z, hback⟩
  · exact hy.trans (List.prefix_append _ _)
  · have hdrop : back.drop y.length = z := by rw [← hback, List.drop_left]
    have hlength : y.length < 14 := by
      have hle := congrArg List.length hback
      rw [List.length_append, show back.length = 13 from rfl] at hle
      omega
    rw [← hback, List.prefix_append_right_inj] at h
    have hfront : z.take front.length <+: front :=
      List.prefix_of_prefix_length_le ((List.take_prefix _ _).trans h) (List.prefix_append _ _)
        (List.length_take_le _ _)
    have hshort := hoverlap _ hlength
    rw [hdrop] at hshort
    rw [List.take_of_length_le (hshort hfront)] at hfront
    rw [← hback]
    exact (List.prefix_append_right_inj y).mpr hfront

/-- Whether a text begins like a marker does not depend on the number of a marker behind it. -/
theorem digits?_front {a : Text} (hne : a ≠ []) (more : Text) :
    digits? (a ++ (front ++ more)) = digits? (a ++ front) := by
  by_cases ha : front <+: a
  · obtain ⟨a, rfl⟩ := ha
    cases hdigits : digits? (front ++ a ++ (front ++ more)) with
    | some digits =>
      obtain ⟨hsome, hall, rest, heq⟩ := eq_of_digits? hdigits
      simp only [List.append_assoc, List.append_cancel_left_eq] at heq
      rcases List.append_eq_append_iff.mp heq with ⟨z, hz, hmore⟩ | ⟨y, hy, hback⟩
      · cases z with
        | nil =>
          have hback : back <+: [] ++ (front ++ more) := ⟨rest, hmore.symm⟩
          exact absurd (back_in_front hback) (by decide)
        | cons d z =>
          have hfirst : d = '-'.toUInt8 := (List.cons.inj hmore).1.symm
          have hdigit := List.all_eq_true.mp hall d (hz ▸ List.mem_append_right _ List.mem_cons_self)
          rw [hfirst] at hdigit
          exact absurd hdigit (by decide)
      · obtain ⟨rest', hrest'⟩ := back_in_front ⟨rest, hback⟩
        rw [hy, List.append_assoc, List.append_assoc, ← hrest', ← List.append_assoc,
          ← List.append_assoc, digits?_marker hsome hall]
    | none =>
      cases hother : digits? (front ++ a ++ front) with
      | none => rfl
      | some digits =>
        obtain ⟨hsome, hall, rest, heq⟩ := eq_of_digits? hother
        rw [← List.append_assoc, heq, List.append_assoc, digits?_marker hsome hall] at hdigits
        cases hdigits
  · have hnone := digits?_straddle hne ha []
    rw [List.append_nil] at hnone
    rw [digits?_straddle hne ha, hnone]

end Marker

/-! ## Texts under numberings apart -/

theorem Alike.log {S : Numbering n → Session} (h : Alike S) (ν ν' : Numbering n) :
    (S ν).log = (S ν').log := by
  obtain ⟨M, T, s, -, -, rfl⟩ := h
  rfl

theorem Alike.size {S : Numbering n → Session} (h : Alike S) (ν ν' : Numbering n) :
    (S ν).markers.size = (S ν').markers.size := by
  obtain ⟨M, T, s, ⟨entries, woven, -, rfl⟩, -, rfl⟩ := h
  exact (List.length_mapIdx (l := entries)).trans List.length_mapIdx.symm

namespace Markers

variable {entries : List MarkerEntry} {woven : Nat} {ν ν' : Numbering n}

/-- The table of some entries under a numbering. -/
def under (ν : Numbering n) (entries : List MarkerEntry) (woven : Nat) : Markers :=
  ⟨ν.supply, numbered ν entries, woven⟩

/-- The numberings have no number in common. -/
def Apart (ν ν' : Numbering n) : Prop := ∀ k < n, ∀ l < n, ν.supply k ≠ ν'.supply l

/-- The first numbers, and the ones behind them. -/
theorem apart_behind (h : 0 + n ≤ Marker.maxId) (h' : n + n ≤ Marker.maxId) :
    Apart (Numbering.behind 0 h) (Numbering.behind n h') := fun k hk l hl heq => by
  dsimp only [Numbering.behind] at heq
  omega

theorem exists_of_find? (hn : entries.length ≤ n) {id : Nat} {entry : MarkerEntry}
    (h : (under ν entries woven).find? id = some entry) : ∃ k < n, ν.supply k = id := by
  obtain ⟨k, hk, heq⟩ := List.mem_mapIdx.mp (find?_mem h)
  exact ⟨k, Nat.lt_of_lt_of_le hk hn, congrArg Prod.fst heq⟩

/-- A number is not known under both numberings. -/
theorem Apart.unknown (hapart : Apart ν ν') (hn : entries.length ≤ n) {id : Nat}
    {entry entry' : MarkerEntry} (h : (under ν entries woven).find? id = some entry) :
    (under ν' entries woven).find? id ≠ some entry' := by
  intro h'
  obtain ⟨k, hk, rfl⟩ := exists_of_find? hn h
  obtain ⟨l, hl, hsame⟩ := exists_of_find? hn h'
  exact hapart k hk l hl hsame.symm

/-- Where a text goes on with a marker, it does not expand under both numberings. -/
theorem Apart.digits?_none (hapart : Apart ν ν') (hn : entries.length ≤ n) {t t' w w' : Text}
    (h : (under ν entries woven).Expands t w) (h' : (under ν' entries woven).Expands t' w')
    (hsame : Marker.digits? t = Marker.digits? t') : Marker.digits? t = none := by
  cases hdigits : Marker.digits? t with
  | none => rfl
  | some digits =>
    obtain ⟨hne, hall, rest, rfl⟩ := Marker.eq_of_digits? hdigits
    obtain ⟨-, -, rest', rfl⟩ := Marker.eq_of_digits? (hsame.symm.trans hdigits)
    unfold Expands at h h'
    rw [Marker.pieces_marker hne hall] at h h'
    obtain ⟨_, _, _, _, hfind, -⟩ := expandsTo_marker.mp h
    obtain ⟨_, _, _, _, hfind', -⟩ := expandsTo_marker.mp h'
    exact absurd hfind' (hapart.unknown hn hfind)

/-- A text that expands under both numberings holds no marker. -/
theorem Apart.noMarker (hapart : Apart ν ν') (hn : entries.length ≤ n) {t w w' : Text}
    (h : (under ν entries woven).Expands t w) (h' : (under ν' entries woven).Expands t w') :
    Marker.occursIn t = false := by
  induction t generalizing w w' with
  | nil => rfl
  | cons b t ih =>
    have hnone := hapart.digits?_none hn h h' rfl
    obtain ⟨_, -, h⟩ := (expands_cons hnone).mp h
    obtain ⟨_, -, h'⟩ := (expands_cons hnone).mp h'
    exact Marker.occursIn_cons.mpr ⟨hnone, ih h h'⟩

theorem Apart.expands_self (hapart : Apart ν ν') (hn : entries.length ≤ n) {t w w' : Text}
    (h : (under ν entries woven).Expands t w) (h' : (under ν' entries woven).Expands t w')
    (m : Markers) : m.Expands t w := by
  have hplain := hapart.noMarker hn h h'
  rw [ExpandsTo.unique h (expands_of_noMarker hplain)]
  exact expands_of_noMarker hplain

theorem Apart.expands_marker (hapart : Apart ν ν') (hn : entries.length ≤ n) {k : Nat} (hk : k < n)
    {w w' : Text} (h : (under ν entries woven).Expands (ν.marker k) w)
    (h' : (under ν' entries woven).Expands (ν'.marker k) w') (μ : Numbering n) :
    (under μ entries woven).Expands (μ.marker k) w := by
  obtain ⟨entry, value, hfind, hknown, hvalue⟩ := Markers.expands_marker.mp h
  obtain ⟨entry', value', hfind', hknown', hvalue'⟩ := Markers.expands_marker.mp h'
  have hall : ∀ μ : Numbering n, (under μ entries woven).find? (μ.supply k) = entries[k]? :=
    fun μ => find?_numbered hn hk woven
  rw [hall, ← hall μ] at hfind
  rw [hall, ← hall μ, hfind] at hfind'
  cases hfind'
  rw [hknown] at hknown'
  cases hknown'
  exact Markers.expands_marker.mpr
    ⟨entry, value, hfind, hknown, hapart.expands_self hn hvalue hvalue' _⟩

/-- A drawn text that expands under both numberings expands to the same under all. -/
theorem Apart.expands (hapart : Apart ν ν') (hn : entries.length ≤ n) {F : Numbering n → Text}
    (hF : Drawn F) {w w' : Text} (h : (under ν entries woven).Expands (F ν) w)
    (h' : (under ν' entries woven).Expands (F ν') w') (μ : Numbering n) :
    (under μ entries woven).Expands (F μ) w := by
  induction hF generalizing w w' with
  | plain t => exact hapart.expands_self hn h h' _
  | @marked t k rest hk _ ih =>
    induction t generalizing w w' with
    | nil =>
      obtain ⟨v, u, hv, hu, rfl⟩ := expands_marker_append.mp h
      obtain ⟨v', u', hv', hu', rfl⟩ := expands_marker_append.mp h'
      exact expands_marker_append.mpr ⟨v, u, hapart.expands_marker hn hk hv hv' μ, ih hu hu', rfl⟩
    | cons b t iht =>
      have hfront : ∀ μ : Numbering n, Marker.digits? (b :: t ++ (μ.marker k ++ rest μ)) =
          Marker.digits? (b :: t ++ Marker.front) := fun μ => by
        have hmore : μ.marker k ++ rest μ = Marker.front ++
            (Text.ofNat (μ.supply k) ++ Marker.back ++ rest μ) := by
          unfold Numbering.marker Marker.text
          simp only [List.append_assoc]
        rw [hmore, Marker.digits?_front (List.cons_ne_nil b t)]
      have hnone := hapart.digits?_none hn h h' ((hfront ν).trans (hfront ν').symm)
      obtain ⟨u, rfl, hu⟩ := (expands_cons hnone).mp h
      obtain ⟨u', rfl, hu'⟩ := (expands_cons ((hfront ν').trans ((hfront ν).symm.trans hnone))).mp h'
      have hhere := (hfront μ).trans ((hfront ν).symm.trans hnone)
      exact (expands_cons hhere).mpr ⟨u, rfl, iht hu hu'⟩

end Markers

/-! ## Logs -/

/-- Nothing was reported. -/
def Silent {σ : Type} [Dressed σ] (s s' : σ) : Prop := (draft s').log = (draft s).log

section Silent

variable {σ α : Type} [Dressed σ]

instance : Std.Refl (Silent (σ := σ)) := ⟨fun _ => rfl⟩

instance : IsTrans σ Silent := ⟨fun _ _ _ h h' => h'.trans h⟩

instance {w : Work Draft α} [hw : Keeps Silent w] : Keeps Silent (liftM w : Work Session α) where
  keeps hrun := by
    obtain ⟨d, hd, rfl⟩ := Session.lift_ok hrun
    exact hw.keeps hd

instance (path preferred : Text) : Keeps Silent (Draft.importPackage path preferred) :=
  ⟨fun hrun => by cases hrun; rfl⟩

instance (t : TypeId) : Keeps Silent (Draft.typeRef t) := ⟨fun hrun => by cases hrun; rfl⟩

instance : Keeps Silent Draft.bundleDeclarations := by
  unfold Draft.bundleDeclarations
  refine Keeps.bind' inferInstance fun d => ?_
  dsimp only
  split
  · infer_instance
  · refine Keeps.bind' (Keeps.mapM' fun s => ?_) fun _ => inferInstance
    refine Keeps.bind' inferInstance fun generated => ?_
    split <;> infer_instance

namespace Assembly

instance (f : Field) : Keeps Silent (fieldType f) := by
  unfold fieldType
  split
  · infer_instance
  · split <;> infer_instance

instance (fields : List Field) : Keeps Silent (checkNames fields) := ⟨fun hrun => by
  rw [(checkNames_ok hrun).1]
  exact Std.Refl.refl _⟩

instance (settings : Settings) (url binderName : Text) (root : FieldId) :
    Keeps Silent (assemble settings url binderName root) := by
  have howner : Keeps Silent ownerType := by
    unfold ownerType
    refine Keeps.bind' inferInstance fun s => ?_
    split <;> infer_instance
  have hattach : ∀ sections, Keeps Silent (attachLines sections) := fun sections => by
    unfold attachLines uiFunction
    infer_instance
  have hframe : ∀ table, Keeps Silent (frame settings url binderName root table) := fun table => by
    unfold frame
    refine Keeps.bind' inferInstance fun rootType => Keeps.bind' howner fun ownerType => ?_
    refine Keeps.bind' inferInstance fun declarations => Keeps.bind' inferInstance fun s => ?_
    refine Keeps.bind' (hattach _) fun attach => ?_
    infer_instance
  rw [assemble_eq]
  refine Keeps.bind' inferInstance fun s => ?_
  unfold assembleFrom
  infer_instance

end Assembly

end Silent

/-! ## Whole templates -/

/-- The text of the program, if there is one. -/
def Outcome.text? (o : Outcome) : Option Text := o.answer.toOption.map (·.text)

theorem Outcome.exists_of_text? {o : Outcome} (h : o.text?.isSome) :
    ∃ compiled, o.answer = .ok compiled := by
  rcases o with ⟨failure | compiled, _, _⟩
  · cases h
  · exact ⟨compiled, rfl⟩

namespace Template

/-- What is left to do before a program is written. -/
def assembleAfter (t : Template) (settings : Settings) (f : FieldId) : Work Session Program := do
  Draft.settleReferences
  failIfReported
  Assembly.assemble settings t.url (t.name settings) f

theorem draws_assembleAfter (t : Template) (settings : Settings) (f : FieldId) :
    Draws (n := n) Any (fun _ => t.assembleAfter settings f) Program.Alike :=
  .after Draft.draws_settleReferences.lift fun _ => .after Blind.draws fun _ =>
    Assembly.draws_assemble settings t.url (t.name settings) f

theorem alike_opened (t : Template) (c : Catalog) (settings : Settings) (d : Document) :
    Alike fun ν : Numbering n => t.opened settings (t.start c settings ν.supply d) :=
  ⟨fun ν => ⟨ν.supply, [], 0⟩, fun _ => {}, t.opened settings (t.start c settings id d),
    ⟨[], 0, List.forall_mem_nil _, rfl⟩, ⟨{}, _, _, Each.nil, Each.nil, rfl⟩, rfl⟩

/-- Writes a program. -/
def write (settings : Settings) (p : Program) : Work Session Compiled := do
  let text ← weave p
  let text := if settings.format then Layout.format text else text
  return ⟨p, text, (← get).log.warnings⟩

theorem runOn_stages (t : Template) (settings : Settings) (s : Session) :
    (t.compileDocument settings).runOn s = (do
      let f ← gather 0
      let p ← t.assembleAfter settings f
      write settings p : Work Session Compiled).runOn (t.opened settings s) := by
  rw [runOn_opened]
  unfold read finish assembleAfter write
  simp only [bind_assoc, pure_bind]

/-- As long as all markers are made for references, all numberings lead to the same program but for
its markers. -/
theorem alike_assembled {t : Template} {c : Catalog} {settings : Settings} {d : Document}
    {ν : Numbering n} {f : FieldId} {p : Program} {gathered assembled : Session}
    (hgather : (gather 0).runOn (t.opened settings (t.start c settings ν.supply d)) =
      (.ok f, gathered))
    (hassemble : (t.assembleAfter settings f).runOn gathered = (.ok p, assembled))
    (hallowed : ∀ entry ∈ gathered.markers.entries, entry.2.IsReference)
    (hrefers : (draft assembled).Refers n Any) :
    ∃ P S, Program.Alike P ∧ Alike S ∧ ∀ ν : Numbering n, ∃ gathered,
      (gather 0).runOn (t.opened settings (t.start c settings ν.supply d)) = (.ok f, gathered) ∧
        (t.assembleAfter settings f).runOn gathered = (.ok (P ν), S ν) := by
  have hdraws := draws_assembleAfter (n := n) t settings f
  have hbefore := (hdraws.back ν).keeps hassemble hrefers
  have hgathered : (draft gathered).Refers n MarkerEntry.IsReference :=
    ⟨hbefore.few, hallowed, hbefore.calm, hbefore.names⟩
  obtain ⟨A, S, hS, ⟨a, rfl⟩, hall⟩ :=
    (Blind.draws (w := gather 0)).draws (alike_opened t c settings d) hgather hgathered
  have hhere := (hall ν).symm.trans hgather
  obtain ⟨ha, hsame⟩ := Prod.mk.inj hhere
  cases ha
  subst hsame
  obtain ⟨P, S', hS', hP, hall'⟩ := hdraws.draws hS hassemble hrefers
  exact ⟨P, S', hP, hS', fun ν => ⟨S ν, hall ν, hall' ν⟩⟩

/-- A program that is woven under two numberings apart is woven to the same text under all. -/
theorem weave_alike {P : Numbering n → Program} {S : Numbering n → Session} (hP : Program.Alike P)
    (hS : Alike S) {ν ν' : Numbering n} (hapart : Markers.Apart ν ν')
    (hfew : (S ν).markers.size ≤ n) {text text' : Text} {s s' : Session}
    (h : (weave (P ν)).runOn (S ν) = (.ok text, s))
    (h' : (weave (P ν')).runOn (S ν') = (.ok text', s')) (μ : Numbering n) :
    ∃ k, (weave (P μ)).runOn (S μ) =
      (.ok text, { S μ with markers := { (S μ).markers with woven := k } }) := by
  obtain ⟨M, T, s₀, ⟨entries, woven, hknown, rfl⟩, hT, rfl⟩ := hS
  have hn : entries.length ≤ n := (List.length_mapIdx (l := entries)).symm.trans_le hfew
  have hfixed : ∀ μ : Numbering n, (Markers.under μ entries woven).Fixed := fun μ e he => by
    obtain ⟨k, hk, rfl⟩ := List.mem_mapIdx.mp he
    exact hknown _ (List.getElem_mem hk)
  have hsmall : (Markers.under μ entries woven).Small := fun e he => by
    obtain ⟨k, hk, rfl⟩ := List.mem_mapIdx.mp he
    exact μ.small k (Nat.lt_of_lt_of_le hk hn)
  obtain ⟨hplain, m, hweave, -⟩ := weave_ok_iff.mp h
  obtain ⟨-, m', hweave', -⟩ := weave_ok_iff.mp h'
  have hexpands := hapart.expands hn hP.render (Markers.weave_expands (hfixed ν) hweave).2
    (Markers.weave_expands (hfixed ν') hweave').2 μ
  obtain ⟨k, hwoven⟩ := Markers.weave_of_expands hsmall hexpands
  exact ⟨k, weave_ok_iff.mpr ⟨hplain, _, hwoven, rfl⟩⟩

/-- A template is written in stages. -/
theorem runOn_ok_iff {t : Template} {settings : Settings} {compiled : Compiled} {s s' : Session} :
    (t.compileDocument settings).runOn s = (.ok compiled, s') ↔
      ∃ f gathered p assembled text,
        (gather 0).runOn (t.opened settings s) = (.ok f, gathered) ∧
        (t.assembleAfter settings f).runOn gathered = (.ok p, assembled) ∧
        (weave p).runOn assembled = (.ok text, s') ∧
        compiled = ⟨p, if settings.format then Layout.format text else text, s'.log.warnings⟩ := by
  rw [runOn_stages]
  constructor
  · intro h
    obtain ⟨f, gathered, hgather, h⟩ := Work.bind_ok h
    obtain ⟨p, assembled, hassemble, h⟩ := Work.bind_ok h
    obtain ⟨text, s', hweave, h⟩ := Work.bind_ok h
    obtain ⟨_, _, hget, h⟩ := Work.bind_ok h
    cases hget
    cases h
    exact ⟨f, gathered, p, assembled, text, hgather, hassemble, hweave, rfl⟩
  · rintro ⟨f, gathered, p, assembled, text, hgather, hassemble, hweave, rfl⟩
    rw [Work.runOn_bind, hgather]
    dsimp only
    rw [Work.runOn_bind, hassemble]
    dsimp only
    unfold write
    rw [Work.runOn_bind, hweave]
    rfl

/-- No error was reported when a program is put together. -/
theorem calm_assembleAfter {t : Template} {settings : Settings} {f : FieldId} {p : Program}
    {s s' : Session} (h : (t.assembleAfter settings f).runOn s = (.ok p, s')) :
    s'.log.failure? = none := by
  obtain ⟨_, settled, -, h⟩ := Work.bind_ok h
  obtain ⟨_, checked, hfail, h⟩ := Work.bind_ok h
  have hsilent : Silent checked s' := Keeps.keeps h
  unfold failIfReported at hfail
  obtain ⟨_, _, hget, hfail⟩ := Work.bind_ok hfail
  cases hget
  split at hfail
  · cases hfail
  · rename_i hcalm
    cases hfail
    rwa [show s'.log = settled.log from hsilent]

/-- Where a template compiles under two numberings that have no number in common, it has the same
text and the same reports under all, if the markers made before it is put together are for
references. -/
theorem runOn_apart {t : Template} {c : Catalog} {settings : Settings} {d : Document}
    {ν ν' μ : Numbering n} {compiled compiled' : Compiled} {s s' : Session}
    (hapart : Markers.Apart ν ν')
    (hrefers : ∀ f s, (gather 0).runOn (t.opened settings (t.start c settings ν.supply d)) =
      (.ok f, s) → (∀ e, (d.name e).base ≠ "Dock") ∧ ∀ entry ∈ s.markers.entries, entry.2.IsReference)
    (hrun : (t.compileDocument settings).runOn (t.start c settings ν.supply d) = (.ok compiled, s))
    (hsize : s.markers.size ≤ n)
    (hrun' : (t.compileDocument settings).runOn (t.start c settings ν'.supply d) =
      (.ok compiled', s')) :
    ∃ compiled'' s'', (t.compileDocument settings).runOn (t.start c settings μ.supply d) =
        (.ok compiled'', s'') ∧ compiled''.text = compiled.text ∧ s''.log = s.log ∧
        s''.markers.size = s.markers.size := by
  obtain ⟨f, gathered, p, assembled, text, hgather, hassemble, hweave, rfl⟩ := runOn_ok_iff.mp hrun
  obtain ⟨f', gathered', p', assembled', text', hgather', hassemble', hweave', rfl⟩ :=
    runOn_ok_iff.mp hrun'
  obtain ⟨hnames, hallowed⟩ := hrefers f gathered hgather
  have hfew : assembled.markers.size ≤ n := by
    have hgrows := Work.Follows.grows (w := weave p) assembled
    rw [hweave] at hgrows
    exact hgrows.trans hsize
  have hassembled : (draft assembled).Refers n Any := by
    refine ⟨hfew, fun _ _ => trivial, calm_assembleAfter hassemble, fun e => ?_⟩
    obtain ⟨-, m, -, rfl⟩ := weave_ok_iff.mp hweave
    have hname := (compileDocument_finished hrun).1.shape.name e
    exact fun hdock => hnames e ((congrArg Markup.Name.base hname).symm.trans hdock)
  obtain ⟨P, S, hP, hS, hruns⟩ := alike_assembled hgather hassemble hallowed hassembled
  obtain ⟨_, hgathered, hhere⟩ := hruns ν
  cases hgather.symm.trans hgathered
  cases hassemble.symm.trans hhere
  obtain ⟨_, hgathered', hhere'⟩ := hruns ν'
  cases hgather'.symm.trans hgathered'
  cases hassemble'.symm.trans hhere'
  obtain ⟨k, hwoven⟩ := weave_alike hP hS hapart hfew hweave hweave' ν
  obtain ⟨k', hwoven'⟩ := weave_alike hP hS hapart hfew hweave hweave' μ
  cases hweave.symm.trans hwoven
  obtain ⟨_, hgatheredμ, hassembledμ⟩ := hruns μ
  exact ⟨_, _, runOn_ok_iff.mpr ⟨f, _, _, _, text, hgatheredμ, hassembledμ, hwoven', rfl⟩, rfl,
    hS.log μ ν, hS.size μ ν⟩

/-- A template whose numbers do not show. All of its markers are made for references in attributes
of widgets, none for an expression in markup, and there is no cell of a dock, whose direction is read
as a pattern. It compiles when its markers are numbered from one on, and also with the numbers behind
those. -/
structure Discreet (t : Template) (c : Catalog) (settings : Settings) : Prop where
  refers : ∀ d f s, Document.load t.source t.url = .ok d →
    (gather 0).runOn (t.opened settings (t.start c settings (· + 1) d)) = (.ok f, s) →
      (∀ e, (d.name e).base ≠ "Dock") ∧ ∀ entry ∈ s.markers.entries, entry.2.IsReference
  small : 2 * (t.compile c settings).markers ≤ Marker.maxId
  compiles : (t.compile c settings).text?.isSome
  compilesBehind :
    (t.compileWith (· + (t.compile c settings).markers + 1) c settings).text?.isSome

/-- What becomes of a discreet template is the same whatever numbers its markers have. -/
theorem Discreet.compileWith {t : Template} {c : Catalog} {settings : Settings}
    (h : t.Discreet c settings) (ν : Numbering (t.compile c settings).markers) :
    (t.compileWith ν.supply c settings).text? = (t.compile c settings).text? ∧
      (t.compileWith ν.supply c settings).log = (t.compile c settings).log ∧
      (t.compileWith ν.supply c settings).markers = (t.compile c settings).markers := by
  obtain ⟨hrefers, hsmall, hcompiles, hbehind⟩ := h
  obtain ⟨compiled, hcompiled⟩ := Outcome.exists_of_text? hcompiles
  obtain ⟨compiled', hcompiled'⟩ := Outcome.exists_of_text? hbehind
  obtain ⟨d, hload, hall⟩ := compileWith_of_ok hcompiled
  have hone : t.compile c settings = _ := hall (· + 1)
  rcases hrun : (t.compileDocument settings).runOn (t.start c settings (· + 1) d) with ⟨answer, s⟩
  rw [hrun] at hone
  generalize hn : (t.compile c settings).markers = n at ν hsmall hcompiled' ⊢
  have hsize : s.markers.size = n := by rw [← hn, hone]
  rw [hone] at hcompiled
  cases hcompiled
  rw [hall] at hcompiled'
  rcases hrun' : (t.compileDocument settings).runOn (t.start c settings (· + n + 1) d) with
    ⟨answer', s'⟩
  rw [hrun'] at hcompiled'
  cases hcompiled'
  have hfirst : 0 + n ≤ Marker.maxId := by omega
  have hsecond : n + n ≤ Marker.maxId := by omega
  obtain ⟨compiled'', s'', hthere, htext, hlog, hsizes⟩ := runOn_apart (μ := ν)
    (Markers.apart_behind hfirst hsecond) (fun f s => hrefers d f s hload) hrun
    (Nat.le_of_eq hsize) hrun'
  rw [hall, hthere, hone]
  exact ⟨congrArg some htext, hlog, hsizes.trans hsize⟩

/-- A test whether a template is discreet. -/
def looksDiscreet (t : Template) (c : Catalog) (settings : Settings) : Bool :=
  t.succeeds (fun d => (gather 0).runOn (t.opened settings (t.start c settings (· + 1) d)))
      (fun d _ s => d.nodes.all (·.name.base != "Dock") &&
        s.markers.entries.all fun entry => decide entry.2.IsReference) &&
    decide (2 * (t.compile c settings).markers ≤ Marker.maxId) &&
    (t.compile c settings).text?.isSome &&
    (t.compileWith (· + (t.compile c settings).markers + 1) c settings).text?.isSome

theorem discreet_of_looksDiscreet {t : Template} {c : Catalog} {settings : Settings}
    (h : t.looksDiscreet c settings = true) : t.Discreet c settings := by
  unfold looksDiscreet at h
  simp only [Bool.and_eq_true, decide_eq_true_eq] at h
  obtain ⟨⟨⟨hgathers, hsmall⟩, hcompiles⟩, hbehind⟩ := h
  refine ⟨fun d f s hload hgather => ?_, hsmall, hcompiles, hbehind⟩
  obtain ⟨d', f', s', hload', hgather', htest⟩ := exists_of_succeeds hgathers
  cases hload'.symm.trans hload
  cases hgather'.symm.trans hgather
  simp only [Bool.and_eq_true, List.all_eq_true, decide_eq_true_eq] at htest
  refine ⟨fun e => ?_, fun entry hentry => htest.2 entry hentry⟩
  show (d.node e).name.base ≠ "Dock"
  unfold Document.node
  rcases hnode : d.nodes[e]? with _ | x
  · show ([] : Text) ≠ "Dock"
    decide
  · have hmem := Array.mem_of_getElem? hnode
    exact bne_iff_ne.mp (Array.all_eq_true'.mp htest.1 x hmem)

end Template

end ViewBinder
