-- Values under different numberings of the markers. A text is drawn if it is the same under all of
-- them but for the numbers of its markers. What puts texts together puts drawn texts together to a
-- drawn text; only what reads the bytes of a text could tell the numbers.
import ViewBinder.Proofs.Marker.Expand
import ViewBinder.Proofs.Text.Word

namespace ViewBinder

/-- Numbers for up to `n` markers: no two are the same, and none is too large for a marker. -/
structure Numbering (n : Nat) where
  supply : Nat → Nat
  injective : ∀ k < n, ∀ l < n, supply k = supply l → k = l
  small : ∀ k < n, supply k ≤ Marker.maxId

variable {n : Nat} {α β : Type}

/-- The numbers for fewer markers. -/
def Numbering.restrict {m : Nat} (ν : Numbering n) (h : m ≤ n) : Numbering m :=
  ⟨ν.supply, fun k hk l hl => ν.injective k (Nat.lt_of_lt_of_le hk h) l (Nat.lt_of_lt_of_le hl h),
    fun k hk => ν.small k (Nat.lt_of_lt_of_le hk h)⟩

/-- The numbers behind the first `m`. -/
def Numbering.behind (m : Nat) (h : m + n ≤ Marker.maxId) : Numbering n :=
  ⟨(· + m + 1), fun _ _ _ _ heq => by omega, fun _ _ => by omega⟩

/-- The marker at a place. -/
def Numbering.marker (ν : Numbering n) (k : Nat) : Text := Marker.text (ν.supply k)

/-! ## Values under all numberings -/

/-- A kind of values under all numberings, to which belong those that are the same under each. -/
class Kind (Q : (Numbering n → α) → Prop) : Prop where
  plain : ∀ a, Q fun _ => a

/-- The value is the same under all numberings. -/
def Same (A : Numbering n → α) : Prop := ∃ a, A = fun _ => a

instance : Kind (Same (n := n) (α := α)) := ⟨fun a => ⟨a, rfl⟩⟩

/-- There is a value of a kind under all numberings, or under none. -/
inductive Maybe (Q : (Numbering n → α) → Prop) : (Numbering n → Option α) → Prop
  | none : Maybe Q fun _ => none
  | some {A : Numbering n → α} : Q A → Maybe Q fun ν => some (A ν)

instance {Q : (Numbering n → α) → Prop} [hQ : Kind Q] : Kind (Maybe Q) where
  plain
    | none => .none
    | some a => .some (hQ.plain a)

/-- Two values, each of its kind. -/
def Both (Q : (Numbering n → α) → Prop) (Q' : (Numbering n → β) → Prop)
    (F : Numbering n → α × β) : Prop :=
  ∃ A B, Q A ∧ Q' B ∧ F = fun ν => (A ν, B ν)

instance {Q : (Numbering n → α) → Prop} {Q' : (Numbering n → β) → Prop} [hQ : Kind Q]
    [hQ' : Kind Q'] : Kind (Both Q Q') :=
  ⟨fun (a, b) => ⟨_, _, hQ.plain a, hQ'.plain b, rfl⟩⟩

/-- Lists whose values at each place are of a kind. -/
def Each (Q : (Numbering n → α) → Prop) (L : Numbering n → List α) : Prop :=
  ∃ as : List (Numbering n → α), (∀ A ∈ as, Q A) ∧ L = fun ν => as.map (· ν)

namespace Each

variable {Q : (Numbering n → α) → Prop} {Q' : (Numbering n → β) → Prop}
  {A : Numbering n → α} {L K : Numbering n → List α}

theorem nil : Each Q fun _ => [] := ⟨[], nofun, rfl⟩

theorem cons (hA : Q A) (hL : Each Q L) : Each Q fun ν => A ν :: L ν := by
  obtain ⟨as, has, rfl⟩ := hL
  exact ⟨A :: as, List.forall_mem_cons.mpr ⟨hA, has⟩, rfl⟩

theorem one (hA : Q A) : Each Q fun ν => [A ν] := cons hA nil

theorem append (hL : Each Q L) (hK : Each Q K) : Each Q fun ν => L ν ++ K ν := by
  obtain ⟨as, has, rfl⟩ := hL
  obtain ⟨bs, hbs, rfl⟩ := hK
  exact ⟨as ++ bs, List.forall_mem_append.mpr ⟨has, hbs⟩, funext fun _ => List.map_append.symm⟩

instance [hQ : Kind Q] : Kind (Each Q) where
  plain l := by
    refine ⟨l.map fun a _ => a, fun A hA => ?_, funext fun _ => ?_⟩
    · obtain ⟨a, -, rfl⟩ := List.mem_map.mp hA
      exact hQ.plain a
    · rw [List.map_map]
      exact (List.map_id l).symm

theorem map {f : Numbering n → α → β} (hf : ∀ A, Q A → Q' fun ν => f ν (A ν)) (hL : Each Q L) :
    Each Q' fun ν => (L ν).map (f ν) := by
  obtain ⟨as, has, rfl⟩ := hL
  refine ⟨as.map fun A ν => f ν (A ν), fun B hB => ?_, funext fun ν => ?_⟩
  · obtain ⟨A, hA, rfl⟩ := List.mem_map.mp hB
    exact hf A (has A hA)
  · rw [List.map_map, List.map_map]
    rfl

theorem flatMap {f : α → List β} (hf : ∀ A, Q A → Each Q' fun ν => f (A ν)) (hL : Each Q L) :
    Each Q' fun ν => (L ν).flatMap f := by
  obtain ⟨as, has, rfl⟩ := hL
  induction as with
  | nil => exact nil
  | cons A as ih =>
    obtain ⟨hA, hrest⟩ := List.forall_mem_cons.mp has
    exact (hf A hA).append (ih hrest)

/-- The values that are there. -/
theorem found {L : Numbering n → List (Option α)} (hL : Each (Maybe Q) L) :
    Each Q fun ν => (L ν).filterMap id := by
  obtain ⟨as, has, rfl⟩ := hL
  induction as with
  | nil => exact nil
  | cons A as ih =>
    obtain ⟨hA, hrest⟩ := List.forall_mem_cons.mp has
    cases hA with
    | none => exact ih hrest
    | some hA => exact cons hA (ih hrest)

/-- Values with their places. -/
theorem zipIdx (hL : Each Q L) : Each (Both Q Same) fun ν => (L ν).zipIdx := by
  have hfrom : ∀ (as : List (Numbering n → α)) (k : Nat), (∀ A ∈ as, Q A) →
      Each (Both Q Same) fun ν => (as.map (· ν)).zipIdx k := by
    intro as
    induction as with
    | nil => exact fun _ _ => nil
    | cons A as ih =>
      intro k has
      obtain ⟨hA, hrest⟩ := List.forall_mem_cons.mp has
      exact cons ⟨A, _, hA, ⟨k, rfl⟩, rfl⟩ (ih (k + 1) hrest)
  obtain ⟨as, has, rfl⟩ := hL
  exact hfrom as 0 has

end Each

theorem Maybe.toList {Q : (Numbering n → α) → Prop} {A : Numbering n → Option α} (hA : Maybe Q A) :
    Each Q fun ν => (A ν).toList := by
  cases hA with
  | none => exact Each.nil
  | some hA => exact Each.one hA

/-! ## Drawn texts -/

/-- The text is the same under all numberings but for the numbers of its markers. -/
inductive Drawn : (Numbering n → Text) → Prop
  | plain (t : Text) : Drawn fun _ => t
  | marked (t : Text) {k : Nat} {rest : Numbering n → Text} : k < n → Drawn rest →
      Drawn fun ν => t ++ (ν.marker k ++ rest ν)

instance : Kind (Drawn (n := n)) := ⟨.plain⟩

namespace Drawn

variable {F G : Numbering n → Text}

theorem marker {k : Nat} (hk : k < n) : Drawn fun ν : Numbering n => ν.marker k := by
  have h := marked [] hk (plain [])
  simpa only [List.nil_append, List.append_nil] using h

theorem append (hF : Drawn F) (hG : Drawn G) : Drawn fun ν => F ν ++ G ν := by
  induction hF with
  | plain t =>
    cases hG with
    | plain u => exact plain (t ++ u)
    | marked u hk hrest =>
      have h := marked (t ++ u) hk hrest
      simpa only [List.append_assoc] using h
  | marked t hk _ ih =>
    have h := marked t hk ih
    simpa only [List.append_assoc] using h

theorem flatMap {L : Numbering n → List Text} (hL : Each Drawn L) {f : Numbering n → Text → Text}
    (hf : ∀ F, Drawn F → Drawn fun ν => f ν (F ν)) : Drawn fun ν => (L ν).flatMap (f ν) := by
  obtain ⟨as, has, rfl⟩ := hL
  induction as with
  | nil => exact plain []
  | cons A as ih =>
    obtain ⟨hA, hrest⟩ := List.forall_mem_cons.mp has
    exact (hf A hA).append (ih hrest)

theorem join (glue : Text) {L : Numbering n → List Text} (hL : Each Drawn L) :
    Drawn fun ν => Text.join glue (L ν) := by
  obtain ⟨as, has, rfl⟩ := hL
  cases as with
  | nil => exact plain _
  | cons A as =>
    obtain ⟨hA, hrest⟩ := List.forall_mem_cons.mp has
    simp only [List.map_cons, Text.join_cons]
    exact hA.append (flatMap ⟨as, hrest, rfl⟩ fun F hF => (plain glue).append hF)

/-- A drawn text is empty under all numberings or under none. -/
theorem empty_or (hF : Drawn F) : (F = fun _ => []) ∨ ∀ ν, (F ν).isEmpty = false := by
  cases hF with
  | plain t =>
    cases t with
    | nil => exact .inl rfl
    | cons b t => exact .inr fun _ => rfl
  | @marked t k rest _ _ =>
    refine .inr fun ν => List.isEmpty_eq_false_iff.mpr fun hnil => ?_
    have hmarker : ν.marker k ≠ [] := nofun
    exact hmarker (List.append_eq_nil_iff.mp (List.append_eq_nil_iff.mp hnil).2).1

/-- The texts that are not empty. -/
theorem nonempty {L : Numbering n → List Text} (hL : Each Drawn L) :
    Each Drawn fun ν => (L ν).filter (!·.isEmpty) := by
  obtain ⟨as, has, rfl⟩ := hL
  induction as with
  | nil => exact Each.nil
  | cons A as ih =>
    obtain ⟨hA, hrest⟩ := List.forall_mem_cons.mp has
    rcases hA.empty_or with rfl | hfull
    · exact ih hrest
    · simp only [List.map_cons, List.filter_cons, hfull, Bool.not_false, if_true]
      exact Each.cons hA (ih hrest)

/-! ## Parts replaced -/

/-- A part without a dash is not looked for beyond a dash. -/
theorem isPrefixOf_dash {part t u : Text} (hdash : '-'.toUInt8 ∉ part) :
    part.isPrefixOf (t ++ '-'.toUInt8 :: u) = part.isPrefixOf t := by
  rw [Bool.eq_iff_iff, List.isPrefixOf_iff_prefix, List.isPrefixOf_iff_prefix]
  exact ⟨fun h => Marker.prefix_of_append h hdash, fun h => h.trans (List.prefix_append _ _)⟩

theorem replaceFrom_dash {part new t u : Text} (hdash : '-'.toUInt8 ∉ part) {skip : Nat}
    (hskip : skip ≤ t.length) :
    Text.replaceFrom part new skip (t ++ '-'.toUInt8 :: u) =
      Text.replaceFrom part new skip t ++ Text.replaceFrom part new 0 ('-'.toUInt8 :: u) := by
  induction t generalizing skip with
  | nil =>
    rw [Nat.le_zero.mp hskip]
    rfl
  | cons b t ih =>
    cases skip with
    | succ skip => exact ih (Nat.le_of_succ_le_succ hskip)
    | zero =>
      rw [List.cons_append, Text.replaceFrom, Text.replaceFrom, ← List.cons_append,
        isPrefixOf_dash hdash]
      split
      · rename_i hpart
        have hlength := (List.isPrefixOf_iff_prefix.mp hpart).length_le
        rw [List.length_cons] at hlength
        rw [ih (by omega), List.append_assoc]
      · rw [ih (Nat.zero_le _), List.cons_append]

/-- A part whose first byte is nowhere in front is looked for behind that. -/
theorem replaceFrom_front {first : UInt8} {part new t u : Text} (hfirst : first ∉ t) :
    Text.replaceFrom (first :: part) new 0 (t ++ u) =
      t ++ Text.replaceFrom (first :: part) new 0 u := by
  induction t with
  | nil => rfl
  | cons b t ih =>
    rw [List.mem_cons, not_or] at hfirst
    rw [List.cons_append, Text.replaceFrom, List.isPrefixOf_cons_cons, beq_false_of_ne hfirst.1,
      Bool.false_and, if_neg Bool.false_ne_true, ih hfirst.2, List.cons_append]

/-- A part that no marker can overlap is replaced in what is plain. -/
theorem replaceAll {first : UInt8} {part new : Text} (hfirst : Marker.breaks first = true)
    (hdash : '-'.toUInt8 ∉ first :: part) (hF : Drawn F) :
    Drawn fun ν => Text.replaceAll (F ν) (first :: part) new := by
  induction hF with
  | plain t => exact plain _
  | @marked t k rest hk _ ih =>
    have hfront : ∀ ν : Numbering n, ∃ u, ν.marker k = '-'.toUInt8 :: u := fun _ => ⟨_, rfl⟩
    have hmarker : ∀ ν : Numbering n, first ∉ ν.marker k := fun ν =>
      Marker.notMem_of_breaks hfirst (Text.isDigitByte_ofNat _).2
    have hreplaced : ∀ ν : Numbering n, Text.replaceAll (t ++ (ν.marker k ++ rest ν)) (first :: part)
        new = Text.replaceAll t (first :: part) new ++
          (ν.marker k ++ Text.replaceAll (rest ν) (first :: part) new) := by
      intro ν
      obtain ⟨u, hu⟩ := hfront ν
      unfold Text.replaceAll
      rw [hu, List.cons_append, replaceFrom_dash hdash (Nat.zero_le _), ← List.cons_append, ← hu,
        replaceFrom_front (hmarker ν)]
    simp only [hreplaced]
    exact marked _ hk ih

end Drawn

end ViewBinder
