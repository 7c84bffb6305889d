-- Lists and texts. Sorted values come out in order, none is lost and none is added. A run is the
-- longest front of a text whose bytes pass a test; behind it the text ends or a byte stands that does
-- not pass. What passes is checked byte by byte.
import Mathlib.Data.List.Basic
import Mathlib.Data.List.Sort
import ViewBinder.Text.Basic

namespace ViewBinder

/-- What a test finds of each value of a list, one after the other. -/
theorem forall_of_all {α : Type} {p : α → Prop} [DecidablePred p] {xs : List α}
    (h : (xs.all fun a => decide (p a)) = true) : ∀ a ∈ xs, p a :=
  fun a ha => of_decide_eq_true (List.all_eq_true.mp h a ha)

/-! ## Sorting -/

section Sorting

variable {α : Type} (le : α → α → Bool)

theorem insertBy_eq_orderedInsert (a : α) (xs : List α) :
    insertBy le a xs = xs.orderedInsert (fun a b => le a b = true) a := by
  induction xs with
  | nil => rfl
  | cons b rest ih =>
    simp only [insertBy, List.orderedInsert, ih]

theorem sortBy_eq_insertionSort (xs : List α) :
    sortBy le xs = xs.insertionSort (fun a b => le a b = true) := by
  induction xs with
  | nil => rfl
  | cons a rest ih =>
    show insertBy le a (sortBy le rest) = _
    rw [insertBy_eq_orderedInsert, ih]
    rfl

theorem sortBy_perm (xs : List α) : (sortBy le xs).Perm xs := by
  rw [sortBy_eq_insertionSort]
  exact List.perm_insertionSort _ xs

theorem sortBy_pairwise [Std.Total fun a b => le a b = true] [IsTrans α fun a b => le a b = true]
    (xs : List α) : (sortBy le xs).Pairwise fun a b => le a b = true := by
  rw [sortBy_eq_insertionSort]
  exact List.pairwise_insertionSort _ xs

end Sorting

/-! ## Runs -/

section Runs

variable {α : Type} {p : α → Bool} {xs rest : List α}

theorem takeWhile_append_drop (p : α → Bool) (xs : List α) :
    xs.takeWhile p ++ xs.drop (xs.takeWhile p).length = xs :=
  List.prefix_iff_eq_append.mp (List.takeWhile_prefix p)

theorem drop_takeWhile (p : α → Bool) (xs : List α) :
    xs.drop (xs.takeWhile p).length = xs.dropWhile p := by
  have hsame : xs.takeWhile p ++ xs.drop (xs.takeWhile p).length =
      xs.takeWhile p ++ xs.dropWhile p := by
    rw [takeWhile_append_drop, List.takeWhile_append_dropWhile]
  exact List.append_cancel_left hsame

theorem takeWhile_eq_nil_iff : xs.takeWhile p = [] ↔ ∀ a ∈ xs.head?, p a = false := by
  cases xs <;> simp [List.takeWhile_cons]

theorem dropWhile_eq_self (h : ∀ a ∈ rest.head?, p a = false) : rest.dropWhile p = rest := by
  cases rest with
  | nil => rfl
  | cons a rest => simp [h a rfl]

theorem head?_stops {a : α} (ha : p a = false) (xs : List α) :
    ∀ b ∈ (a :: xs).head?, p b = false := by
  simpa using ha

/-- A run ends where no more passes. -/
theorem takeWhile_run (hxs : xs.all p = true) (hrest : ∀ a ∈ rest.head?, p a = false) :
    (xs ++ rest).takeWhile p = xs := by
  rw [List.takeWhile_append_of_pos (List.all_eq_true.mp hxs),
    takeWhile_eq_nil_iff.mpr hrest, List.append_nil]

theorem dropWhile_run (hxs : xs.all p = true) (hrest : ∀ a ∈ rest.head?, p a = false) :
    (xs ++ rest).dropWhile p = rest := by
  rw [List.dropWhile_append_of_pos (List.all_eq_true.mp hxs), dropWhile_eq_self hrest]

/-- Behind a run stands nothing that passes. -/
theorem head?_dropWhile (p : α → Bool) (xs : List α) : ∀ a ∈ (xs.dropWhile p).head?, p a = false := by
  intro a ha
  have := List.head?_dropWhile_not p xs
  rw [Option.mem_def.mp ha] at this
  simpa using this

end Runs

/-! ## Bytes -/

namespace Text

/-- What holds of every byte, looked at by its two hexadecimal digits. -/
def allBytes (p : UInt8 → Bool) : Bool :=
  (List.range 16).all fun i => (List.range 16).all fun j => p (UInt8.ofNat (16 * i + j))

theorem forall_byte {P : UInt8 → Prop} [DecidablePred P] (h : allBytes (P ·) = true) (b : UInt8) :
    P b := by
  have hb := List.all_eq_true.mp (List.all_eq_true.mp h (b.toNat / 16)
    (List.mem_range.mpr (Nat.div_lt_of_lt_mul b.toNat_lt))) (b.toNat % 16)
    (List.mem_range.mpr (Nat.mod_lt _ (by decide)))
  rw [Nat.div_add_mod, UInt8.ofNat_toNat] at hb
  exact of_decide_eq_true hb

theorem startsWith_one (b c : UInt8) (t : Text) : startsWith (b :: t) [c] = (c == b) := by
  simp [startsWith, List.isPrefixOf]

theorem startsWith_one_iff {b : UInt8} {t : Text} :
    startsWith t [b] = true ↔ t.head? = some b := by
  cases t with
  | nil => simp [startsWith]
  | cons c t =>
    rw [startsWith_one, beq_iff_eq, List.head?_cons, Option.some.injEq]
    exact eq_comm

end Text

end ViewBinder
