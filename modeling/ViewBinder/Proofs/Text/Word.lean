-- Names in the lines of a program. A line reads a name where the name stands as a word of its own,
-- is no member of something else and is not what the line assigns to. Calls read their arguments,
-- and they still do when the markers around them are replaced.
import ViewBinder.Proofs.Marker.Expand
import ViewBinder.Proofs.Text.Identifier

namespace ViewBinder

namespace Text

/-! ## Reading a name -/

/-- A byte that may belong to a name, in any script. -/
def isNameByte (b : UInt8) : Bool := isNamePart b.toNat || 0x80 ≤ b

/-- The name stands at a place of the line, where it is read. -/
def readsAt (name line : Text) (i : Nat) : Bool :=
  startsWith (line.drop i) name &&
    (line.take i).getLast?.all (fun b => !isNameByte b && b != '.'.toUInt8) &&
    (line.drop (i + name.length)).head?.all (fun b => !isNameByte b) &&
    !(i == 0 && startsWith (line.drop name.length) " = ")

/-- The line reads the name. -/
def reads (name line : Text) : Bool := (List.range (line.length + 1)).any (readsAt name line)

/-! ## Expressions that show a name -/

/-- Bytes after which an expression may begin: blanks, brackets and the sign of a pointer. -/
def opening : List UInt8 := [' '.toUInt8, '('.toUInt8, '*'.toUInt8]

/-- Bytes before which an expression may end. -/
def closing : List UInt8 := ['.'.toUInt8, ','.toUInt8, ')'.toUInt8, ';'.toUInt8]

/-- What stands in front of an expression. -/
def Opens (front : Text) : Prop := front = [] ∨ ∃ l, ∃ b ∈ opening, front = l ++ [b]

/-- What stands behind an expression. -/
def Closes (rest : Text) : Prop := rest = [] ∨ ∃ b ∈ closing, ∃ r, rest = b :: r

/-- The name stands in an expression as an argument does, or in front of a period. -/
def Shows (name expr : Text) : Prop :=
  ∃ front rest, expr = front ++ name ++ rest ∧ Opens front ∧ Closes rest

theorem shows_self (name : Text) : Shows name name :=
  ⟨[], [], by simp, Or.inl rfl, Or.inl rfl⟩

theorem Opens.append {front more : Text} (h : Opens more) (hfront : Opens front) :
    Opens (front ++ more) := by
  rcases h with rfl | ⟨l, b, hb, rfl⟩
  · rw [List.append_nil]
    exact hfront
  · exact Or.inr ⟨front ++ l, b, hb, (List.append_assoc _ _ _).symm⟩

theorem Closes.append {rest more : Text} (h : Closes rest) (hmore : Closes more) :
    Closes (rest ++ more) := by
  rcases h with rfl | ⟨b, hb, r, rfl⟩
  · exact hmore
  · exact Or.inr ⟨b, hb, r ++ more, rfl⟩

/-- A name that an expression shows is shown by what the expression is an argument of. -/
theorem Shows.within {name expr front rest : Text} (h : Shows name expr) (hfront : Opens front)
    (hrest : Closes rest) : Shows name (front ++ expr ++ rest) := by
  obtain ⟨l, r, rfl, hl, hr⟩ := h
  exact ⟨front ++ l, r ++ rest, by simp, hl.append hfront, hr.append hrest⟩

/-- What is put in front ends with a byte after which an expression may begin. -/
theorem opens_end {last : Text} (h : last.getLast?.any opening.contains = true) (front : Text) :
    Opens (front ++ last) := by
  obtain ⟨b, hlast, hb⟩ := (Option.any_eq_true _ _).mp h
  obtain ⟨l, rfl⟩ := List.getLast?_eq_some_iff.mp hlast
  exact Or.inr ⟨front ++ l, b, List.contains_iff_mem.mp hb, (List.append_assoc _ _ _).symm⟩

/-- What follows begins with a byte before which an expression may end. -/
theorem closes_start {first : Text} (h : first.head?.any closing.contains = true) (rest : Text) :
    Closes (first ++ rest) := by
  obtain ⟨b, hfirst, hb⟩ := (Option.any_eq_true _ _).mp h
  obtain ⟨l, rfl⟩ := List.head?_eq_some_iff.mp hfirst
  exact Or.inr ⟨b, List.contains_iff_mem.mp hb, l ++ rest, rfl⟩

theorem closes_bracket : Closes ")" := Or.inr ⟨')'.toUInt8, by decide, [], rfl⟩

theorem Shows.assigned {name expr : Text} (h : Shows name expr) (target : Text) :
    Shows name (target ++ " = " ++ expr) := by
  have hfront : Opens (target ++ Text.ofString " = ") := opens_end rfl target
  have hwhole := h.within hfront (Or.inl rfl)
  rwa [List.append_nil] at hwhole

theorem Shows.argument {name expr : Text} (h : Shows name expr) (function : Text) :
    Shows name (function ++ "(" ++ expr ++ ")") :=
  h.within (opens_end rfl function) closes_bracket

/-- A name in front of a period. -/
theorem shows_head {name first : Text} (h : first.head?.any closing.contains = true)
    (rest : Text) : Shows name (name ++ first ++ rest) := by
  have hshows := (shows_self name).within (Or.inl rfl) (closes_start h rest)
  rwa [List.nil_append, ← List.append_assoc] at hshows

/-- A call of a method of the name. -/
theorem shows_receiver (name rest : Text) : Shows name (name ++ "." ++ rest) := shows_head rfl rest

theorem join_cons (glue arg : Text) (args : List Text) :
    join glue (arg :: args) = arg ++ args.flatMap (glue ++ ·) := by
  induction args generalizing arg with
  | nil => simp [join]
  | cons next args ih =>
    have hstep : join glue (arg :: next :: args) = arg ++ (glue ++ join glue (next :: args)) := by
      simp [join, List.intercalate]
    rw [hstep, ih next]
    simp

/-- The arguments of a call are shown. -/
theorem shows_join {name : Text} {args : List Text} (h : name ∈ args) :
    Shows name (join ", " args) := by
  obtain ⟨before, after, rfl⟩ := List.append_of_mem h
  have hafter : Closes (after.flatMap (Text.ofString ", " ++ ·)) := by
    cases after with
    | nil => exact Or.inl rfl
    | cons next after =>
      rw [List.flatMap_cons, List.append_assoc]
      exact closes_start rfl _
  cases before with
  | nil =>
    rw [List.nil_append, join_cons]
    have h := (shows_self name).within (Or.inl rfl) hafter
    rwa [List.nil_append] at h
  | cons first before =>
    rw [List.cons_append, join_cons, List.flatMap_append, List.flatMap_cons]
    have hfront : Opens (first ++ before.flatMap (Text.ofString ", " ++ ·) ++ Text.ofString ", ") :=
      opens_end rfl _
    have h := (shows_self name).within hfront hafter
    simpa only [List.append_assoc] using h

theorem shows_call {name : Text} {args : List Text} (function : Text) (h : name ∈ args) :
    Shows name (function ++ "(" ++ join ", " args ++ ")") := (shows_join h).argument function

end Text

/-! ## Weaving -/

namespace Markers

open Text (Opens Closes Shows)

variable {m : Markers}

theorem breaks_opening : ∀ b ∈ Text.opening, Marker.breaks b = true :=
  List.all_eq_true.mp (by decide)

theorem breaks_closing : ∀ b ∈ Text.closing, Marker.breaks b = true :=
  List.all_eq_true.mp (by decide)

theorem expands_opens {front t w : Text} (hfront : Opens front) (h : m.Expands (front ++ t) w) :
    ∃ v u, m.Expands front v ∧ m.Expands t u ∧ w = v ++ u ∧ Opens v := by
  rcases hfront with rfl | ⟨l, b, hb, rfl⟩
  · exact ⟨[], w, .nil, h, rfl, Or.inl rfl⟩
  · have hbreak := breaks_opening b hb
    rw [List.append_assoc, List.singleton_append] at h
    obtain ⟨v, u, hv, hu, rfl⟩ := (expands_append_break hbreak l t w).mp h
    refine ⟨v ++ [b], u, ?_, hu, by simp, Or.inr ⟨v, b, hb, rfl⟩⟩
    exact (expands_append_break hbreak l [] _).mpr ⟨v, [], hv, .nil, rfl⟩

theorem expands_closes {t rest w : Text} (hrest : Closes rest) (h : m.Expands (t ++ rest) w) :
    ∃ v u, m.Expands t v ∧ w = v ++ u ∧ Closes u := by
  rcases hrest with rfl | ⟨b, hb, r, rfl⟩
  · rw [List.append_nil] at h
    exact ⟨w, [], h, by simp, Or.inl rfl⟩
  · obtain ⟨v, u, hv, -, rfl⟩ := (expands_append_break (breaks_closing b hb) t r w).mp h
    exact ⟨v, b :: u, hv, rfl, Or.inr ⟨b, hb, u, rfl⟩⟩

/-- A name that an expression shows is still shown when markers are replaced. -/
theorem expands_shows {name expr w : Text} (hname : '-'.toUInt8 ∉ name) (h : Shows name expr)
    (hw : m.Expands expr w) : Shows name w := by
  obtain ⟨front, rest, rfl, hfront, hrest⟩ := h
  rw [List.append_assoc] at hw
  obtain ⟨v, u, -, hu, rfl, hv⟩ := expands_opens hfront hw
  obtain ⟨v', u', hv', rfl, hu'⟩ := expands_closes hrest hu
  rw [ExpandsTo.unique hv' (expands_of_noDash hname)]
  exact ⟨v, u', by simp, hv, hu'⟩

/-- Where an expression shows a marker, in the end it shows what the meaning of the marker does. -/
theorem expands_shows_marker {name marker value expr w : Text} {n : Nat} {entry : MarkerEntry}
    (hname : '-'.toUInt8 ∉ name) (hid : Marker.id? marker = some n)
    (hfind : m.find? n = some entry) (hknown : entry.meaning = .known value)
    (hvalue : Shows name value) (h : Shows marker expr) (hw : m.Expands expr w) : Shows name w := by
  obtain ⟨front, rest, rfl, hfront, hrest⟩ := h
  rw [List.append_assoc] at hw
  obtain ⟨v, u, -, hu, rfl, hv⟩ := expands_opens hfront hw
  obtain ⟨v', u', hv', rfl, hu'⟩ := expands_closes hrest hu
  have hmeant : m.Expands value v' := by
    unfold Marker.id? at hid
    split at hid
    · rename_i digits hpieces
      split at hid
      · cases hid
        unfold Expands at hv'
        rw [hpieces, expandsTo_marker] at hv'
        obtain ⟨entry', value', v'', t, hfind', hknown', hvalue', hnil, rfl⟩ := hv'
        rw [hfind] at hfind'
        cases hfind'
        rw [hknown] at hknown'
        cases hknown'
        cases hnil
        rwa [List.append_nil]
      · cases hid
    · cases hid
  have hwithin := (expands_shows hname hvalue hmeant).within hv hu'
  rwa [List.append_assoc] at hwithin

end Markers

namespace Text

/-- An expression begins behind a byte that is part of no name and no period. -/
theorem Opens.apart {front : Text} (h : Opens front) :
    front.getLast?.all (fun b => !isNameByte b && b != '.'.toUInt8) = true := by
  have hbytes : ∀ b ∈ opening, (!isNameByte b && b != '.'.toUInt8) = true :=
    List.all_eq_true.mp (by decide)
  rcases h with rfl | ⟨l, b, hb, rfl⟩
  · rfl
  · rw [List.getLast?_concat, Option.all_some]
    exact hbytes b hb

/-- It ends before a byte that is part of no name, and it is not what is assigned to. -/
theorem Closes.apart {rest : Text} (h : Closes rest) :
    rest.head?.all (fun b => !isNameByte b) = true ∧ startsWith rest " = " = false := by
  have hname : ∀ b ∈ closing, (!isNameByte b) = true := List.all_eq_true.mp (by decide)
  have hblank : ∀ b ∈ closing, (b != ' '.toUInt8) = true := List.all_eq_true.mp (by decide)
  rcases h with rfl | ⟨b, hb, r, rfl⟩
  · exact ⟨rfl, rfl⟩
  · refine ⟨hname b hb, ?_⟩
    show List.isPrefixOf (' '.toUInt8 :: Text.ofString "= ") (b :: r) = false
    rw [List.isPrefixOf_cons_cons, BEq.comm, (Bool.not_eq_true' _).mp (hblank b hb), Bool.false_and]

/-- What shows a name reads it. -/
theorem Shows.reads {name line : Text} (h : Shows name line) : reads name line = true := by
  obtain ⟨front, rest, rfl, hfront, hrest⟩ := h
  have hafter : (front ++ name ++ rest).drop (front.length + name.length) = rest := by
    rw [← List.length_append, List.drop_left]
  have hstands : startsWith ((front ++ name ++ rest).drop front.length) name = true := by
    rw [List.append_assoc, List.drop_left]
    simp [startsWith]
  have hbefore : (front ++ name ++ rest).take front.length = front := by
    rw [List.append_assoc, List.take_left]
  unfold Text.reads
  refine List.any_eq_true.mpr ⟨front.length, ?_, ?_⟩
  · simp only [List.mem_range, List.length_append]
    omega
  · unfold readsAt
    rw [hstands, hafter, hbefore, hfront.apart, hrest.apart.1]
    by_cases hnone : front = []
    · subst hnone
      simp [hrest.apart.2]
    · simp [hnone]

end Text

end ViewBinder
