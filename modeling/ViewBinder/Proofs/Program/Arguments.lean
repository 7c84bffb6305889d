-- Arguments of calls. A reader goes byte by byte over what stands between the brackets of a call.
-- It counts the brackets that are open and knows whether it is in a literal, so that it finds the
-- commas that part one argument from the next, and no others.
import ViewBinder.Program.Basic
import ViewBinder.Proofs.Text.Quoted
import ViewBinder.Proofs.Text.Word

namespace ViewBinder.Code

/-! ## Reading -/

/-- Where a reader of arguments is, and how many brackets are open there. -/
inductive Place where
  | code (depth : Nat)
  | literal (depth : Nat)
  /-- In a literal, behind a backslash. -/
  | escape (depth : Nat)
  deriving DecidableEq, Repr

/-- Brackets that open. -/
def openings : Text := "([\x7b"

/-- Brackets that close. -/
def closings : Text := ")]\x7d"

/-- One byte further. -/
def Place.next : Place → UInt8 → Place
  | code depth, b =>
    if b == '\"'.toUInt8 then literal depth
    else if b ∈ openings then code (depth + 1)
    else if b ∈ closings then code (depth - 1)
    else code depth
  | literal depth, b =>
    if b == '\\'.toUInt8 then escape depth
    else if b == '\"'.toUInt8 then code depth
    else literal depth
  | escape depth, _ => literal depth

/-- The arguments from one on that has begun with a piece. -/
def argumentsFrom : Place → Text → Text → List Text
  | _, piece, [] => [piece]
  | place, piece, b :: t =>
    if place = .code 0 ∧ b = ','.toUInt8 then piece :: argumentsFrom place [] t
    else argumentsFrom (place.next b) (piece ++ [b]) t

/-- The arguments of a call, from what stands between its brackets. -/
def arguments (t : Text) : List Text := if t.isEmpty then [] else argumentsFrom (.code 0) [] t

/-! ## Parts of one argument -/

/-- A text that leads a reader from one place to another within one argument. -/
def Passes (p : Place) (t : Text) (q : Place) : Prop :=
  ∀ piece rest, argumentsFrom p piece (t ++ rest) = argumentsFrom q (piece ++ t) rest

theorem passes_nil (p : Place) : Passes p [] p := fun piece rest => by simp

theorem Passes.append {p q r : Place} {t u : Text} (ht : Passes p t q) (hu : Passes q u r) :
    Passes p (t ++ u) r := fun piece rest => by
  rw [List.append_assoc, ht, hu, List.append_assoc]

theorem passes_byte {p q : Place} {b : UInt8} (h : p ≠ .code 0 ∨ b ≠ ','.toUInt8)
    (hnext : p.next b = q) : Passes p [b] q := fun piece rest => by
  rw [List.singleton_append, argumentsFrom, if_neg (not_and_or.mpr h), hnext]

/-- What stands in a literal leads to no other place. -/
theorem InLiteral.passes {t : Text} (h : InLiteral t) (depth : Nat) :
    Passes (.literal depth) t (.literal depth) := by
  have hinside : ∀ {b q}, Place.next (.literal depth) b = q → Passes (.literal depth) [b] q :=
    passes_byte (Or.inl Place.noConfusion)
  induction h with
  | nil => exact passes_nil _
  | @calm b t hb _ ih =>
    obtain ⟨hslash, hquote⟩ := hb
    have hnext : Place.next (.literal depth) b = .literal depth := by
      simp [Place.next, hslash, hquote]
    exact (hinside hnext).append ih
  | @escape b t _ ih =>
    have hslash : Passes (.literal depth) ['\\'.toUInt8] (.escape depth) := hinside rfl
    have hbyte : Passes (.escape depth) [b] (.literal depth) :=
      passes_byte (Or.inl Place.noConfusion) rfl
    exact (hslash.append hbyte).append ih

/-- The text is a part of one argument, however many brackets are open: it closes what it opens. -/
def Closed (t : Text) : Prop := ∀ depth, Passes (.code depth) t (.code depth)

theorem closed_nil : Closed [] := fun _ => passes_nil _

theorem Closed.append {t u : Text} (ht : Closed t) (hu : Closed u) : Closed (t ++ u) :=
  fun depth => (ht depth).append (hu depth)

/-- Bytes that mean something between arguments and in them. -/
def signs : Text := ",\"" ++ openings ++ closings

/-- A text without such bytes. -/
def IsPlain (t : Text) : Prop := ∀ b ∈ t, b ∉ signs

instance (t : Text) : Decidable (IsPlain t) := List.decidableBAll _ _

theorem closed_of_isPlain {t : Text} (h : IsPlain t) : Closed t := by
  intro depth
  induction t with
  | nil => exact passes_nil _
  | cons b t ih =>
    obtain ⟨hb, ht⟩ := List.forall_mem_cons.mp h
    simp only [signs, List.mem_append, not_or] at hb
    obtain ⟨⟨hfirst, hopen⟩, hclose⟩ := hb
    have hcomma : b ≠ ','.toUInt8 := by
      rintro rfl
      exact hfirst (by decide)
    have hquote : b ≠ '\"'.toUInt8 := by
      rintro rfl
      exact hfirst (by decide)
    have hnext : Place.next (.code depth) b = .code depth := by
      simp [Place.next, hquote, hopen, hclose]
    exact (passes_byte (Or.inr hcomma) hnext).append (ih ht)

/-- Brackets around a part are closed again. -/
theorem Closed.brackets {t : Text} (h : Closed t) {a b : UInt8} (ha : a ∈ openings)
    (hb : b ∈ closings) : Closed (a :: (t ++ [b])) := by
  have hopens : ∀ a ∈ openings, a ≠ '\"'.toUInt8 ∧ a ≠ ','.toUInt8 := forall_of_all (by decide)
  have hcloses : ∀ b ∈ closings, b ≠ '\"'.toUInt8 ∧ b ∉ openings := forall_of_all (by decide)
  intro depth
  have hopen : Passes (.code depth) [a] (.code (depth + 1)) := by
    have hnext : Place.next (.code depth) a = .code (depth + 1) := by
      simp [Place.next, (hopens a ha).1, ha]
    exact passes_byte (Or.inr (hopens a ha).2) hnext
  have hclose : Passes (.code (depth + 1)) [b] (.code depth) := by
    have hnext : Place.next (.code (depth + 1)) b = .code depth := by
      simp [Place.next, (hcloses b hb).1, (hcloses b hb).2, hb]
    exact passes_byte (Or.inl (by simp)) hnext
  exact hopen.append ((h (depth + 1)).append hclose)

/-! ## Arguments -/

/-- A text that is one argument. -/
def IsArgument (t : Text) : Prop := Closed t ∧ t ≠ []

theorem isArgument_of_isPlain {t : Text} (h : IsPlain t) (hne : t ≠ []) : IsArgument t :=
  ⟨closed_of_isPlain h, hne⟩

/-- What stands in front of an argument becomes part of it. -/
theorem IsArgument.prepend {t u : Text} (hu : IsArgument u) (ht : Closed t) :
    IsArgument (t ++ u) := ⟨ht.append hu.1, List.append_ne_nil_of_right_ne_nil t hu.2⟩

theorem isArgument_quote (t : Text) : IsArgument (Text.quote t) := by
  refine ⟨fun depth => ?_, ?_⟩
  · have hopen : Passes (.code depth) ['\"'.toUInt8] (.literal depth) :=
      passes_byte (Or.inr (by decide)) rfl
    have hclose : Passes (.literal depth) ['\"'.toUInt8] (.code depth) :=
      passes_byte (Or.inl Place.noConfusion) rfl
    exact (hopen.append ((inLiteral_quoteBody t).passes depth)).append hclose
  · rw [Text.quote_eq]
    exact List.append_ne_nil_of_right_ne_nil _ (by decide)

theorem isArgument_call {function t : Text} (hfunction : Closed function) (ht : Closed t) :
    IsArgument (function ++ "(" ++ t ++ ")") := by
  have hbrackets : IsArgument ('('.toUInt8 :: (t ++ [')'.toUInt8])) :=
    ⟨ht.brackets (by decide) (by decide), List.cons_ne_nil _ _⟩
  have hshape : function ++ "(" ++ t ++ ")" = function ++ '('.toUInt8 :: (t ++ [')'.toUInt8]) := by
    simp only [List.append_assoc]
    rfl
  rw [hshape]
  exact hbrackets.prepend hfunction

/-- A fresh copy of a value is one argument. -/
theorem isArgument_box {type t : Text} (htype : Closed type) (ht : Closed t) :
    IsArgument (Program.box type t) := by
  have hblank : Closed " " := closed_of_isPlain (by decide)
  have hassign : Closed " v := " := closed_of_isPlain (by decide)
  have hreturn : Closed "; return &v " := closed_of_isPlain (by decide)
  have hunit : Closed "()" := closed_nil.brackets (by decide) (by decide)
  have hfront : Closed "func() " := by
    have hshape : Text.ofString "func() " = Text.ofString "func" ++ "()" ++ " " := by decide
    rw [hshape]
    exact ((closed_of_isPlain (by decide)).append hunit).append hblank
  have hbody : Closed ('\x7b'.toUInt8 :: (" v := " ++ t ++ "; return &v " ++ ['\x7d'.toUInt8])) :=
    ((hassign.append ht).append hreturn).brackets (by decide) (by decide)
  have hshape : Program.box type t = "func() " ++ type ++ " " ++
      '\x7b'.toUInt8 :: (" v := " ++ t ++ "; return &v " ++ ['\x7d'.toUInt8]) ++ "()" := by
    have hopen : Text.ofString " \x7b v := " = " " ++ '\x7b'.toUInt8 :: " v := " := by decide
    have hclose : Text.ofString "; return &v \x7d()" =
        Text.ofString "; return &v " ++ ['\x7d'.toUInt8] ++ "()" := by decide
    unfold Program.box
    rw [hopen, hclose]
    simp only [List.append_assoc, List.cons_append]
  rw [hshape]
  have hcall : IsArgument "()" := ⟨hunit, by decide⟩
  exact hcall.prepend (((hfront.append htype).append hblank).append hbody)

/-- Arguments with something between that is no comma are one argument. -/
theorem isArgument_join {glue : Text} (hglue : Closed glue) {ts : List Text} (hne : ts ≠ [])
    (h : ∀ t ∈ ts, IsArgument t) : IsArgument (Text.join glue ts) := by
  cases ts with
  | nil => exact absurd rfl hne
  | cons t ts =>
    obtain ⟨ht, hts⟩ := List.forall_mem_cons.mp h
    have hmore : Closed (ts.flatMap (glue ++ ·)) := by
      clear h hne
      induction ts with
      | nil => exact closed_nil
      | cons u ts ih =>
        obtain ⟨hu, hts⟩ := List.forall_mem_cons.mp hts
        exact (hglue.append hu.1).append (ih hts)
    rw [Text.join_cons]
    exact ⟨ht.1.append hmore, List.append_ne_nil_of_left_ne_nil ht.2 _⟩

/-- So many arguments with commas between. -/
def Lists (n : Nat) (t : Text) : Prop :=
  ∃ ts, ts.length = n ∧ (∀ a ∈ ts, IsArgument a) ∧ t = Text.join ", " ts

theorem IsArgument.lists {t : Text} (h : IsArgument t) : Lists 1 t :=
  ⟨[t], rfl, by simpa using h, (Text.join_cons _ t []).symm ▸ (List.append_nil t).symm⟩

theorem IsArgument.lists_two {t u : Text} (ht : IsArgument t) (hu : IsArgument u) :
    Lists 2 (t ++ ", " ++ u) := by
  refine ⟨[t, u], rfl, by simpa using ⟨ht, hu⟩, ?_⟩
  rw [Text.join_cons]
  simp

/-- A reader finds them all. -/
theorem Lists.length_arguments {n : Nat} {t : Text} (h : Lists n t) :
    (arguments t).length = n := by
  have hparts : ∀ {ts : List Text}, (∀ a ∈ ts, IsArgument a) → ∀ piece,
      (argumentsFrom (.code 0) piece (ts.flatMap (Text.ofString ", " ++ ·))).length =
        ts.length + 1 := by
    intro ts
    induction ts with
    | nil => exact fun _ _ => rfl
    | cons a ts ih =>
      intro hall piece
      obtain ⟨ha, hts⟩ := List.forall_mem_cons.mp hall
      have hcomma : ∀ rest, argumentsFrom (.code 0) piece (Text.ofString ", " ++ rest) =
          piece :: argumentsFrom (.code 0) [] (' '.toUInt8 :: rest) := fun _ => rfl
      have hblank : Closed [' '.toUInt8] := closed_of_isPlain (by decide)
      have hnext := (hblank.append ha.1) 0 [] (ts.flatMap (Text.ofString ", " ++ ·))
      rw [List.flatMap_cons, List.append_assoc, hcomma, List.length_cons, List.length_cons,
        ← ih hts ([] ++ ([' '.toUInt8] ++ a)), ← hnext, List.append_assoc,
        List.singleton_append]
  obtain ⟨ts, rfl, hts, rfl⟩ := h
  cases ts with
  | nil => rfl
  | cons a ts =>
    obtain ⟨ha, hrest⟩ := List.forall_mem_cons.mp hts
    have hempty : (Text.join ", " (a :: ts)).isEmpty = false := by
      rw [Text.join_cons, List.isEmpty_eq_false_iff]
      exact List.append_ne_nil_of_left_ne_nil ha.2 _
    unfold arguments
    rw [hempty, if_neg Bool.false_ne_true, Text.join_cons, ha.1 0]
    exact hparts hrest _

end ViewBinder.Code
