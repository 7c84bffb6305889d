-- Runs of acts on attach sections. A run is balanced if it leaves every section that it enters and no
-- other, and adds statements inside of sections only. Such runs are nestings written down one act after
-- the other, each in one way, and what a run leaves behind is read off its nesting: every section that
-- got a statement, in the order in which they are left.
import ViewBinder.Program.Section

namespace ViewBinder

namespace Sections

/-! ## Lines of the innermost section -/

/-- Open sections with more lines in the innermost. -/
def filled (lines : List Text) : List Section → List Section
  | [] => []
  | inner :: outer => { inner with statements := inner.statements ++ lines } :: outer

@[simp] theorem filled_nil (open' : List Section) : filled [] open' = open' := by
  cases open' <;> simp [filled]

theorem filled_append (lines more : List Text) (open' : List Section) :
    filled (lines ++ more) open' = filled more (filled lines open') := by
  cases open' <;> simp [filled]

theorem unfinished_add (s : Sections) (line : Text) :
    (s.add line).unfinished = filled [line] s.unfinished := by
  unfold add filled
  split <;> simp_all

theorem add_eq (s : Sections) (line : Text) :
    s.add line = { s with unfinished := filled [line] s.unfinished } := by
  unfold add filled
  split <;> rename_i hopen <;> simp only [hopen]
  rw [← hopen]

/-! ## Acts -/

/-- Something that is done with the sections of a unit. -/
inductive Act where
  | enter (expr : Text)
  | add (statement : Text)
  | leave
  | addDetached (statement : Text)
  deriving DecidableEq, Repr

/-- The sections after an act. -/
def act (s : Sections) : Act → Sections
  | .enter expr => s.enter expr
  | .add statement => s.add statement
  | .leave => s.leave
  | .addDetached statement => s.addDetached statement

/-- The sections after some acts, one after the other. -/
def after (s : Sections) (acts : List Act) : Sections := acts.foldl act s

@[simp] theorem after_nil (s : Sections) : s.after [] = s := rfl

@[simp] theorem after_cons (s : Sections) (a : Act) (acts : List Act) :
    s.after (a :: acts) = (s.act a).after acts := rfl

theorem after_append (s : Sections) (acts more : List Act) :
    s.after (acts ++ more) = (s.after acts).after more := List.foldl_append

/-- The statements that acts add to sections, in order. -/
def added : List Act → List Text
  | [] => []
  | .add statement :: acts => statement :: added acts
  | _ :: acts => added acts

theorem added_append (acts more : List Act) : added (acts ++ more) = added acts ++ added more := by
  induction acts with
  | nil => rfl
  | cons a acts ih => cases a <;> simp [added, ih]

/-- How many of the sections that acts enter are open behind them, `n` being open in front. Acts
that leave more than that have no answer, nor have those that add where none of these is open,
unless all of it happens inside of a section. -/
def openAfter? (inside : Bool) : List Act → Nat → Option Nat
  | [], n => some n
  | .enter _ :: acts, n => openAfter? inside acts (n + 1)
  | .add _ :: acts, n => if inside || 0 < n then openAfter? inside acts n else none
  | .leave :: acts, n + 1 => openAfter? inside acts n
  | .leave :: _, 0 => none
  | .addDetached _ :: acts, n => openAfter? inside acts n

/-- Every section that is entered is left again, and no other; statements are added to these, and to
the one around them if it all happens inside of a section. -/
def Balanced (inside : Bool) (acts : List Act) : Prop := openAfter? inside acts 0 = some 0

instance (inside : Bool) (acts : List Act) : Decidable (Balanced inside acts) :=
  inferInstanceAs (Decidable (_ = _))

end Sections

/-! ## Nestings -/

open Sections (Act)

/-- What happens inside of a section, or outside of all: statements are added to it and for the end,
and sections are entered and left. -/
inductive Nesting where
  | nothing
  | line (statement : Text) (rest : Nesting)
  | later (statement : Text) (rest : Nesting)
  | part (expr : Text) (inner rest : Nesting)

namespace Nesting

/-- The acts in their order. -/
def acts : Nesting → List Act
  | nothing => []
  | line statement rest => .add statement :: rest.acts
  | later statement rest => .addDetached statement :: rest.acts
  | part expr inner rest => .enter expr :: (inner.acts ++ .leave :: rest.acts)

/-- The statements that are added here, not to a section in it. -/
def lines : Nesting → List Text
  | nothing => []
  | line statement rest => statement :: rest.lines
  | later _ rest => rest.lines
  | part _ _ rest => rest.lines

/-- The sections in it with their statements, each behind those inside of it. -/
def parts : Nesting → List Section
  | nothing => []
  | line _ rest => rest.parts
  | later _ rest => rest.parts
  | part expr inner rest => inner.parts ++ ⟨expr, inner.lines⟩ :: rest.parts

/-- The statements for the end. -/
def late : Nesting → List Text
  | nothing => []
  | line _ rest => rest.late
  | later statement rest => statement :: rest.late
  | part _ inner rest => inner.late ++ rest.late

/-- The sections in it that got a statement. -/
def kept (n : Nesting) : List Section := n.parts.filter fun part => !part.statements.isEmpty

/-- Each statement that is added stands here or in one section, once. -/
theorem perm_added (n : Nesting) :
    (n.lines ++ n.parts.flatMap (·.statements)).Perm (Sections.added n.acts) := by
  induction n with
  | nothing => exact List.Perm.nil
  | line statement rest ih => exact ih.cons statement
  | later statement rest ih => exact ih
  | part expr inner rest ihInner ihRest =>
    have hadded : Sections.added (part expr inner rest).acts =
        Sections.added inner.acts ++ Sections.added rest.acts := Sections.added_append _ _
    rw [hadded]
    refine List.Perm.trans ?_ (ihInner.append ihRest)
    simp only [lines, parts, List.flatMap_append, List.flatMap_cons]
    -- the lines of the section stand behind those of the sections in it
    refine List.perm_iff_count.mpr fun a => ?_
    simp only [List.count_append]
    omega

/-- What a nesting leaves behind. -/
theorem after_acts (n : Nesting) (s : Sections) : s.after n.acts =
    { unfinished := Sections.filled n.lines s.unfinished, finished := s.finished ++ n.kept,
      detached := s.detached ++ n.late } := by
  unfold kept
  induction n generalizing s with
  | nothing => simp [acts, lines, parts, late]
  | line statement rest ih =>
    rw [acts, Sections.after_cons, ih]
    simp only [Sections.act, Sections.add_eq, lines, parts, late]
    rw [← Sections.filled_append, List.singleton_append]
  | later statement rest ih =>
    rw [acts, Sections.after_cons, ih]
    simp only [Sections.act, Sections.addDetached, lines, parts, late, List.append_assoc,
      List.singleton_append]
  | part expr inner rest ihInner ihRest =>
    rw [acts, Sections.after_cons, Sections.after_append, ihInner, Sections.after_cons, ihRest]
    simp only [Sections.act, Sections.enter, Sections.leave, Sections.filled, lines, parts, late,
      List.nil_append, List.filter_append, List.filter_cons]
    cases inner.lines.isEmpty <;> simp

/-! ## Nestings and balanced runs -/

theorem openAfter?_acts (n : Nesting) {inside : Bool} {open' : Nat}
    (h : inside = true ∨ 0 < open' ∨ n.lines = []) (more : List Act) :
    Sections.openAfter? inside (n.acts ++ more) open' =
      Sections.openAfter? inside more open' := by
  induction n generalizing open' more with
  | nothing => rfl
  | line statement rest ih =>
    have hinside : inside = true ∨ 0 < open' := by
      simpa [lines] using h
    have hcond : (inside || decide (0 < open')) = true := by simpa using hinside
    rw [acts, List.cons_append, Sections.openAfter?, if_pos hcond]
    exact ih (hinside.imp_right Or.inl) more
  | later statement rest ih => exact ih h more
  | part expr inner rest ihInner ihRest =>
    rw [acts, List.cons_append, List.append_assoc, Sections.openAfter?,
      ihInner (.inr (.inl (Nat.succ_pos _)))]
    exact ihRest h more

/-- Acts that leave an open section begin with what happens inside of it. -/
theorem exists_of_leaving {inside : Bool} {acts : List Act} {open' k : Nat} (hk : k ≤ open')
    (h : Sections.openAfter? inside acts (open' + 1) = some k) :
    ∃ (n : Nesting) (rest : List Act), acts = n.acts ++ .leave :: rest ∧
      Sections.openAfter? inside rest open' = some k := by
  -- what follows a section that is entered is shorter, but no tail of it in one step
  induction hlength : acts.length using Nat.strongRecOn generalizing acts open' with
  | ind length ih =>
    cases acts with
    | nil =>
      have := Option.some.inj h
      omega
    | cons a acts =>
      rw [List.length_cons] at hlength
      cases a with
      | enter expr =>
        obtain ⟨inner, behind, rfl, hbehind⟩ :=
          ih acts.length (by omega) (Nat.le_succ_of_le hk) h rfl
        rw [List.length_append, List.length_cons] at hlength
        obtain ⟨n, rest, rfl, hrest⟩ := ih behind.length (by omega) hk hbehind rfl
        exact ⟨part expr inner n, rest, by simp [Nesting.acts], hrest⟩
      | add statement =>
        rw [Sections.openAfter?, if_pos (by simp)] at h
        obtain ⟨n, rest, rfl, hrest⟩ := ih acts.length (by omega) hk h rfl
        exact ⟨line statement n, rest, rfl, hrest⟩
      | leave => exact ⟨nothing, acts, rfl, h⟩
      | addDetached statement =>
        rw [Sections.openAfter?] at h
        obtain ⟨n, rest, rfl, hrest⟩ := ih acts.length (by omega) hk h rfl
        exact ⟨later statement n, rest, rfl, hrest⟩

/-- The balanced runs are the nestings. -/
theorem balanced_iff {inside : Bool} {acts : List Act} : Sections.Balanced inside acts ↔
    ∃ n : Nesting, n.acts = acts ∧ (inside = false → n.lines = []) := by
  constructor
  · intro h
    unfold Sections.Balanced at h
    induction hlength : acts.length using Nat.strongRecOn generalizing acts with
    | ind length ih =>
      cases acts with
      | nil => exact ⟨nothing, rfl, fun _ => rfl⟩
      | cons a acts =>
        rw [List.length_cons] at hlength
        cases a with
        | enter expr =>
          obtain ⟨inner, behind, rfl, hbehind⟩ := exists_of_leaving (Nat.le_refl 0) h
          rw [List.length_append, List.length_cons] at hlength
          obtain ⟨n, rfl, hlines⟩ := ih behind.length (by omega) hbehind rfl
          exact ⟨part expr inner n, rfl, hlines⟩
        | add statement =>
          rw [Sections.openAfter?] at h
          split at h
          · rename_i hinside
            obtain ⟨n, rfl, -⟩ := ih acts.length (by omega) h rfl
            refine ⟨line statement n, rfl, fun houtside => ?_⟩
            rw [houtside] at hinside
            exact absurd hinside (by decide)
          · cases h
        | leave => cases h
        | addDetached statement =>
          rw [Sections.openAfter?] at h
          obtain ⟨n, rfl, hlines⟩ := ih acts.length (by omega) h rfl
          exact ⟨later statement n, rfl, hlines⟩
  · rintro ⟨n, rfl, hlines⟩
    unfold Sections.Balanced
    have hopen : inside = true ∨ 0 < 0 ∨ n.lines = [] := by
      cases inside with
      | true => exact .inl rfl
      | false => exact .inr (.inr (hlines rfl))
    have hends := openAfter?_acts n hopen []
    rwa [List.append_nil] at hends

/-- Up to where the section around is left or the run is over, acts are written down in one way. -/
theorem acts_inj {n m : Nesting} {x y : List Act} (hx : ∀ a ∈ x.head?, a = .leave)
    (hy : ∀ a ∈ y.head?, a = .leave) (h : n.acts ++ x = m.acts ++ y) : n = m ∧ x = y := by
  have hno : ∀ {a : Act} {acts l : List Act}, (∀ a ∈ l.head?, a = Act.leave) → a ≠ .leave →
      l ≠ a :: acts := fun hl ha heq => ha (hl _ (by rw [heq]; rfl))
  induction n generalizing m x y with
  | nothing =>
    cases m with
    | nothing => exact ⟨rfl, h⟩
    | _ => exact absurd h (hno hx Act.noConfusion)
  | line statement rest ih =>
    cases m with
    | nothing => exact absurd h.symm (hno hy Act.noConfusion)
    | line statement' rest' =>
      obtain ⟨hsame, hrest⟩ := List.cons.inj h
      cases hsame
      obtain ⟨rfl, hxy⟩ := ih hx hy hrest
      exact ⟨rfl, hxy⟩
    | _ => cases (List.cons.inj h).1
  | later statement rest ih =>
    cases m with
    | nothing => exact absurd h.symm (hno hy Act.noConfusion)
    | later statement' rest' =>
      obtain ⟨hsame, hrest⟩ := List.cons.inj h
      cases hsame
      obtain ⟨rfl, hxy⟩ := ih hx hy hrest
      exact ⟨rfl, hxy⟩
    | _ => cases (List.cons.inj h).1
  | part expr inner rest ihInner ihRest =>
    cases m with
    | nothing => exact absurd h.symm (hno hy Act.noConfusion)
    | part expr' inner' rest' =>
      simp only [acts, List.cons_append, List.append_assoc, List.cons.injEq] at h
      obtain ⟨hsame, hinner⟩ := h
      cases hsame
      obtain ⟨rfl, hbehind⟩ := ihInner (by simp) (by simp) hinner
      obtain ⟨rfl, hxy⟩ := ihRest hx hy (List.cons.inj hbehind).2
      exact ⟨rfl, hxy⟩
    | _ => cases (List.cons.inj h).1

theorem acts_injective : Function.Injective acts := fun n m h =>
  (acts_inj (x := []) (y := []) nofun nofun (by simpa using h)).1

end Nesting

namespace Sections

/-! ## What balanced runs leave behind -/

/-- A run outside of sections has one nesting, and leaves its sections behind. -/
theorem Balanced.exists_nesting {acts : List Act} (h : Balanced false acts) :
    ∃ n : Nesting, (∀ m : Nesting, m.acts = acts ↔ m = n) ∧ n.lines = [] ∧
      ∀ s : Sections, s.after acts =
        { s with finished := s.finished ++ n.kept, detached := s.detached ++ n.late } := by
  obtain ⟨n, rfl, hlines⟩ := Nesting.balanced_iff.mp h
  refine ⟨n, fun m => Nesting.acts_injective.eq_iff, hlines rfl, fun s => ?_⟩
  rw [n.after_acts, hlines rfl, filled_nil]

/-- Outside of sections all of them stay open as they are. -/
theorem Balanced.unfinished {acts : List Act} (h : Balanced false acts) (s : Sections) :
    (s.after acts).unfinished = s.unfinished := by
  obtain ⟨n, -, -, hafter⟩ := h.exists_nesting
  rw [hafter]

/-! ## Runs of balanced runs -/

theorem Balanced.nil (inside : Bool) : Balanced inside [] := rfl

theorem openAfter?_append (inside : Bool) (acts more : List Act) (n : Nat) :
    openAfter? inside (acts ++ more) n =
      (openAfter? inside acts n).bind (openAfter? inside more) := by
  induction acts generalizing n with
  | nil => rfl
  | cons a acts ih =>
    cases a with
    | enter expr => exact ih (n + 1)
    | add statement =>
      rw [List.cons_append, openAfter?, openAfter?, ih]
      split <;> rfl
    | leave =>
      cases n with
      | zero => rfl
      | succ n => exact ih n
    | addDetached statement => exact ih n

theorem Balanced.append {inside : Bool} {acts more : List Act} (h : Balanced inside acts)
    (hmore : Balanced inside more) : Balanced inside (acts ++ more) := by
  unfold Balanced at h hmore ⊢
  rw [openAfter?_append, h, Option.bind_some, hmore]

/-- A run inside of a section, with the section around it. -/
theorem Balanced.enclosed {inside : Bool} {acts : List Act} (h : Balanced true acts) (expr : Text) :
    Balanced inside (.enter expr :: (acts ++ [.leave])) := by
  obtain ⟨n, rfl, -⟩ := Nesting.balanced_iff.mp h
  exact Nesting.balanced_iff.mpr ⟨.part expr n .nothing, rfl, fun _ => rfl⟩

end Sections

end ViewBinder
