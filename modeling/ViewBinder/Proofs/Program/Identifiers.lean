-- Names in program text. A reader goes over the text byte by byte and knows whether it is in code
-- or in a literal, so that it finds every name the code spells, and none that a literal only shows.
-- Code that is put together with signs between spells the names of its parts.
import ViewBinder.Proofs.Marker.Written
import ViewBinder.Proofs.Text.Quoted
import ViewBinder.Proofs.Text.Word

namespace ViewBinder.Code

open Text (isNameByte)

/-! ## Reading -/

/-- Where a reader of program text is. -/
inductive Mode where
  /-- In code, behind the beginning of a name. -/
  | code (word : Text)
  | literal
  /-- In a literal, behind a backslash. -/
  | escape
  deriving DecidableEq, Repr

namespace Mode

/-- One byte further. -/
def next : Mode → UInt8 → Mode
  | code word, b =>
    if isNameByte b then code (word ++ [b]) else if b == '\"'.toUInt8 then literal else code []
  | literal, b =>
    if b == '\\'.toUInt8 then escape else if b == '\"'.toUInt8 then code [] else literal
  | escape, _ => literal

/-- The name that ends here. -/
def ended : Mode → List Text
  | code word => if word.isEmpty then [] else [word]
  | _ => []

/-- The names that end in front of the bytes of a text. -/
def namesIn : Mode → Text → List Text
  | _, [] => []
  | m, b :: t => (if isNameByte b then [] else m.ended) ++ namesIn (m.next b) t

/-- Behind a text. -/
def after (m : Mode) (t : Text) : Mode := t.foldl next m

@[simp] theorem after_nil (m : Mode) : m.after [] = m := rfl

@[simp] theorem after_cons (m : Mode) (b : UInt8) (t : Text) :
    m.after (b :: t) = (m.next b).after t := rfl

@[simp] theorem namesIn_nil (m : Mode) : m.namesIn [] = [] := rfl

theorem namesIn_cons (m : Mode) (b : UInt8) (t : Text) :
    m.namesIn (b :: t) = (if isNameByte b then [] else m.ended) ++ (m.next b).namesIn t := rfl

theorem after_append (m : Mode) (t u : Text) : m.after (t ++ u) = (m.after t).after u :=
  List.foldl_append

theorem namesIn_append (m : Mode) (t u : Text) :
    m.namesIn (t ++ u) = m.namesIn t ++ (m.after t).namesIn u := by
  induction t generalizing m with
  | nil => rfl
  | cons b t ih => rw [List.cons_append, namesIn_cons, namesIn_cons, ih, List.append_assoc, after_cons]

end Mode

/-- The names that the code in a text spells, from left to right. -/
def names (t : Text) : List Text :=
  (Mode.code []).namesIn t ++ ((Mode.code []).after t).ended

/-- The text is code up to its end, with these names. -/
def Spells (t : Text) (ns : List Text) : Prop :=
  ∃ word, (Mode.code []).after t = .code word ∧ (Mode.code []).namesIn t ++ (Mode.code word).ended = ns

/-- The text begins and ends inside a literal, with these names in between. -/
def Interrupts (t : Text) (ns : List Text) : Prop :=
  Mode.literal.after t = .literal ∧ Mode.literal.namesIn t = ns

theorem Spells.names_eq {t : Text} {ns : List Text} (h : Spells t ns) : names t = ns := by
  obtain ⟨word, hafter, rfl⟩ := h
  unfold names
  rw [hafter]

/-! ## Putting code together -/

theorem spells_nil : Spells [] [] := ⟨[], rfl, rfl⟩

/-- A sign between two pieces of code ends the name in front of it. -/
theorem Spells.sign {t u : Text} {ns ms : List Text} {b : UInt8} (ht : Spells t ns)
    (hb : isNameByte b = false) (hquote : b ≠ '\"'.toUInt8) (hu : Spells u ms) :
    Spells (t ++ b :: u) (ns ++ ms) := by
  obtain ⟨word, hafter, rfl⟩ := ht
  obtain ⟨word', hafter', rfl⟩ := hu
  have hnext : (Mode.code word).next b = .code [] := by simp [Mode.next, hb, hquote]
  refine ⟨word', ?_, ?_⟩
  · rw [Mode.after_append, hafter, Mode.after_cons, hnext, hafter']
  · rw [Mode.namesIn_append, hafter, Mode.namesIn_cons, hnext, hb]
    simp

/-- Bytes of names are a name. -/
theorem spells_name {n : Text} (hne : n ≠ []) (h : ∀ b ∈ n, isNameByte b = true) :
    Spells n [n] := by
  have hread : ∀ word : Text, (Mode.code word).after n = .code (word ++ n) ∧
      (Mode.code word).namesIn n = [] := by
    intro word
    induction n generalizing word with
    | nil => simp
    | cons b n ih =>
      obtain ⟨hb, hn⟩ := List.forall_mem_cons.mp h
      have hnext : (Mode.code word).next b = .code (word ++ [b]) := by simp [Mode.next, hb]
      rw [Mode.after_cons, Mode.namesIn_cons, hnext, hb]
      cases n with
      | nil => simp
      | cons c n =>
        obtain ⟨hafter, hnames⟩ := ih (List.cons_ne_nil c n) hn (word ++ [b])
        rw [hafter, hnames]
        simp
  obtain ⟨hafter, hnames⟩ := hread []
  refine ⟨n, hafter, ?_⟩
  rw [hnames]
  simp [Mode.ended, hne]

/-- A call spells its function and its arguments. -/
theorem spells_call {f : Text} {fs : List Text} (hf : Spells f fs) {args : List (Text × List Text)}
    (h : ∀ a ∈ args, Spells a.1 a.2) :
    Spells (f ++ "(" ++ Text.join ", " (args.map (·.1)) ++ ")") (fs ++ args.flatMap (·.2)) := by
  have hcomma : isNameByte ','.toUInt8 = false ∧ isNameByte ' '.toUInt8 = false := by decide
  have hopen : isNameByte '('.toUInt8 = false ∧ isNameByte ')'.toUInt8 = false := by decide
  have hmore : ∀ {more : List (Text × List Text)}, (∀ a ∈ more, Spells a.1 a.2) →
      ∀ {t ns}, Spells t ns → Spells (t ++ (more.map (·.1)).flatMap (Text.ofString ", " ++ ·))
        (ns ++ more.flatMap (·.2)) := by
    intro more
    induction more with
    | nil => exact fun _ _ _ ht => by simpa using ht
    | cons a more ih =>
      intro hall t ns ht
      obtain ⟨ha, hrest⟩ := List.forall_mem_cons.mp hall
      have hblank := (ht.sign hcomma.1 (by decide) spells_nil).sign hcomma.2 (by decide) ha
      have hwhole := ih hrest hblank
      have hshape : t ++ [','.toUInt8] ++ ' '.toUInt8 :: a.1 = t ++ (Text.ofString ", " ++ a.1) := by
        simp only [List.append_assoc]
        rfl
      rw [hshape, List.append_nil] at hwhole
      simpa only [List.map_cons, List.flatMap_cons, List.append_assoc] using hwhole
  have hjoined : Spells (Text.join ", " (args.map (·.1))) (args.flatMap (·.2)) := by
    cases args with
    | nil => exact spells_nil
    | cons a args =>
      obtain ⟨ha, hrest⟩ := List.forall_mem_cons.mp h
      rw [List.map_cons, Text.join_cons]
      exact hmore hrest ha
  have hcall := hf.sign hopen.1 (by decide) (hjoined.sign hopen.2 (by decide) spells_nil)
  rw [List.append_nil] at hcall
  have hshape : f ++ '('.toUInt8 :: (Text.join ", " (args.map (·.1)) ++ [')'.toUInt8]) =
      f ++ "(" ++ Text.join ", " (args.map (·.1)) ++ ")" := by
    simp only [List.append_assoc]
    rfl
  rwa [hshape] at hcall

/-! ## Literals -/

theorem Interrupts.append {t u : Text} {ns ms : List Text} (ht : Interrupts t ns)
    (hu : Interrupts u ms) : Interrupts (t ++ u) (ns ++ ms) := by
  obtain ⟨hafter, rfl⟩ := ht
  obtain ⟨hafter', rfl⟩ := hu
  refine ⟨?_, ?_⟩
  · rw [Mode.after_append, hafter, hafter']
  · rw [Mode.namesIn_append, hafter]

/-- Code between two literals. -/
theorem Spells.interrupts {t : Text} {ns : List Text} (h : Spells t ns) :
    Interrupts ("\" + " ++ t ++ " + \"") ns := by
  obtain ⟨word, hafter, rfl⟩ := h
  have hopen : Mode.literal.after "\" + " = .code [] ∧ Mode.literal.namesIn "\" + " = [] := by
    decide
  have hclose : (Mode.code word).after " + \"" = .literal ∧
      (Mode.code word).namesIn " + \"" = (Mode.code word).ended := by
    have hblank : isNameByte ' '.toUInt8 = false := by decide
    have hrest : (Mode.code []).after "+ \"" = .literal ∧ (Mode.code []).namesIn "+ \"" = [] := by
      decide
    have hquote : ' '.toUInt8 ≠ '\"'.toUInt8 := by decide
    have hnext : (Mode.code word).next ' '.toUInt8 = .code [] := by
      simp [Mode.next, hblank, hquote]
    have hshape : Text.ofString " + \"" = ' '.toUInt8 :: Text.ofString "+ \"" := by decide
    rw [hshape, Mode.after_cons, Mode.namesIn_cons, hnext, hrest.1, hrest.2, hblank]
    simp
  refine ⟨?_, ?_⟩
  · rw [Mode.after_append, Mode.after_append, hopen.1, hafter, hclose.1]
  · rw [Mode.namesIn_append, Mode.after_append, Mode.namesIn_append, hopen.1, hopen.2, hafter,
      hclose.2, List.nil_append]

/-- A literal with code between its parts. -/
theorem Interrupts.spells {t : Text} {ns : List Text} (h : Interrupts t ns) :
    Spells ("\"" ++ t ++ "\"") ns := by
  obtain ⟨hafter, rfl⟩ := h
  have hopen : (Mode.code []).after "\"" = .literal ∧ (Mode.code []).namesIn "\"" = [] := by
    decide
  have hclose : Mode.literal.after "\"" = .code [] ∧ Mode.literal.namesIn "\"" = [] := by
    decide
  refine ⟨[], ?_, ?_⟩
  · rw [Mode.after_append, Mode.after_append, hopen.1, hafter, hclose.1]
  · rw [Mode.namesIn_append, Mode.after_append, Mode.namesIn_append, hopen.1, hopen.2, hafter,
      hclose.2]
    simp [Mode.ended]

/-- What stands in a literal shows no names. -/
theorem InLiteral.interrupts {t : Text} (h : InLiteral t) : Interrupts t [] := by
  induction h with
  | nil => exact ⟨rfl, rfl⟩
  | @calm b t hb ht ih =>
    obtain ⟨hslash, hquote⟩ := hb
    obtain ⟨hafter, hnames⟩ := ih
    have hnext : Mode.literal.next b = .literal := by simp [Mode.next, hslash, hquote]
    refine ⟨by rw [Mode.after_cons, hnext, hafter], ?_⟩
    rw [Mode.namesIn_cons, hnext, hnames]
    simp [Mode.ended]
  | @escape b t ht ih =>
    obtain ⟨hafter, hnames⟩ := ih
    have hslash : Mode.literal.next '\\'.toUInt8 = .escape := by decide
    refine ⟨by rw [Mode.after_cons, Mode.after_cons, hslash]; exact hafter, ?_⟩
    rw [Mode.namesIn_cons, Mode.namesIn_cons, hslash]
    show _ ++ (_ ++ Mode.literal.namesIn t) = []
    rw [hnames]
    simp [Mode.ended]

/-- Quoted text is literal throughout. -/
theorem interrupts_quoteBody (t : Text) : Interrupts (Text.quoteBody t) [] :=
  (inLiteral_quoteBody t).interrupts

end ViewBinder.Code
