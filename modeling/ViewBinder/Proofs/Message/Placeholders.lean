-- Placeholders of a message. Those the author names and those made up for other values are put in
-- their order, and the made-up ones are numbered without a look at the names that are given. So a
-- message is refused for a name that comes twice exactly if the author gives one twice or gives one
-- that is made up.
import ViewBinder.Proofs.Element.Consumption
import ViewBinder.Proofs.Message.Sharing
import ViewBinder.Proofs.Session.Styles
import ViewBinder.Proofs.Template.Lookups
import ViewBinder.Proofs.Text.Exported

namespace ViewBinder

open Markup (Document)
open Session

/-! ## Messages with legal names -/

/-- Names that are legal are refused exactly if one of them comes twice or came before. -/
theorem Message.checkNames_legal (m : Message) (seen : List Text) {names : List Text}
    (hlegal : ∀ v ∈ names, Text.isIdentifier v = true) :
    (m.checkNames seen names = .ok () ∧ names.Nodup ∧ ∀ v ∈ names, v ∉ seen) ∨
      (∃ v, m.checkNames seen names = .error (.duplicatePlaceholder v m.text)) ∧
        ¬ (names.Nodup ∧ ∀ v ∈ names, v ∉ seen) := by
  induction names generalizing seen with
  | nil => exact .inl ⟨rfl, List.nodup_nil, fun _ hv => absurd hv List.not_mem_nil⟩
  | cons name rest ih =>
    obtain ⟨hname, hrest⟩ := List.forall_mem_cons.mp hlegal
    unfold Message.checkNames
    rw [hname]
    simp only [Bool.not_true, Bool.false_eq_true, if_false, List.contains_iff_mem]
    split
    · rename_i hseen
      exact .inr ⟨⟨name, rfl⟩, fun h => h.2 name List.mem_cons_self hseen⟩
    · rename_i hunseen
      have hsplit : ((name :: rest).Nodup ∧ ∀ v ∈ name :: rest, v ∉ seen) ↔
          rest.Nodup ∧ ∀ v ∈ rest, v ∉ name :: seen := by
        simp only [List.nodup_cons, List.mem_cons, forall_eq_or_imp, not_or]
        constructor
        · rintro ⟨⟨hnew, hnodup⟩, -, hothers⟩
          exact ⟨hnodup, fun v hv => ⟨fun heq => hnew (heq ▸ hv), hothers v hv⟩⟩
        · rintro ⟨hnodup, hothers⟩
          exact ⟨⟨fun hmem => (hothers name hmem).1 rfl, hnodup⟩, hunseen,
            fun v hv => (hothers v hv).2⟩
      rw [hsplit]
      exact ih (name :: seen) hrest

/-- A message with legal names is refused for a name that comes twice exactly if one does. -/
theorem Messages.declare_duplicate_iff (ms : Messages) {m : Message}
    (hlegal : ∀ v ∈ m.names, Text.isIdentifier v = true) :
    (∃ v, ms.declare m = .error (.duplicatePlaceholder v m.text)) ↔ ¬ m.names.Nodup := by
  rcases m.checkNames_legal [] hlegal with ⟨hok, hnodup, -⟩ | ⟨⟨v, herror⟩, hnot⟩
  · refine ⟨?_, fun hnot => absurd hnodup hnot⟩
    rintro ⟨v, hdeclare⟩
    unfold declare at hdeclare
    rw [hok] at hdeclare
    simp only [bind, Except.bind] at hdeclare
    repeat' split at hdeclare
    all_goals cases hdeclare
  · refine ⟨fun _ hnodup => hnot ⟨hnodup, fun _ _ => List.not_mem_nil⟩, fun _ => ⟨v, ?_⟩⟩
    unfold declare
    rw [herror]
    rfl

/-! ## Names in their order -/

/-- The names that are made up and those that are given, each in their order. -/
inductive Joins : List Text → List Text → List Text → Prop
  | nil : Joins [] [] []
  | made {name : Text} {made given names : List Text} : Joins made given names →
      Joins (name :: made) given (name :: names)
  | given {name : Text} {made given names : List Text} : Joins made given names →
      Joins made (name :: given) (name :: names)

namespace Joins

variable {made given names : List Text}

theorem of_made (made : List Text) : Joins made [] made := by
  induction made with
  | nil => exact .nil
  | cons name made ih => exact .made ih

theorem of_given (given : List Text) : Joins [] given given := by
  induction given with
  | nil => exact .nil
  | cons name given ih => exact .given ih

theorem append {made' given' names' : List Text} (h : Joins made given names)
    (h' : Joins made' given' names') :
    Joins (made ++ made') (given ++ given') (names ++ names') := by
  induction h with
  | nil => exact h'
  | made _ ih => exact .made ih
  | given _ ih => exact .given ih

theorem perm (h : Joins made given names) : names.Perm (made ++ given) := by
  induction h with
  | nil => exact .nil
  | made _ ih => exact ih.cons _
  | given _ ih => exact (ih.cons _).trans List.perm_middle.symm

/-- Where the made-up names are distinct, all are unless one is given twice or made up as well. -/
theorem nodup_iff (h : Joins made given names) (hmade : made.Nodup) :
    names.Nodup ↔ given.Nodup ∧ ∀ v ∈ given, v ∉ made := by
  rw [h.perm.nodup_iff, List.nodup_append]
  constructor
  · rintro ⟨-, hgiven, happart⟩
    exact ⟨hgiven, fun v hv hmem => happart v hmem v hv rfl⟩
  · rintro ⟨hgiven, happart⟩
    exact ⟨hmade, hgiven, fun v hmem w hw heq => happart w hw (heq ▸ hmem)⟩

end Joins

namespace Content

variable {s s' : Session}

/-! ## Names that are made up -/

/-- The name made up for a value without one. -/
def argName (k : Nat) : Text := "arg" ++ Text.ofNat k

/-- The names made up for so many values, `count` others coming before them. -/
def argNames (count n : Nat) : List Text := (List.range' (count + 1) n).map argName

theorem argName_injective : Function.Injective argName := by
  intro k k' h
  have hdigits := congrArg Text.digitsValue (List.append_cancel_left h)
  rwa [Text.digitsValue_ofNat, Text.digitsValue_ofNat] at hdigits

theorem nodup_argNames (count n : Nat) : (argNames count n).Nodup :=
  List.Nodup.map argName_injective List.nodup_range'

theorem argNames_succ (count n : Nat) :
    argNames count (n + 1) = argName (count + 1) :: argNames (count + 1) n := rfl

theorem argNames_append (count n k : Nat) :
    argNames count n ++ argNames (count + n) k = argNames count (n + k) := by
  unfold argNames
  rw [← List.map_append, Nat.add_right_comm, List.range'_append_1]

/-- A made-up name can stand in the program as it is. -/
theorem isIdentifier_argName (k : Nat) : Text.isIdentifier (argName k) = true := by
  have hfree : Text.isTaken (argName k) = false := by
    have hfront : ∀ w ∈ Text.keywords ++ Text.predeclared, ¬ Text.ofString "arg" <+: w := by decide
    exact Text.isTaken_append hfront _
  have hletters : (Text.ofString "rg").all Text.isLetterByte = true := by decide
  have hbytes : ∀ b ∈ Text.ofString "rg" ++ Text.ofNat k,
      Text.isLetterByte b = true ∨ Text.isDigitByte b = true := by
    refine List.forall_mem_append.mpr ⟨fun b hb => .inl ?_, fun b hb => .inr ?_⟩
    · exact List.all_eq_true.mp hletters b hb
    · exact List.all_eq_true.mp (Text.isDigitByte_ofNat k).2 b hb
  have hruns : (argName k).runes = ⟨97, ['a'.toUInt8]⟩ ::
      (Text.ofString "rg" ++ Text.ofNat k).map fun b => ⟨b.toNat, [b]⟩ := by
    show Text.runes ('a'.toUInt8 :: (Text.ofString "rg" ++ Text.ofNat k)) = _
    rw [Text.runes_ascii_cons (by decide),
      Text.runes_ascii _ fun b hb => (Text.bytes_of_letters b (hbytes b hb)).1]
    rfl
  have hrest : Text.isIdentifierRest
      ((Text.ofString "rg" ++ Text.ofNat k).map fun b => ⟨b.toNat, [b]⟩) = true := by
    unfold Text.isIdentifierRest
    rw [List.all_map, List.all_eq_true]
    exact fun b hb => (Text.bytes_of_letters b (hbytes b hb)).2.2.1
  have hletter : (Text.isLetter 97 || 97 == 95) = true := by decide
  unfold Text.isIdentifier
  simp only [hruns, hrest, hfree, hletter, Bool.and_self, Bool.not_false]

/-! ## What a message is read as -/

/-- The literal content of a message has made-up names only, numbered from those before. -/
theorem literalParts_names {pieces : List Marker.Piece} {count last : Nat}
    {parts : List MessagePart}
    (h : (literalParts count pieces).runOn s = (.ok (parts, last), s')) :
    s' = s ∧ ∃ n, last = count + n ∧ parts.filterMap MessagePart.name? = argNames count n := by
  induction pieces generalizing count last parts with
  | nil =>
    cases h
    exact ⟨rfl, 0, rfl, rfl⟩
  | cons piece rest ih =>
    cases piece with
    | plain run =>
      unfold literalParts at h
      obtain ⟨⟨others, last'⟩, s₁, hrest, hlast⟩ := Work.bind_ok h
      cases hlast
      obtain ⟨hsame, n, hcount, hnames⟩ := ih hrest
      exact ⟨hsame, n, hcount, hnames⟩
    | marker digits =>
      unfold literalParts at h
      obtain ⟨arg, s₁, harg, h⟩ := Work.bind_ok h
      obtain ⟨⟨others, last'⟩, s₂, hrest, hlast⟩ := Work.bind_ok h
      cases harg
      cases hlast
      obtain ⟨hsame, n, rfl, hnames⟩ := ih hrest
      refine ⟨hsame, n + 1, by omega, ?_⟩
      rw [argNames_succ, ← hnames]
      rfl

/-- The author calls a placeholder by this name. -/
def IsCalled (d : Document) (c : Nat) (v : Text) : Prop :=
  ∃ a ∈ (d.node c).attributes, a.consumed = false ∧ a.name.uri = [] ∧ a.name.base = "name" ∧
    a.value = v

instance (d : Document) (c : Nat) (v : Text) : Decidable (IsCalled d c v) :=
  inferInstanceAs (Decidable (∃ a ∈ (d.node c).attributes, _))

theorem IsCalled.earlier {d d' : Document} {c : Nat} {v : Text} (h : IsCalled d' c v)
    (hused : Used d d') : IsCalled d c v := by
  obtain ⟨a, ha, hleft, hname⟩ := h
  exact ⟨a, hused.left c id a ha hleft, hleft, hname⟩

/-- The placeholders among some slots. -/
def placeholders (d : Document) (slots : List Nat) : List Nat :=
  slots.filter fun c => d.isBinderTag c "ph"

variable {slot : Nat → Work Session Html} {d : Document}

/-- A placeholder has the name the author calls it by, and no other name; an empty one is none. -/
theorem placeholder_name {c : Nat} {part : MessagePart}
    (h : (placeholder slot c).runOn s = (.ok part, s')) :
    ∃ v, IsCalled s.document c v ∧ part.name?.toList = [v].filter (!·.isEmpty) := by
  unfold placeholder at h
  obtain ⟨v, s₁, hname, h⟩ := Work.bind_ok h
  obtain ⟨sample, s₂, -, h⟩ := Work.bind_ok h
  obtain ⟨_, s₃, -, h⟩ := Work.bind_ok h
  obtain ⟨htmls, s₄, -, h⟩ := Work.bind_ok h
  obtain ⟨arg, s₅, -, hlast⟩ := Work.bind_ok h
  cases hlast
  refine ⟨v, attribute_of_takeRequired hname, ?_⟩
  unfold MessagePart.named
  cases v <;> rfl

variable [∀ n, Ensures (Document.Gone n) (slot n)]

/-- The names of a message are those the author gives, and between them those that are made up. -/
theorem messageParts_names {e count : Nat} {literal : Text} {slots : List Nat}
    {parts : List MessagePart} (hused : Used d s.document)
    (h : (messageParts slot e literal count slots).runOn s = (.ok parts, s')) :
    ∃ given n, List.Forall₂ (IsCalled d) (placeholders d slots) given ∧
      Joins (argNames count n) (given.filter (!·.isEmpty))
        (parts.filterMap MessagePart.name?) := by
  induction slots generalizing s literal count parts with
  | nil =>
    unfold messageParts at h
    obtain ⟨⟨parts, last⟩, s₁, hparts, hlast⟩ := Work.bind_ok h
    cases hlast
    obtain ⟨-, n, -, hnames⟩ := literalParts_names hparts
    refine ⟨[], n, .nil, ?_⟩
    rw [hnames]
    exact .of_made _
  | cons c rest ih =>
    unfold messageParts at h
    obtain ⟨_, _, hget, h⟩ := Work.bind_ok h
    cases hget
    dsimp only at h
    split at h
    · obtain ⟨_, _, hfail, _⟩ := Work.bind_ok h
      cases hfail
    · split at h
      · -- what was read so far ends here, and the next made-up name counts on behind it
        rename_i htag
        obtain ⟨_, s₁, huse, h⟩ := Work.bind_ok h
        obtain ⟨⟨first, count'⟩, s₂, hfirst, h⟩ := Work.bind_ok h
        obtain ⟨part, s₃, hpart, h⟩ := Work.bind_ok h
        obtain ⟨more, s₄, hmore, hlast⟩ := Work.bind_ok h
        cases hlast
        cases huse
        obtain ⟨rfl, n, rfl, hmade⟩ := literalParts_names hfirst
        have hused₂ := hused.trans (fewer_useChild s.document c)
        have hused₃ : Used d s₃.document :=
          hused₂.trans (fewer_of_takes (Ensures.ensures (P := Document.Finished c) hpart).1)
        obtain ⟨v, hcalled, hname⟩ := placeholder_name hpart
        obtain ⟨given, k, hgiven, hjoins⟩ := ih hused₃ hmore
        rw [hused.shape.isBinderTag] at htag
        refine ⟨v :: given, n + k, ?_, ?_⟩
        · unfold placeholders
          rw [List.filter_cons, if_pos htag]
          exact .cons (hcalled.earlier hused₂) hgiven
        · have hparts : (first ++ part :: more).filterMap MessagePart.name? =
              argNames count n ++ (part.name?.toList ++ more.filterMap MessagePart.name?) := by
            rw [List.filterMap_append, hmade, List.filterMap_cons]
            cases part.name? <;> rfl
          rw [hparts, hname, ← argNames_append, ← List.singleton_append, List.filter_append]
          exact (Joins.of_made _).append ((Joins.of_given _).append hjoins)
      · rename_i htag
        obtain ⟨html, s₁, hfirst, hrest⟩ := Work.bind_ok h
        rw [hused.shape.isBinderTag] at htag
        unfold placeholders
        rw [List.filter_cons, if_neg htag]
        exact ih (hused.trans (used_slot hfirst)) hrest

/-- A message is read with the names its author gives, and with `arg1`, `arg2` and so on between them
for its other values. If the given names are legal, all are distinct exactly if the given ones are and
none of them is made up as well; and the message is refused for a name that comes twice exactly if they
are not. -/
theorem placeholders_are_distinct_unless_a_made_up_name_is_given {kind : ContentKind} {fuel e : Nat}
    {parts : List MessagePart}
    (h : (messageParts (renderSlot Element.build kind fuel) e [] 0 (s.document.contents e)).runOn s =
      (.ok parts, s')) :
    ∃ given n, List.Forall₂ (IsCalled s.document)
        (placeholders s.document (s.document.contents e)) given ∧
      Joins (argNames 0 n) (given.filter (!·.isEmpty)) (parts.filterMap MessagePart.name?) ∧
      ((∀ v ∈ given, Text.isIdentifier v = true) → ∀ m : Message, m.parts = parts →
        (m.names.Nodup ↔ given.Nodup ∧ ∀ v ∈ given, v ∉ argNames 0 n) ∧
        ∀ ms : Messages, (∃ v, ms.declare m = .error (.duplicatePlaceholder v m.text)) ↔
          ¬ m.names.Nodup) := by
  obtain ⟨given, n, hgiven, hjoins⟩ := messageParts_names (fewer_of_takes (Std.Refl.refl _)) h
  refine ⟨given, n, hgiven, hjoins, fun hlegal m hparts => ?_⟩
  have hall : given.filter (!·.isEmpty) = given := by
    refine List.filter_eq_self.mpr fun v hv => ?_
    cases v with
    | nil => exact absurd (hlegal [] hv) (by decide)
    | cons b v => rfl
  have hnames : Joins (argNames 0 n) given m.names := by
    unfold Message.names
    rwa [hparts, ← hall]
  refine ⟨hnames.nodup_iff (nodup_argNames 0 n), fun ms => ms.declare_duplicate_iff fun v hv => ?_⟩
  rcases List.mem_append.mp (hnames.perm.subset hv) with hmade | hv
  · obtain ⟨k, -, rfl⟩ := List.mem_map.mp hmade
    exact isIdentifier_argName k
  · exact hlegal v hv

/-- A message with a placeholder of some name and another value behind it. -/
def greetingMarkup (name : Text) : Text :=
  "<ui:msg xmlns:ui=\"urn:ui:uibind\">A <ui:ph name=\"" ++ name ++
    "\">b</ui:ph> <ui:text from=\"\x7bs.text\x7d\"/></ui:msg>"

/-- A session at the beginning of a document. -/
def sessionOf (d : Document) : Session := { emptySession with document := d }

/-- What the message is read as. -/
def readGreeting (d : Document) : Except Failure (List MessagePart) × Session :=
  (messageParts (renderSlot Element.build .plainText 9) 0 [] 0 (d.contents 0)).runOn (sessionOf d)

theorem exists_of_greeting (name : Text) (names : List Text)
    (h : ((Document.load (greetingMarkup name) "View.ui.xml").toOption.any fun d =>
      (readGreeting d).1.toOption.any fun parts => decide
        (placeholders d (d.contents 0) = [2] ∧
          ((d.node 2).attributes.map fun a =>
            (a.consumed, a.name.uri.isEmpty, a.name.base, a.value)) =
            [(false, true, Text.ofString "name", name)] ∧
          parts.filterMap MessagePart.name? = names)) = true) :
    ∃ d parts s', Document.load (greetingMarkup name) "View.ui.xml" = .ok d ∧
      readGreeting d = (.ok parts, s') ∧ placeholders d (d.contents 0) = [2] ∧
      (∀ v, IsCalled d 2 v ↔ v = name) ∧ parts.filterMap MessagePart.name? = names := by
  obtain ⟨d, hload, hread⟩ := (Option.any_eq_true _ _).mp h
  obtain ⟨parts, hparts, htest⟩ := (Option.any_eq_true _ _).mp hread
  obtain ⟨hslots, hattributes, hnames⟩ := of_decide_eq_true htest
  obtain ⟨a, hattribute, hcalled⟩ := List.map_eq_singleton_iff.mp hattributes
  simp only [Prod.mk.injEq] at hcalled
  obtain ⟨hleft, huri, hbase, rfl⟩ := hcalled
  refine ⟨d, parts, (readGreeting d).2, ok_of_toOption hload,
    Prod.ext (ok_of_toOption hparts) rfl, hslots, fun v => ⟨?_, ?_⟩, hnames⟩
  · rintro ⟨a', ha', -, -, -, rfl⟩
    rw [hattribute, List.mem_singleton] at ha'
    rw [ha']
  · rintro rfl
    exact ⟨a, hattribute ▸ List.mem_singleton_self a, hleft, List.isEmpty_iff.mp huri, hbase, rfl⟩

/-- A greeting whose author calls the placeholder otherwise has both names and is not refused for
them. -/
theorem a_greeting_has_its_name_and_a_made_up_one : ∃ d parts s',
    Document.load (greetingMarkup "who") "View.ui.xml" = .ok d ∧
      readGreeting d = (.ok parts, s') ∧ ∀ m : Message, m.parts = parts →
        m.names = [Text.ofString "who", "arg1"] ∧
        ∀ (ms : Messages) (v : Text), ms.declare m ≠ .error (.duplicatePlaceholder v m.text) := by
  obtain ⟨d, parts, s', hload, hread, hslots, hcalled, hnames⟩ :=
    exists_of_greeting "who" [Text.ofString "who", "arg1"] (by decide +kernel)
  obtain ⟨given, n, hgiven, -, hdistinct⟩ :=
    placeholders_are_distinct_unless_a_made_up_name_is_given (s := sessionOf d) hread
  have hone : List.Forall₂ (IsCalled d) [2] given := hslots ▸ hgiven
  obtain ⟨v, rest, hv, hrest, rfl⟩ := List.forall₂_cons_left_iff.mp hone
  obtain rfl := (hcalled v).mp hv
  obtain rfl := List.forall₂_nil_left_iff.mp hrest
  have hlegal : ∀ v ∈ [Text.ofString "who"], Text.isIdentifier v = true := by decide +kernel
  refine ⟨d, parts, s', hload, hread, fun m hparts => ?_⟩
  have hmnames : m.names = [Text.ofString "who", "arg1"] := by
    unfold Message.names
    rw [hparts, hnames]
  refine ⟨hmnames, fun ms v hrefused => ?_⟩
  have hnodup : m.names.Nodup := by
    rw [hmnames]
    decide
  exact ((hdistinct hlegal m hparts).2 ms).mp ⟨v, hrefused⟩ hnodup

/-- A greeting whose author calls the placeholder `arg1` has that name twice and is refused. -/
theorem a_made_up_name_can_be_given : ∃ d parts s' c,
    Document.load (greetingMarkup "arg1") "View.ui.xml" = .ok d ∧
      readGreeting d = (.ok parts, s') ∧ placeholders d (d.contents 0) = [c] ∧
      (∀ v, IsCalled d c v ↔ v = Text.ofString "arg1") ∧ Text.isIdentifier "arg1" = true ∧
      ∀ m : Message, m.parts = parts → m.names = [Text.ofString "arg1", "arg1"] ∧
        ∀ ms : Messages, ms.declare m = .error (.duplicatePlaceholder "arg1" m.text) := by
  obtain ⟨d, parts, s', hload, hread, hslots, hcalled, hnames⟩ :=
    exists_of_greeting "arg1" [Text.ofString "arg1", "arg1"] (by decide +kernel)
  have hmade : argName 1 = "arg1" := by decide
  have hlegal : Text.isIdentifier "arg1" = true := hmade ▸ isIdentifier_argName 1
  refine ⟨d, parts, s', 2, hload, hread, hslots, hcalled, hlegal, fun m hparts => ?_⟩
  have hmnames : m.names = [Text.ofString "arg1", "arg1"] := by
    unfold Message.names
    rw [hparts, hnames]
  refine ⟨hmnames, fun ms => ?_⟩
  unfold Messages.declare
  rw [hmnames]
  simp [Message.checkNames, hlegal, bind, Except.bind]

end Content

end ViewBinder
