-- How attribute parsers read a marker that stands for a whole value: as a literal, since nothing in
-- a marker begins a reference. Text is quoted around it; whatever must be a reference is refused.
import Mathlib.Tactic.IntervalCases
import ViewBinder.Attribute.Parser
import ViewBinder.Proofs.Marker.Pieces
import ViewBinder.Proofs.Text.Identifier
import ViewBinder.Proofs.Text.Trim
import ViewBinder.Proofs.Work

namespace ViewBinder

/-! ## The bytes of markers -/

/-- A digit is one of ten. -/
theorem Text.mem_digits {b : UInt8} (h : isDigitByte b = true) : b ∈ ofString "0123456789" := by
  simp only [isDigitByte, Bool.and_eq_true, decide_eq_true_eq, UInt8.le_iff_toNat_le] at h
  obtain ⟨hlow, hhigh⟩ := h
  have hlow' : 48 ≤ b.toNat := hlow
  have hhigh' : b.toNat ≤ 57 := hhigh
  rw [← UInt8.ofNat_toNat (x := b)]
  interval_cases b.toNat <;> decide

namespace Marker

/-- Every byte that markers are made of. -/
def alphabet : Text := front ++ "0123456789" ++ back

theorem mem_alphabet_of_isDigitByte {b : UInt8} (h : Text.isDigitByte b = true) :
    b ∈ alphabet :=
  List.mem_append_left _ (List.mem_append_right _ (Text.mem_digits h))

theorem mem_alphabet {n : Nat} {b : UInt8} (h : b ∈ text n) : b ∈ alphabet := by
  unfold text at h
  rcases List.mem_append.mp h with h | h
  · rcases List.mem_append.mp h with h | h
    · exact List.mem_append_left _ (List.mem_append_left _ h)
    · exact mem_alphabet_of_isDigitByte (List.all_eq_true.mp (Text.isDigitByte_ofNat n).2 b h)
  · exact List.mem_append_right _ h

/-- A byte of a marker stands for itself in a literal, and it is no blank. -/
theorem plain_and_dark : ∀ b ∈ alphabet, Text.isPlainByte b = true ∧ Text.isSpace b.toNat = false :=
  forall_of_all (by decide)

theorem isPlainByte_text (n : Nat) : (text n).all Text.isPlainByte = true :=
  List.all_eq_true.mpr fun b hb => (plain_and_dark b (mem_alphabet hb)).1

theorem text_ne_nil (n : Nat) : text n ≠ [] := by
  intro hnil
  obtain ⟨hfront, -⟩ := List.append_eq_nil_iff.mp hnil
  exact absurd (List.append_eq_nil_iff.mp hfront).1 (by decide)

end Marker

/-! ## Texts of plain bytes -/

namespace Text

theorem quote_text (n : Nat) : quote (Marker.text n) = "\"" ++ Marker.text n ++ "\"" :=
  quote_plain (Marker.isPlainByte_text n)

theorem trim_text (n : Nat) : trim (Marker.text n) = Marker.text n := by
  refine trim_of_dark fun b hb => ?_
  obtain ⟨hplain, hdark⟩ := Marker.plain_and_dark b (Marker.mem_alphabet hb)
  exact ⟨ascii_of_isPlainByte hplain, hdark⟩

theorem splitOn_of_notMem {byte : UInt8} {t : Text} (h : byte ∉ t) : splitOn byte t = [t] := by
  induction t with
  | nil => rfl
  | cons b rest ih =>
    obtain ⟨hb, hrest⟩ := not_or.mp fun hor => h (List.mem_cons.mpr hor)
    unfold splitOn
    rw [if_neg (by simpa using Ne.symm hb), ih hrest]

theorem splitOn_append {byte : UInt8} {front : Text} (h : byte ∉ front) (rest : Text) :
    splitOn byte (front ++ byte :: rest) = front :: splitOn byte rest := by
  induction front with
  | nil => simp [splitOn]
  | cons b front ih =>
    obtain ⟨hb, hfront⟩ := not_or.mp fun hor => h (List.mem_cons.mpr hor)
    rw [List.cons_append, splitOn, if_neg (by simpa using Ne.symm hb), ih hfront]

theorem join_one (glue t : Text) : join glue [t] = t := by
  simp [join]

end Text

namespace Segment

/-- A text without a brace is one literal. -/
theorem split_literal {t : Text} (hne : t ≠ []) (h : openBrace ∉ t) : split t = [.literal t] := by
  unfold split
  induction t with
  | nil => exact absurd rfl hne
  | cons b rest ih =>
    have hb : (b != openBrace) = true := by
      simp only [bne_iff_ne, ne_eq]
      exact fun heq => h (heq ▸ List.mem_cons_self)
    unfold splitFrom
    rw [if_pos hb]
    cases rest with
    | nil => rfl
    | cons c rest =>
      rw [ih (List.cons_ne_nil _ _) fun hmem => h (List.mem_cons_of_mem _ hmem)]
      rfl

theorem split_text (n : Nat) : split (Marker.text n) = [.literal (Marker.text n)] := by
  have hbrace : openBrace ∉ Marker.alphabet := by decide
  exact split_literal (Marker.text_ne_nil n) fun h => hbrace (Marker.mem_alphabet h)

theorem isSingleReference_text (n : Nat) : isSingleReference (Marker.text n) = false := by
  unfold isSingleReference
  rw [Text.trim_text, split_text]

end Segment

/-! ## Parsers -/

namespace Attribute

/-- Text is quoted around the marker. -/
theorem parse_string_text (type : Option TypeId) (e n : Nat) (d : Draft) :
    (parse (.string type) e (Marker.text n)).runOn d =
      (.ok ("\"" ++ Marker.text n ++ "\""), d) := by
  have hempty : (Marker.text n).isEmpty = false := by
    rw [List.isEmpty_eq_false_iff]
    exact Marker.text_ne_nil n
  unfold parse
  rw [Work.runOn_bind, Work.runOn_get]
  simp only [hempty]
  unfold convert
  rw [Segment.split_text]
  simp only [List.mapM_cons, List.mapM_nil, Text.quote_text]
  exact congrArg (fun t => (Except.ok t, d)) (Text.join_one _ _)

theorem singleReference_text {wrap : Text → Text} (types : List (Option TypeId)) (e n : Nat)
    (d : Draft) :
    ∃ failure, (singleReference e (Marker.text n) wrap types).runOn d = (.error failure, d) := by
  unfold singleReference
  rw [Segment.isSingleReference_text]
  exact ⟨_, rfl⟩

/-- What is trusted is the quoted marker. -/
theorem parse_safeHtml_text (type : Option TypeId) (t : TypeId) (e n : Nat) (d : Draft) :
    (parse (.safeHtml (.string type) t) e (Marker.text n)).runOn d =
      (.ok ((d.imports.qualify (d.catalog.decl t) "FromTrustedString").1 ++ "(" ++
        ("\"" ++ Marker.text n ++ "\"") ++ ")"),
        { d with imports := (d.imports.qualify (d.catalog.decl t) "FromTrustedString").2 }) := by
  unfold parse
  rw [Work.runOn_bind, Work.runOn_get]
  simp only [Segment.isSingleReference_text]
  show (parse (.string type) e (Marker.text n) >>= _).runOn d = _
  rw [Work.runOn_bind, parse_string_text]
  rfl

/-- The text is foreign to a parser: the parser neither takes texts as they are nor has a constant
of that name. -/
def Foreign (c : Catalog) (t : Text) : AttributeParser → Prop
  | .strict _ | .boolean _ | .numeric _ | .intPair _ | .length _ _ => True
  | .boxed inner _ => Foreign c t inner
  | .enumeration type => ∀ constant ∈ (c.decl type).constants, constant.name ≠ t
  | .constant _ names => (withShortNames names).lookup t = none
  | .string _ | .safeHtml _ _ | .safeUri _ _ => False

theorem literal?_text (name : Text) (n : Nat) : Number.literal? name (Marker.text n) = none := by
  have hdecimal : Number.decimal? (Marker.text n) = none := rfl
  have hnatural : ∀ bits, Number.natural? bits (Marker.text n) = none := fun _ => rfl
  have hinteger : ∀ bits, Number.integer? bits (Marker.text n) = none := fun _ => rfl
  unfold Number.literal? Number.fraction?
  simp [Text.trim_text, hdecimal, hnatural, hinteger]

/-- A marker is refused wherever it is foreign. -/
theorem parse_text_of_foreign {parser : AttributeParser} {n : Nat} {d : Draft}
    (h : Foreign d.catalog (Marker.text n) parser) (e : Nat) :
    ∃ failure, (parse parser e (Marker.text n)).runOn d = (.error failure, d) := by
  have hfull : (Marker.text n).isEmpty = false := by
    rw [List.isEmpty_eq_false_iff]
    exact Marker.text_ne_nil n
  have hsingle : Segment.isSingleReference (Marker.text n) = false :=
    Segment.isSingleReference_text n
  induction parser with
  | strict types =>
    rw [parse_strict]
    exact singleReference_text types e n d
  | boolean type =>
    have hwords : ∀ word : Text, word.head? ≠ Marker.front.head? → Marker.text n ≠ word := by
      rintro word hhead rfl
      exact hhead rfl
    unfold parse
    rw [Work.runOn_bind, Work.runOn_get]
    simp only [Text.trim_text, hfull, Bool.false_eq_true, if_false]
    rw [if_neg]
    · exact singleReference_text [type] e n d
    · simp only [Bool.or_eq_true, beq_iff_eq, not_or]
      exact ⟨hwords _ (by decide), hwords _ (by decide)⟩
  | numeric type =>
    unfold parse
    rw [Work.runOn_bind, Work.runOn_get]
    simp only [Text.trim_text, hfull, literal?_text, Bool.false_eq_true, if_false]
    exact singleReference_text [some type] e n d
  | boxed inner type ih =>
    obtain ⟨failure, hinner⟩ := ih h
    unfold parse
    rw [Work.runOn_bind, Work.runOn_get]
    simp only [hsingle]
    refine ⟨failure, ?_⟩
    show (parse inner e (Marker.text n) >>= _).runOn d = _
    rw [Work.runOn_bind, hinner]
  | intPair inner ih =>
    have hcomma : ','.toUInt8 ∉ Marker.alphabet := by decide
    have hwhole : (Marker.text n).splitOn ','.toUInt8 = [Marker.text n] :=
      Text.splitOn_of_notMem fun hmem => hcomma (Marker.mem_alphabet hmem)
    unfold parse
    rw [Work.runOn_bind, Work.runOn_get]
    simp only [hwhole]
    exact ⟨_, rfl⟩
  | enumeration type =>
    have hnone : (d.catalog.decl type).constants.find? (·.name == Marker.text n) = none := by
      rw [List.find?_eq_none]
      exact fun constant hmem => by simpa using h constant hmem
    unfold parse
    rw [Work.runOn_bind, Work.runOn_get]
    simp only [Text.trim_text, hfull, hnone, hsingle, Bool.false_eq_true, if_false]
    exact ⟨_, rfl⟩
  | constant type names =>
    have hnone : (withShortNames names).lookup (Marker.text n) = none := h
    unfold parse
    rw [Work.runOn_bind, Work.runOn_get]
    simp only [Text.trim_text, hfull, hnone, Bool.false_eq_true, if_false]
    exact singleReference_text [some type] e n d
  | length number unit ih =>
    have hnone : lengthParts? (Marker.text n) = none := rfl
    unfold parse
    rw [Work.runOn_bind, Work.runOn_get]
    simp only [hnone]
    exact ⟨_, rfl⟩
  | string type => exact h.elim
  | safeHtml text type ih => exact h.elim
  | safeUri text type ih => exact h.elim

/-- A text that is one reference is read as that reference. -/
theorem parse_string_reference {value path : Text}
    (hsplit : Segment.split value = [.reference path]) (hlegal : Segment.isLegalPath path = true)
    (type : Option TypeId) (e : Nat) (d : Draft) :
    (parse (.string type) e value).runOn d = (Draft.refer e path [type]).runOn d := by
  have hfull : value.isEmpty = false := by
    cases value with
    | nil => cases hsplit
    | cons b rest => rfl
  unfold parse
  rw [Work.runOn_bind, Work.runOn_get]
  simp only [hfull]
  unfold convert
  rw [hsplit]
  simp only [List.mapM_cons, List.mapM_nil, hlegal]
  exact congrArg (fun t => (Except.ok t, ((Draft.refer e path [type]).runOn d).2))
    (Text.join_one _ _)

/-! ## The parsers of a catalog -/

theorem typesKey_one (c : Catalog) (t : Option TypeId) : typesKey c [t] = c.key t :=
  Text.join_one _ _

/-- The types that are read by the names of a table. -/
def constantTables : List (Text × List (Text × Text)) :=
  [(Library.ui "HorizontalAlignmentConstant", horizontalAlignments),
   (Library.ui "VerticalAlignmentConstant", verticalAlignments),
   (Library.dom "TextAlign", textAlignments)]

section Members

variable {c : Catalog} {P : Text × AttributeParser → Prop}

theorem forall_mem_libraryParser {key : Text} {parser : TypeId → AttributeParser}
    (h : ∀ t, c.lookup? key = some t → P (key, parser t)) :
    ∀ entry ∈ libraryParser c key parser, P entry := by
  unfold libraryParser
  split
  · rename_i t hfound
    exact List.forall_mem_singleton.mpr (h t hfound)
  · exact List.forall_mem_nil P

theorem forall_mem_numericParsers {name : Text}
    (h : ∀ plain boxed, c.find? [] name = some plain → c.find? [] ("*" ++ name) = some boxed →
      P (name, .numeric plain) ∧ P ("*" ++ name, .boxed (.numeric plain) boxed)) :
    ∀ entry ∈ numericParsers c name, P entry := by
  unfold numericParsers
  split
  · rename_i plain boxed hplain hboxed
    obtain ⟨hfirst, hsecond⟩ := h plain boxed hplain hboxed
    exact List.forall_mem_cons.mpr ⟨hfirst, List.forall_mem_singleton.mpr hsecond⟩
  · exact List.forall_mem_nil P

theorem forall_mem_lengthParser
    (h : ∀ float unit, c.find? [] "float64" = some float →
      c.lookup? (Library.ui "Unit") = some unit →
        P (typesKey c [some float, some unit], .length (.numeric float) unit)) :
    ∀ entry ∈ lengthParser c, P entry := by
  unfold lengthParser
  split
  · rename_i float unit hfloat hunit
    exact List.forall_mem_singleton.mpr (h float unit hfloat hunit)
  · exact List.forall_mem_nil P

/-- What holds of each parser that is made holds of the parsers of a catalog. -/
theorem forall_mem_of
    (hbool : P (Text.ofString "bool", .boolean (c.find? [] "bool")))
    (htext : P (Text.ofString "string", .string (c.find? [] "string")))
    (hnumeric : ∀ name ∈ numericNames, ∀ plain boxed, c.find? [] name = some plain →
      c.find? [] ("*" ++ name) = some boxed →
        P (name, .numeric plain) ∧ P ("*" ++ name, .boxed (.numeric plain) boxed))
    (hboxed : ∀ t, c.lookup? "*bool" = some t →
      P (Text.ofString "*bool", .boxed (.boolean (c.find? [] "bool")) t))
    (hpair : ∀ int, c.find? [] "int" = some int →
      P (Text.ofString "int,int", .intPair (.numeric int)))
    (hlength : ∀ float unit, c.find? [] "float64" = some float →
      c.lookup? (Library.ui "Unit") = some unit →
        P (typesKey c [some float, some unit], .length (.numeric float) unit))
    (hconstant : ∀ table ∈ constantTables, ∀ t, c.lookup? table.1 = some t →
      P (table.1, .constant t table.2))
    (hhtml : ∀ t, c.lookup? (Library.safehtml "SafeHtml") = some t →
      P (Library.safehtml "SafeHtml", .safeHtml (.string (c.find? [] "string")) t))
    (huri : ∀ t, c.lookup? (Library.safehtml "SafeUri") = some t →
      P (Library.safehtml "SafeUri", .safeUri (.string (c.find? [] "string")) t)) :
    ∀ entry ∈ Parsers.of c, P entry := by
  have hnumbers : ∀ entry ∈ numericNames.flatMap (numericParsers c), P entry := by
    intro entry hentry
    obtain ⟨name, hname, hentry⟩ := List.mem_flatMap.mp hentry
    exact forall_mem_numericParsers (hnumeric name hname) entry hentry
  have hfirst : ∀ entry ∈ ([(Text.ofString "bool", .boolean (c.find? [] "bool")),
      (Text.ofString "string", .string (c.find? [] "string"))] : Parsers), P entry :=
    List.forall_mem_cons.mpr ⟨hbool, List.forall_mem_singleton.mpr htext⟩
  obtain ⟨hhorizontal, hvertical, halign⟩ : _ ∧ _ ∧ _ := by
    simpa [constantTables] using hconstant
  intro entry hentry
  unfold Parsers.of at hentry
  simp only [List.mem_append] at hentry
  rcases hentry with
    ((((((((hentry | hentry) | hentry) | hentry) | hentry) | hentry) | hentry) | hentry) | hentry) |
      hentry
  · exact hfirst entry hentry
  · exact hnumbers entry hentry
  · exact forall_mem_libraryParser hboxed entry hentry
  · split at hentry
    · rename_i int hint
      rw [List.mem_singleton.mp hentry]
      exact hpair int hint
    · cases hentry
  · exact forall_mem_lengthParser hlength entry hentry
  · exact forall_mem_libraryParser hhorizontal entry hentry
  · exact forall_mem_libraryParser hvertical entry hentry
  · exact forall_mem_libraryParser halign entry hentry
  · exact forall_mem_libraryParser hhtml entry hentry
  · exact forall_mem_libraryParser huri entry hentry

end Members

end Attribute

end ViewBinder
