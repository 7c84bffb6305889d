-- Values that are one reference and nothing else. Whatever parser reads such a value, it finds no
-- literal in it: it records the reference and puts the marker of it where the value stood. Only an
-- enumeration can have a constant of that name.
import ViewBinder.Proofs.Attribute.Parser
import ViewBinder.Proofs.Text.Trim

namespace ViewBinder

/-! ## Texts in parts -/

namespace Text

theorem splitOn_ne_nil (byte : UInt8) (t : Text) : splitOn byte t ≠ [] := by
  cases t with
  | nil => simp [splitOn]
  | cons b rest =>
    unfold splitOn
    split
    · simp
    · split <;> simp

/-- The parts of a text are put together with the byte that parts them. -/
theorem join_splitOn (byte : UInt8) (t : Text) : join [byte] (splitOn byte t) = t := by
  induction t with
  | nil => rfl
  | cons b rest ih =>
    unfold join at ih ⊢
    unfold splitOn
    split
    · rename_i hb
      obtain rfl : b = byte := by simpa using hb
      rw [List.intercalate_cons_of_ne_nil (splitOn_ne_nil b rest), ih]
      rfl
    · split
      · rename_i piece pieces hpieces
        rw [hpieces] at ih
        rw [← ih]
        cases pieces with
        | nil => simp
        | cons other pieces => simp [List.intercalate_cons_cons]
      · rename_i hnil
        exact absurd hnil (splitOn_ne_nil byte rest)

end Text

/-! ## One reference -/

namespace Segment

theorem addByte_ne_reference (b : UInt8) (segments : List Segment) (path : Text)
    {more : List Segment} : addByte b segments ≠ .reference path :: more := by
  unfold addByte
  split <;> simp

theorem splitFrom_eq_nil {skip : Nat} {t : Text} (h : splitFrom skip t = []) : t.length ≤ skip := by
  induction t generalizing skip with
  | nil => exact Nat.zero_le _
  | cons b rest ih =>
    cases skip with
    | succ skip => exact Nat.succ_le_succ (ih h)
    | zero =>
      have hadd : ∀ (b : UInt8) (segments : List Segment), addByte b segments ≠ [] := by
        intro b segments
        unfold addByte
        split <;> simp
      unfold splitFrom at h
      split at h
      · exact absurd h (hadd _ _)
      · split at h
        · split at h
          · exact absurd h (hadd _ _)
          · split at h
            · cases h
            · exact absurd h (hadd _ _)
        · cases h

/-- A value that is one reference stands in braces, and ends where they close. -/
theorem eq_of_split {value path : Text} (h : split value = [.reference path]) :
    ∃ inner, value = openBrace :: (inner ++ [closeBrace]) ∧ closeBrace ∉ inner := by
  unfold split at h
  cases value with
  | nil => cases h
  | cons b rest =>
    unfold splitFrom at h
    split at h
    · exact absurd h (addByte_ne_reference _ _ _)
    · rename_i hopen
      obtain rfl : b = openBrace := by simpa using hopen
      cases rest with
      | nil => cases h
      | cons c tail =>
        dsimp only at h
        split at h
        · exact absurd h (addByte_ne_reference _ _ _)
        · split at h
          · rename_i n hclose
            obtain ⟨-, hnil⟩ := List.cons.inj h
            have hlength := splitFrom_eq_nil hnil
            obtain ⟨hn, hat, hbefore⟩ := List.idxOf?_eq_some_iff.mp hclose
            refine ⟨(c :: tail).take n, ?_, fun hmem => ?_⟩
            · rw [← hat, List.take_append_getElem, List.take_of_length_le hlength]
            · obtain ⟨j, hj, hfound⟩ := List.mem_take_iff_getElem.mp hmem
              exact hbefore j (Nat.lt_of_lt_of_le hj (Nat.min_le_left _ _)) hfound
          · exact absurd h (addByte_ne_reference _ _ _)

theorem trim_of_split {value path : Text} (h : split value = [.reference path]) :
    Text.trim value = value := by
  obtain ⟨inner, rfl, -⟩ := eq_of_split h
  exact Text.trim_enclosed (by decide) (by decide) (by decide) (by decide) inner

/-- Such a value is no word that begins with something else. -/
theorem ne_of_split {value path : Text} (h : split value = [.reference path]) {word : Text}
    (hhead : word.head? ≠ some openBrace) : value ≠ word := by
  obtain ⟨inner, hvalue, -⟩ := eq_of_split h
  rintro rfl
  rw [hvalue] at hhead
  exact hhead rfl

theorem isSingleReference_of_split {value path : Text} (h : split value = [.reference path]) :
    isSingleReference value = true := by
  unfold isSingleReference
  rw [trim_of_split h, h]

/-- What counts as one reference without its blanks has a closing brace. -/
theorem closeBrace_mem {value : Text} (h : isSingleReference value = true) :
    closeBrace ∈ Text.trim value := by
  unfold isSingleReference at h
  split at h
  · rename_i path hsplit
    obtain ⟨inner, hvalue, -⟩ := eq_of_split hsplit
    rw [hvalue]
    simp
  · cases h

end Segment

/-! ## What parsers do with a reference -/

namespace AttributeParser

/-- The parser reads two values at once, one of the first type and one of the second. -/
def readsPair : AttributeParser → Bool
  | .intPair _ | .length _ _ => true
  | _ => false

/-- The types expected of a reference that is all that a value holds. -/
def wanted : AttributeParser → List (Option TypeId)
  | .strict types => types
  | .boolean type | .string type => [type]
  | .numeric type | .boxed _ type | .enumeration type | .constant type _ | .safeHtml _ type
  | .safeUri _ type => [some type]
  | .intPair _ | .length _ _ => []

/-- The parser converts what a reference stands for. -/
def converts : AttributeParser → Bool
  | .numeric _ => true
  | _ => false

/-- The marker of such a reference as the parser writes it: numbers are converted. -/
def written (c : Catalog) : AttributeParser → Text → Text
  | .numeric type, marker => (c.decl type).name ++ "(" ++ marker ++ ")"
  | _, marker => marker

theorem written_eq {parser : AttributeParser} (h : parser.converts = false) (c : Catalog)
    (marker : Text) : parser.written c marker = marker := by
  cases parser <;> first | rfl | cases h

/-- No constant of a table can be taken for a reference. -/
def Plain : AttributeParser → Prop
  | .constant _ names => ∀ entry ∈ Attribute.withShortNames names,
      entry.1.head? ≠ some Segment.openBrace
  | _ => True

end AttributeParser

/-! ## Literals -/

namespace Attribute

/-- Nothing that begins with a brace is a number. -/
theorem literal?_brace (name t : Text) :
    Number.literal? name (Segment.openBrace :: t) = none := by
  have hdigit : Text.isDigitByte Segment.openBrace = false := by decide
  have hmark : Number.isExponentMark Segment.openBrace = false := by decide
  have hsign : ∀ (b : UInt8) t, b ≠ Segment.openBrace →
      Text.startsWith (Segment.openBrace :: t) [b] = false := by
    intro b t hb
    simp [Text.startsWith, List.isPrefixOf, hb]
  have hminus : ∀ t, Text.startsWith (Segment.openBrace :: t) "-" = false := fun t =>
    hsign '-'.toUInt8 t (by decide)
  have hplus : ∀ t, Text.startsWith (Segment.openBrace :: t) "+" = false := fun t =>
    hsign '+'.toUInt8 t (by decide)
  have hpoint : ∀ t, Text.startsWith (Segment.openBrace :: t) "." = false := fun t =>
    hsign '.'.toUInt8 t (by decide)
  have hdecimal : ∀ t, Number.decimal? (Segment.openBrace :: t) = none := by
    intro t
    simp [Number.decimal?, hminus, hplus, hpoint, hdigit, hmark]
  have hnatural : ∀ bits t, Number.natural? bits (Segment.openBrace :: t) = none := by
    intro bits t
    simp [Number.natural?, Number.unsigned?, hdigit]
  have hinteger : ∀ bits t, Number.integer? bits (Segment.openBrace :: t) = none := by
    intro bits t
    simp [Number.integer?, Number.unsigned?, hminus, hplus, hdigit]
  unfold Number.literal? Number.fraction?
  rw [Text.trim_cons (by decide) (by decide)]
  simp [hdecimal, hnatural, hinteger]

theorem join_filter_one (glue t : Text) : Text.join glue ([t].filter (!·.isEmpty)) = t := by
  cases t with
  | nil => rfl
  | cons b t => exact Text.join_one _ _

variable {d d' : Draft} {e : Nat} {value path expr : Text}

/-- One reference is recorded if its path is legal. -/
theorem convert_ok (hvalue : Segment.split value = [.reference path])
    {types : List (Option TypeId)} {literal w : Text → Text} {glue : Text}
    (h : (convert e value types literal (fun marker => pure (w marker)) glue).runOn d =
      (.ok expr, d')) :
    ∃ marker, (Draft.refer e path types).runOn d = (.ok marker, d') ∧ expr = w marker := by
  unfold convert at h
  rw [hvalue, List.mapM_cons, List.mapM_nil] at h
  obtain ⟨parts, d₁, hparts, h⟩ := Work.bind_ok h
  obtain ⟨part, d₂, hpart, hparts⟩ := Work.bind_ok hparts
  cases hparts
  cases h
  dsimp only at hpart
  split at hpart
  · cases hpart
  · obtain ⟨marker, d₃, hrefer, hpart⟩ := Work.bind_ok hpart
    cases hpart
    exact ⟨marker, hrefer, join_filter_one _ _⟩

theorem singleReference_ok (hvalue : Segment.split value = [.reference path])
    {types : List (Option TypeId)} {wrap : Text → Text}
    (h : (singleReference e value wrap types).runOn d = (.ok expr, d')) :
    ∃ marker, (Draft.refer e path types).runOn d = (.ok marker, d') ∧ expr = wrap marker := by
  unfold singleReference at h
  rw [Segment.isSingleReference_of_split hvalue, Segment.trim_of_split hvalue] at h
  exact convert_ok hvalue h

/-- A value that is one reference is recorded as that by every parser that reads one value, unless it
is the name of a constant of an enumeration. -/
theorem parse_ok (hvalue : Segment.split value = [.reference path]) {parser : AttributeParser}
    (hsingle : parser.readsPair = false) (hplain : parser.Plain)
    (h : (parse parser e value).runOn d = (.ok expr, d')) :
    (∃ t k, parser = .enumeration t ∧ k ∈ (d.catalog.decl t).constants ∧ k.name = value ∧
      (Draft.qualify t k.ident).runOn d = (.ok expr, d')) ∨
    ∃ marker, (Draft.refer e path parser.wanted).runOn d = (.ok marker, d') ∧
      expr = parser.written d.catalog marker := by
  have htrim := Segment.trim_of_split hvalue
  have hone := Segment.isSingleReference_of_split hvalue
  obtain ⟨inner, hbraces, -⟩ := Segment.eq_of_split hvalue
  have hfull : value.isEmpty = false := by
    rw [hbraces]
    rfl
  unfold parse at h
  obtain ⟨_, _, hget, h⟩ := Work.bind_ok h
  cases hget
  cases parser with
  | strict types => exact Or.inr (singleReference_ok hvalue h)
  | boolean type =>
    have htrue : (value == Text.ofString "true") = false :=
      beq_eq_false_iff_ne.mpr (Segment.ne_of_split hvalue (by decide))
    have hfalse : (value == Text.ofString "false") = false :=
      beq_eq_false_iff_ne.mpr (Segment.ne_of_split hvalue (by decide))
    simp only [htrim, htrue, hfalse, hfull] at h
    exact Or.inr (singleReference_ok hvalue h)
  | numeric type =>
    have hnone : Number.literal? (d.catalog.decl type).name value = none := by
      rw [hbraces]
      exact literal?_brace _ _
    simp only [htrim, hfull, hnone] at h
    exact Or.inr (singleReference_ok hvalue h)
  | boxed inner type =>
    simp only [hone] at h
    exact Or.inr (singleReference_ok hvalue h)
  | string type =>
    simp only [hfull] at h
    obtain ⟨marker, hrefer, hexpr⟩ := convert_ok (w := id) hvalue h
    exact Or.inr ⟨marker, hrefer, hexpr⟩
  | intPair inner => cases hsingle
  | enumeration type =>
    simp only [htrim, hfull, hone] at h
    split at h
    · cases ‹false = true›
    · split at h
      · rename_i k hk
        have hname : k.name = value := by simpa using List.find?_some hk
        exact Or.inl ⟨type, k, rfl, List.mem_of_find?_eq_some hk, hname, h⟩
      · exact Or.inr (singleReference_ok hvalue h)
  | constant type names =>
    have hnone : (withShortNames names).lookup value = none := by
      rw [List.lookup_eq_none_iff]
      intro entry hentry
      rw [bne_iff_ne]
      exact Segment.ne_of_split hvalue (hplain entry hentry)
    simp only [htrim, hfull, hnone] at h
    exact Or.inr (singleReference_ok hvalue h)
  | length number unit => cases hsingle
  | safeHtml text type =>
    simp only [hone] at h
    exact Or.inr (singleReference_ok hvalue h)
  | safeUri text type =>
    simp only [hone] at h
    exact Or.inr (singleReference_ok hvalue h)

/-! ## Two values -/

theorem isSingleReference_of_ok {types : List (Option TypeId)} {wrap : Text → Text}
    (h : (singleReference e value wrap types).runOn d = (.ok expr, d')) :
    Segment.isSingleReference value = true := by
  unfold singleReference at h
  by_contra hnone
  rw [Bool.not_eq_true] at hnone
  rw [hnone] at h
  cases h

/-- A number that begins with a brace is a reference, so a brace closes it. -/
theorem closeBrace_of_parse_numeric {type : TypeId} {t : Text}
    (h : (parse (.numeric type) e (Segment.openBrace :: t)).runOn d = (.ok expr, d')) :
    Segment.closeBrace ∈ t := by
  have htrim := Text.trim_cons (a := Segment.openBrace) (by decide) (by decide) t
  unfold parse at h
  obtain ⟨_, _, hget, h⟩ := Work.bind_ok h
  cases hget
  simp only [htrim, literal?_brace] at h
  have hmem := Segment.closeBrace_mem (isSingleReference_of_ok h)
  rw [htrim] at hmem
  rcases List.mem_cons.mp hmem with heq | hmem
  · exact absurd heq (by decide)
  · exact Text.trim_cons_subset t hmem

/-- One reference is no pair of numbers. -/
theorem parse_intPair_ne_ok (hvalue : Segment.split value = [.reference path]) {type : TypeId} :
    (parse (.intPair (.numeric type)) e value).runOn d ≠ (.ok expr, d') := by
  obtain ⟨inner, rfl, hinner⟩ := Segment.eq_of_split hvalue
  intro h
  unfold parse at h
  obtain ⟨_, _, hget, h⟩ := Work.bind_ok h
  cases hget
  dsimp only at h
  split at h
  · rename_i first second hsplit
    obtain ⟨x, _, hfirst, -⟩ := Work.bind_ok h
    have hparts := Text.join_splitOn ','.toUInt8 (Segment.openBrace :: (inner ++ [Segment.closeBrace]))
    rw [hsplit] at hparts
    cases first with
    | nil => exact absurd (List.cons.inj hparts).1 (by decide)
    | cons b front =>
      have hjoin : Text.join [','.toUInt8] [b :: front, second] =
          b :: (front ++ ','.toUInt8 :: second) := by
        simp [Text.join]
      rw [hjoin] at hparts
      obtain ⟨rfl, hrest⟩ := List.cons.inj hparts
      have hshort : front.length ≤ inner.length := by
        have hlength := congrArg List.length hrest
        simp only [List.length_append, List.length_cons, List.length_nil] at hlength
        omega
      have hwhole : front <+: inner ++ [Segment.closeBrace] := hrest ▸ List.prefix_append _ _
      have hfront := List.prefix_of_prefix_length_le hwhole (List.prefix_append _ _) hshort
      exact hinner (hfront.subset (closeBrace_of_parse_numeric hfirst))
  · cases h

theorem lengthParts?_one (hvalue : Segment.split value = [.reference path]) :
    lengthParts? value = some (value, []) := by
  obtain ⟨inner, rfl, hinner⟩ := Segment.eq_of_split hvalue
  have hgap : isGap Segment.openBrace = false := by decide
  have hclose : (Segment.openBrace :: (inner ++ [Segment.closeBrace])).idxOf? Segment.closeBrace =
      some (inner.length + 1) := by
    rw [List.idxOf?_eq_some_iff]
    refine ⟨by simp, by simp, fun j hj hfound => ?_⟩
    cases j with
    | zero =>
      have hother : Segment.openBrace ≠ Segment.closeBrace := by decide
      exact hother hfound
    | succ j =>
      have hshort : j < inner.length := Nat.lt_of_succ_lt_succ hj
      rw [List.getElem_cons_succ, List.getElem_append_left hshort] at hfound
      exact hinner (hfound ▸ List.getElem_mem hshort)
  have hopen : Text.startsWith (Segment.openBrace :: (inner ++ [Segment.closeBrace])) "\x7b" =
      true := rfl
  have hbraces : braces? (Segment.openBrace :: (inner ++ [Segment.closeBrace])) =
      some (Segment.openBrace :: (inner ++ [Segment.closeBrace]), []) := by
    unfold braces?
    rw [hopen, if_pos rfl, hclose]
    simp [List.take_of_length_le]
  have hnone : braces? [] = none := rfl
  unfold lengthParts?
  simp [hgap, hbraces, hnone]

/-- One reference is a length that has no unit. -/
theorem parse_length_ok (hvalue : Segment.split value = [.reference path]) {float unit : TypeId}
    (h : (parse (.length (.numeric float) unit) e value).runOn d = (.ok expr, d')) :
    ∃ marker d₁ pixels, (Draft.refer e path [some float]).runOn d = (.ok marker, d₁) ∧
      (Draft.qualify unit "UnitPX").runOn d₁ = (.ok pixels, d') ∧
      expr = (d.catalog.decl float).name ++ "(" ++ marker ++ ")" ++ ", " ++ pixels := by
  have hblank : Text.trim [] = [] := rfl
  unfold parse at h
  obtain ⟨_, _, hget, h⟩ := Work.bind_ok h
  cases hget
  simp only [lengthParts?_one hvalue, hblank] at h
  obtain ⟨number, d₁, hnumber, h⟩ := Work.bind_ok h
  obtain ⟨pixels, d₂, hpixels, h⟩ := Work.bind_ok h
  cases h
  have hplain : (AttributeParser.numeric float).Plain := trivial
  rcases parse_ok hvalue rfl hplain hnumber with ⟨t, k, hother, -⟩ | ⟨marker, hrefer, rfl⟩
  · cases hother
  · exact ⟨marker, d₁, pixels, hrefer, hpixels, rfl⟩

end Attribute

end ViewBinder
