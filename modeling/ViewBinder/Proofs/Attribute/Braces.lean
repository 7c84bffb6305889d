-- Braces in attribute values. Segments are spelled with the braces of their literals doubled and
-- each reference in braces of its own; splitting such a value gives the segments back. Of all the
-- sequences of segments, those that can be spelled at all are described by what stands in them.
import ViewBinder.Proofs.Attribute.Single

namespace ViewBinder

namespace Segment

/-! ## What splitting gives -/

theorem splitFrom_eq_drop (skip : Nat) (t : Text) : splitFrom skip t = split (t.drop skip) := by
  induction t generalizing skip with
  | nil => cases skip <;> rfl
  | cons b rest ih =>
    cases skip with
    | zero => rfl
    | succ skip =>
      rw [List.drop_succ_cons, ← ih skip]
      rfl

theorem split_cons_of_ne {b : UInt8} (h : b ≠ openBrace) (rest : Text) :
    split (b :: rest) = addByte b (split rest) := by
  show splitFrom 0 (b :: rest) = _
  simp [splitFrom, h, split]

/-- Two braces are one. -/
theorem split_double (rest : Text) :
    split (openBrace :: openBrace :: rest) = addByte openBrace (split rest) := by
  show splitFrom 0 (openBrace :: openBrace :: rest) = _
  simp [splitFrom, split]

/-- Text joins the literal it stands in front of. -/
theorem addText_cons (b : UInt8) (t : Text) (segments : List Segment) :
    addText (b :: t) segments = match segments with
      | .literal u :: more => .literal (b :: t ++ u) :: more
      | _ => .literal (b :: t) :: segments := by
  unfold addText
  induction t generalizing b with
  | nil =>
    cases segments with
    | nil => rfl
    | cons s more => cases s <;> rfl
  | cons c t ih =>
    rw [List.foldr_cons, ih c]
    cases segments with
    | nil => rfl
    | cons s more => cases s <;> rfl

/-- A brace that is no double one begins a reference, or what follows is text. -/
theorem split_single {rest : Text} (h : rest.head? ≠ some openBrace) :
    split (openBrace :: rest) = match rest.idxOf? closeBrace with
      | some n => .reference (Text.trim (rest.take n)) :: split (rest.drop (n + 1))
      | none => [.literal (openBrace :: rest)] := by
  show splitFrom 0 (openBrace :: rest) = _
  cases rest with
  | nil => simp [splitFrom]
  | cons c rest =>
    have hc : c ≠ openBrace := by simpa using h
    simp only [splitFrom, bne_self_eq_false, Bool.false_eq_true, if_false, beq_iff_eq, hc]
    cases List.idxOf? closeBrace (c :: rest) with
    | none => simp [addText_cons]
    | some n => simp only [splitFrom_eq_drop, List.drop_succ_cons]

/-- No two literals stand side by side, and none is empty. -/
def Apart (segments : List Segment) : Prop :=
  segments.IsChain (fun s s' => s.isReference || s'.isReference) ∧ .literal [] ∉ segments

theorem apart_addByte (b : UInt8) {segments : List Segment} (h : Apart segments) :
    Apart (addByte b segments) := by
  obtain ⟨hchain, hfull⟩ := h
  unfold addByte
  split
  · rename_i t rest
    have hrest : literal [] ∉ rest := fun hmem => hfull (List.mem_cons_of_mem _ hmem)
    refine ⟨?_, by simpa using hrest⟩
    cases rest with
    | nil => simp
    | cons s rest => simpa [isReference] using hchain
  · rename_i hother
    refine ⟨?_, by simpa using hfull⟩
    cases segments with
    | nil => simp
    | cons s rest =>
      cases s with
      | literal t => exact absurd rfl (hother t rest)
      | reference path => simpa [isReference] using hchain

theorem apart_split (value : Text) : Apart (split value) := by
  induction hlen : value.length using Nat.strongRecOn generalizing value with
  | _ n ih =>
    cases value with
    | nil => exact ⟨by simp [split, splitFrom], by simp [split, splitFrom]⟩
    | cons b rest =>
      subst hlen
      by_cases hb : b = openBrace
      · subst hb
        by_cases hdouble : rest.head? = some openBrace
        · obtain ⟨rest, rfl⟩ := List.head?_eq_some_iff.mp hdouble
          rw [split_double]
          exact apart_addByte _ (ih _ (by simp only [List.length_cons]; omega) rest rfl)
        · rw [split_single hdouble]
          split
          · rename_i n _
            obtain ⟨hchain, hfull⟩ := ih (rest.drop (n + 1)).length
              (by simp only [List.length_drop, List.length_cons]; omega) _ rfl
            refine ⟨?_, by simpa using hfull⟩
            generalize split (rest.drop (n + 1)) = more at hchain
            cases more with
            | nil => simp
            | cons s more => simpa [isReference] using hchain
          · exact ⟨by simp, by simp⟩
      · rw [split_cons_of_ne hb]
        exact apart_addByte b (ih _ (by simp) rest rfl)

/-! ## Spelling segments -/

/-- A byte of a literal as values spell it. -/
def spellByte (b : UInt8) : Text := if b = openBrace then [openBrace, openBrace] else [b]

/-- A segment as values spell it: the braces of a literal are doubled, a reference stands in
braces. -/
def spelling : Segment → Text
  | literal t => t.flatMap spellByte
  | reference path => openBrace :: (path ++ [closeBrace])

/-- The segment is something that a value can spell: a literal that is not empty, or a reference
that does not end early, does not look like a double brace and has no blanks at its ends. -/
def IsSpellable : Segment → Prop
  | literal t => t ≠ []
  | reference path => closeBrace ∉ path ∧ path.head? ≠ some openBrace ∧ path.IsTrim

theorem split_literal_append (t rest : Text) :
    split ((literal t).spelling ++ rest) = addText t (split rest) := by
  show split (t.flatMap spellByte ++ rest) = t.foldr addByte (split rest)
  induction t with
  | nil => rfl
  | cons b t ih =>
    rw [List.flatMap_cons, List.foldr_cons, ← ih]
    by_cases hb : b = openBrace
    · subst hb
      exact split_double _
    · simp only [spellByte, hb, if_false]
      exact split_cons_of_ne hb _

theorem addText_eq_cons_iff {t : Text} {segments rest : List Segment} (h : Apart segments) :
    addText t segments = .literal t :: rest ↔
      segments = rest ∧ Apart (.literal t :: rest) := by
  cases t with
  | nil =>
    constructor
    · rintro (rfl : segments = .literal [] :: rest)
      exact absurd List.mem_cons_self h.2
    · rintro ⟨-, -, hfull⟩
      exact absurd List.mem_cons_self hfull
  | cons b t =>
    rw [addText_cons]
    cases segments with
    | nil =>
      constructor
      · intro heq
        cases heq
        exact ⟨rfl, by simp, by simp⟩
      · rintro ⟨rfl, -⟩
        rfl
    | cons s more =>
      cases s with
      | literal u =>
        have hu : u ≠ [] := by
          rintro rfl
          exact h.2 List.mem_cons_self
        constructor
        · intro heq
          simp [hu] at heq
        · rintro ⟨rfl, hchain, -⟩
          simp [isReference] at hchain
      | reference path =>
        constructor
        · intro heq
          cases heq
          refine ⟨rfl, ?_, ?_⟩
          · simpa [isReference] using h.1
          · simpa using h.2
        · rintro ⟨rfl, -⟩
          rfl

/-- What stands in braces is a reference, unless it begins with a brace itself. -/
theorem split_braced {path : Text} (hclose : closeBrace ∉ path)
    (hopen : path.head? ≠ some openBrace) (rest : Text) :
    split (openBrace :: (path ++ closeBrace :: rest)) =
      .reference (Text.trim path) :: split rest := by
  have hhead : (path ++ closeBrace :: rest).head? ≠ some openBrace := by
    have hother : closeBrace ≠ openBrace := by decide
    cases path with
    | nil => simpa using hother
    | cons c path => simpa using hopen
  have hend : (path ++ closeBrace :: rest).idxOf? closeBrace = some path.length := by
    rw [List.idxOf?_eq_some_iff]
    refine ⟨by simp, by simp, fun j hj hfound => ?_⟩
    rw [List.getElem_append_left hj] at hfound
    exact hclose (hfound ▸ List.getElem_mem hj)
  have hrest : (path ++ closeBrace :: rest).drop (path.length + 1) = rest := by
    simp [List.drop_append]
  rw [split_single hhead, hend]
  simp [hrest]

theorem split_reference_append {path : Text} (h : IsSpellable (.reference path)) (rest : Text) :
    split ((reference path).spelling ++ rest) = .reference path :: split rest := by
  obtain ⟨hclose, hopen, htrim⟩ := h
  have hshape : (reference path).spelling ++ rest =
      openBrace :: (path ++ closeBrace :: rest) := by
    simp [spelling]
  rw [hshape, split_braced hclose hopen, (Text.trim_eq_self_iff path).mpr htrim]

/-- A reference is read back from its spelling only if it can be spelled. -/
theorem isSpellable_of_split {path rest : Text} {segments : List Segment}
    (h : split ((reference path).spelling ++ rest) = .reference path :: segments) :
    IsSpellable (.reference path) := by
  have hshape : (reference path).spelling ++ rest =
      openBrace :: (path ++ closeBrace :: rest) := by
    simp [spelling]
  rw [hshape] at h
  have hhead : (path ++ closeBrace :: rest).head? ≠ some openBrace := by
    intro hdouble
    obtain ⟨more, hmore⟩ := List.head?_eq_some_iff.mp hdouble
    rw [hmore, split_double] at h
    exact addByte_ne_reference _ _ _ h
  rw [split_single hhead] at h
  split at h
  · rename_i n hend
    obtain ⟨hpath, -⟩ := List.cons.inj h
    have hpath : Text.trim ((path ++ closeBrace :: rest).take n) = path := by simpa using hpath
    obtain ⟨hn, hat, hbefore⟩ := List.idxOf?_eq_some_iff.mp hend
    -- the reference ends no later than it was written to end, and no earlier, or it would be shorter
    have hlate : n ≤ path.length := by
      by_contra hlong
      have hbrace := hbefore path.length (by omega)
      simp at hbrace
    have hlength := Text.length_trim_le ((path ++ closeBrace :: rest).take n)
    rw [hpath, List.length_take] at hlength
    obtain rfl : n = path.length := by omega
    rw [List.take_left] at hpath
    refine ⟨fun hmem => ?_, ?_, (Text.trim_eq_self_iff path).mp hpath⟩
    · obtain ⟨j, hj, hfound⟩ := List.mem_iff_getElem.mp hmem
      refine hbefore j hj ?_
      rw [List.getElem_append_left hj]
      exact hfound
    · cases path with
      | nil => simp
      | cons c path => simpa using hhead
  · cases h

theorem apart_cons_reference {path : Text} {segments : List Segment} :
    Apart (.reference path :: segments) ↔ Apart segments := by
  unfold Apart
  cases segments <;> simp [isReference]

/-- Segments are read back from the value that spells them exactly if each of them can be spelled
and no two literals stand side by side. -/
theorem split_spelling_iff (segments : List Segment) :
    split (segments.flatMap spelling) = segments ↔
      (∀ s ∈ segments, s.IsSpellable) ∧
        segments.IsChain (fun s s' => s.isReference || s'.isReference) := by
  have happart : split (segments.flatMap spelling) = segments ↔
      Apart segments ∧ ∀ s ∈ segments, s.IsSpellable := by
    induction segments with
    | nil => simp [split, splitFrom, Apart]
    | cons s segments ih =>
      rw [List.flatMap_cons, List.forall_mem_cons]
      cases s with
      | literal t =>
        rw [split_literal_append, addText_eq_cons_iff (apart_split _), ih]
        constructor
        · rintro ⟨⟨-, hall⟩, happart⟩
          refine ⟨happart, ?_, hall⟩
          rintro rfl
          exact happart.2 List.mem_cons_self
        · rintro ⟨happart, -, hall⟩
          refine ⟨⟨⟨List.IsChain.of_cons happart.1, ?_⟩, hall⟩, happart⟩
          exact fun hmem => happart.2 (List.mem_cons_of_mem _ hmem)
      | reference path =>
        rw [apart_cons_reference]
        constructor
        · intro h
          have hspellable := isSpellable_of_split h
          rw [split_reference_append hspellable] at h
          obtain ⟨happart, hall⟩ := ih.mp (List.cons.inj h).2
          exact ⟨happart, hspellable, hall⟩
        · rintro ⟨happart, hspellable, hall⟩
          rw [split_reference_append hspellable, ih.mpr ⟨happart, hall⟩]
  rw [happart]
  constructor
  · rintro ⟨⟨hchain, -⟩, hall⟩
    exact ⟨hall, hchain⟩
  · rintro ⟨hall, hchain⟩
    exact ⟨⟨hchain, fun hmem => hall _ hmem rfl⟩, hall⟩

example : split "a \x7bb.c\x7d \x7b\x7bd\x7d \x7be\x7d" =
    [.literal "a ", .reference "b.c", .literal " \x7bd\x7d ", .reference "e"] := by decide

/-! ## Values without references -/

/-- The text that a value stands for if it refers to nothing: that of its segments. -/
def literalText (value : Text) : Text := (split value).flatMap text

theorem flatMap_text_addByte (b : UInt8) (segments : List Segment) :
    (addByte b segments).flatMap text = b :: segments.flatMap text := by
  unfold addByte
  split <;> simp [text]

theorem any_isReference_addByte (b : UInt8) (segments : List Segment) :
    (addByte b segments).any isReference = segments.any isReference := by
  unfold addByte
  split <;> simp [isReference]

/-- Such a value is empty or one literal. -/
theorem split_of_plain {value : Text} (h : hasReference value = false) :
    value = [] ∨ literalText value ≠ [] ∧ split value = [.literal (literalText value)] := by
  obtain ⟨hchain, hfull⟩ := apart_split value
  unfold hasReference at h
  unfold literalText
  rcases hsplit : split value with _ | ⟨s, segments⟩
  · left
    have hlength := splitFrom_eq_nil hsplit
    exact List.length_eq_zero_iff.mp (by omega)
  · right
    rw [hsplit] at hchain hfull h
    cases s with
    | reference path => simp [isReference] at h
    | literal t =>
      cases segments with
      | nil =>
        have ht : t ≠ [] := by
          rintro rfl
          exact hfull List.mem_cons_self
        simpa [text] using ht
      | cons s' segments =>
        cases s' with
        | literal t' => simp [isReference] at hchain
        | reference path => simp [isReference] at h

/-- No more stands in the segments of a value than in the value. -/
theorem length_literalText_le (value : Text) : (literalText value).length ≤ value.length := by
  induction hlen : value.length using Nat.strongRecOn generalizing value with
  | _ n ih =>
    subst hlen
    unfold literalText at ih ⊢
    cases value with
    | nil => simp [split, splitFrom]
    | cons b rest =>
      by_cases hb : b = openBrace
      · subst hb
        by_cases hdouble : rest.head? = some openBrace
        · obtain ⟨rest, rfl⟩ := List.head?_eq_some_iff.mp hdouble
          have hrest := ih rest.length (by simp only [List.length_cons]; omega) rest rfl
          rw [split_double, flatMap_text_addByte]
          simp only [List.length_cons]
          omega
        · rw [split_single hdouble]
          split
          · rename_i n _
            have hrest := ih (rest.drop (n + 1)).length
              (by simp only [List.length_drop, List.length_cons]; omega) _ rfl
            have htrim := Text.length_trim_le (rest.take n)
            simp only [List.flatMap_cons, text, List.length_append, List.length_cons,
              List.length_drop, List.length_take] at hrest htrim ⊢
            omega
          · simp [text]
      · have hrest := ih rest.length (by simp) rest rfl
        rw [split_cons_of_ne hb, flatMap_text_addByte]
        simpa using hrest

/-- A value without references stands for other text than itself exactly if its first brace is
doubled: behind a single one that is never closed, nothing is read as a double one. -/
theorem literalText_eq_self_iff {value : Text} (h : hasReference value = false) :
    literalText value = value ↔ ¬ ∃ front back,
      openBrace ∉ front ∧ value = front ++ openBrace :: openBrace :: back := by
  induction value with
  | nil => simp [literalText, split, splitFrom]
  | cons b rest ih =>
    by_cases hb : b = openBrace
    · subst hb
      by_cases hdouble : rest.head? = some openBrace
      · obtain ⟨rest, rfl⟩ := List.head?_eq_some_iff.mp hdouble
        have hshort := length_literalText_le rest
        have hne : literalText (openBrace :: openBrace :: rest) ≠
            openBrace :: openBrace :: rest := by
          intro heq
          unfold literalText at heq hshort
          rw [split_double, flatMap_text_addByte] at heq
          have hlength := congrArg List.length heq
          simp only [List.length_cons] at hlength
          omega
        constructor
        · exact fun heq => absurd heq hne
        · exact fun hnone => absurd ⟨[], rest, List.not_mem_nil, rfl⟩ hnone
      · have hself : literalText (openBrace :: rest) = openBrace :: rest := by
          unfold hasReference at h
          unfold literalText
          rw [split_single hdouble] at h ⊢
          split at h
          · simp [isReference] at h
          · rename_i hnone
            simp [text]
        refine ⟨fun _ => ?_, fun _ => hself⟩
        rintro ⟨front, back, hfront, hshape⟩
        cases front with
        | nil =>
          obtain ⟨-, rfl⟩ := List.cons.inj hshape
          exact hdouble rfl
        | cons c front =>
          obtain ⟨rfl, -⟩ := List.cons.inj hshape
          exact hfront List.mem_cons_self
    · have hrest : hasReference rest = false := by
        unfold hasReference at h ⊢
        rwa [split_cons_of_ne hb, any_isReference_addByte] at h
      have hcons : literalText (b :: rest) = b :: literalText rest := by
        unfold literalText
        rw [split_cons_of_ne hb, flatMap_text_addByte]
      rw [hcons, List.cons_inj_right, ih hrest, not_iff_not]
      constructor
      · rintro ⟨front, back, hfront, rfl⟩
        exact ⟨b :: front, back, by simp [hfront, Ne.symm hb], rfl⟩
      · rintro ⟨front, back, hfront, hshape⟩
        cases front with
        | nil => exact absurd (List.cons.inj hshape).1 hb
        | cons c front =>
          obtain ⟨rfl, rfl⟩ := List.cons.inj hshape
          exact ⟨front, back, fun hmem => hfront (List.mem_cons_of_mem _ hmem), rfl⟩

/-- What stands in braces behind text is a reference. -/
theorem hasReference_append_braced {front path : Text} (hfront : openBrace ∉ front)
    (hclose : closeBrace ∉ path) (hopen : path.head? ≠ some openBrace) (back : Text) :
    hasReference (front ++ openBrace :: (path ++ closeBrace :: back)) = true := by
  unfold hasReference
  induction front with
  | nil =>
    rw [List.nil_append, split_braced hclose hopen]
    simp [isReference]
  | cons b front ih =>
    obtain ⟨hb, hfront⟩ := not_or.mp fun hor => hfront (List.mem_cons.mpr hor)
    rw [List.cons_append, split_cons_of_ne (Ne.symm hb), any_isReference_addByte]
    exact ih hfront

/-- A value without references is not one reference with blanks around it. -/
theorem isSingleReference_of_plain {value : Text} (h : hasReference value = false) :
    isSingleReference value = false := by
  by_contra hsingle
  unfold isSingleReference at hsingle
  split at hsingle
  · rename_i path hsplit
    -- blanks hold no brace, so what is read of the value in front of the reference is text
    obtain ⟨front, back, hvalue, hblank⟩ := Text.trim_cut value
    obtain ⟨inner, hinner, hclose⟩ := eq_of_split hsplit
    have hfront : openBrace ∉ front := fun hmem =>
      absurd (hblank openBrace (List.mem_append_left _ hmem) (by decide)) (by decide)
    have hopen : inner.head? ≠ some openBrace := by
      intro hdouble
      obtain ⟨more, rfl⟩ := List.head?_eq_some_iff.mp hdouble
      rw [hinner, List.cons_append, split_double] at hsplit
      exact addByte_ne_reference _ _ _ hsplit
    have hshape : value = front ++ openBrace :: (inner ++ closeBrace :: back) := by
      rw [hinner] at hvalue
      simpa using hvalue
    rw [hshape, hasReference_append_braced hfront hclose hopen] at h
    cases h
  · exact hsingle rfl

end Segment

/-! ## What parsers of texts make of values without references -/

namespace Attribute

variable {value : Text}

/-- The text of the segments is quoted. -/
theorem parse_string_plain (h : Segment.hasReference value = false) (type : Option TypeId) (e : Nat)
    (d : Draft) : (parse (.string type) e value).runOn d =
      (.ok (Text.quote (Segment.literalText value)), d) := by
  rcases Segment.split_of_plain h with rfl | ⟨-, hsplit⟩
  · rfl
  · have hfull : value.isEmpty = false := by
      rw [List.isEmpty_eq_false_iff]
      rintro rfl
      cases hsplit
    unfold parse
    rw [Work.runOn_bind, Work.runOn_get]
    simp only [hfull]
    unfold convert
    rw [hsplit]
    simp only [List.mapM_cons, List.mapM_nil]
    exact congrArg (fun t => (Except.ok t, d)) (join_filter_one _ _)

/-- The quoted text of the segments is trusted. -/
theorem parse_safeHtml_plain (h : Segment.hasReference value = false) (type : Option TypeId)
    (t : TypeId) (e : Nat) (d : Draft) :
    (parse (.safeHtml (.string type) t) e value).runOn d =
      (.ok ((d.imports.qualify (d.catalog.decl t) "FromTrustedString").1 ++ "(" ++
        Text.quote (Segment.literalText value) ++ ")"),
        { d with imports := (d.imports.qualify (d.catalog.decl t) "FromTrustedString").2 }) := by
  unfold parse
  rw [Work.runOn_bind, Work.runOn_get]
  simp only [Segment.isSingleReference_of_plain h]
  show (parse (.string type) e value >>= _).runOn d = _
  rw [Work.runOn_bind, parse_string_plain h]
  rfl

/-- The value is quoted as it is. -/
theorem parse_safeUri_plain (h : Segment.hasReference value = false) (text : AttributeParser)
    (t : TypeId) (e : Nat) (d : Draft) :
    (parse (.safeUri text t) e value).runOn d =
      (.ok ((d.imports.qualify (d.catalog.decl t) "URIFromConstant").1 ++ "(" ++
        Text.quote value ++ ")"),
        { d with imports := (d.imports.qualify (d.catalog.decl t) "URIFromConstant").2 }) := by
  unfold parse
  rw [Work.runOn_bind, Work.runOn_get]
  simp only [Segment.isSingleReference_of_plain h, h]
  rfl

end Attribute

end ViewBinder
