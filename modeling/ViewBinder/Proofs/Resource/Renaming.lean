-- Renaming classes. A stylesheet is read byte by byte, over quotes and escapes, up to the ends of
-- blocks and declarations. Bytes of names move no such reader, so the sheet with other class names
-- has its ends where the first one has them, and each selector keeps its parts: the classes found in
-- it are the new names, and all else is what it was.
import ViewBinder.Proofs.Resource.Selector

namespace ViewBinder

namespace Stylesheet

/-! ## Reading up to an end -/

/-- A plain byte with which a block begins or ends, or a declaration ends. -/
def isEndByte (b : UInt8) : Bool := b == ';'.toUInt8 || b == '\x7d'.toUInt8 || b == '\x7b'.toUInt8

/-- The reader gets over the text and meets no end. -/
inductive Passes : Reader → Text → Reader → Prop
  | nil {r : Reader} : Passes r [] r
  | byte {r r' : Reader} {b : UInt8} {t : Text} : (r.isPlain = true → isEndByte b = false) →
      Passes (r.step b) t r' → Passes r (b :: t) r'

/-- The pieces of what stands in front of an end, the end included. -/
def endChunks (front : Text) (b : UInt8) : List Chunk :=
  if b = '\x7b'.toUInt8 then blockChunks front else [.other (front ++ [b])]

theorem chunksFrom_cons (r : Reader) (front : Text) (b : UInt8) (rest : Text) :
    chunksFrom r front (b :: rest) =
      if r.isPlain = true ∧ isEndByte b = true then
        endChunks front.reverse b ++ chunksFrom r [] rest
      else chunksFrom (r.step b) (b :: front) rest := by
  have hclose : ∀ b : UInt8, isEndByte b = true ↔
      (b = ';'.toUInt8 ∨ b = '\x7d'.toUInt8) ∨ b = '\x7b'.toUInt8 := by
    intro b
    simp only [isEndByte, Bool.or_eq_true, beq_iff_eq]
  conv_lhs => unfold chunksFrom
  simp only [Bool.and_eq_true, Bool.or_eq_true, beq_iff_eq, hclose, endChunks]
  by_cases hplain : r.isPlain = true
  · by_cases hend : b = ';'.toUInt8 ∨ b = '\x7d'.toUInt8
    · have hopen : b ≠ '\x7b'.toUInt8 := by
        rcases hend with rfl | rfl <;> decide
      simp [hplain, hend, hopen]
    · by_cases hopen : b = '\x7b'.toUInt8
      · subst hopen
        simp [hplain, hend]
      · simp [hend, hopen]
  · simp [hplain]

theorem chunksFrom_passes {r r' : Reader} {t : Text} (h : Passes r t r') (front rest : Text) :
    chunksFrom r front (t ++ rest) = chunksFrom r' (t.reverse ++ front) rest := by
  induction h generalizing front with
  | nil => rfl
  | @byte r r' b t hend _ ih =>
    rw [List.cons_append, chunksFrom_cons, if_neg, ih, List.reverse_cons, List.append_assoc]
    · rfl
    · rintro ⟨hplain, hb⟩
      rw [hend hplain] at hb
      cases hb

theorem eq_of_isPlain {r : Reader} (h : r.isPlain = true) : r = {} := by
  obtain ⟨quote, escaped⟩ := r
  simp only [Reader.isPlain, Bool.and_eq_true, Option.isNone_iff_eq_none,
    Bool.not_eq_true'] at h
  rw [h.1, h.2]

/-- A text without an end is one piece. -/
theorem chunks_whole {t : Text} {r : Reader} (h : Passes {} t r) : chunks t = [.other t] := by
  have hwhole := chunksFrom_passes h [] []
  rw [List.append_nil, List.append_nil] at hwhole
  unfold chunks
  rw [hwhole, chunksFrom, List.reverse_reverse]

/-- Behind an end the sheet is read as from its beginning. -/
theorem chunks_end {front rest : Text} {b : UInt8} (h : Passes {} front {})
    (hb : isEndByte b = true) : chunks (front ++ b :: rest) = endChunks front b ++ chunks rest := by
  unfold chunks
  rw [chunksFrom_passes h, chunksFrom_cons, if_pos ⟨rfl, hb⟩, List.append_nil, List.reverse_reverse]

theorem passes_or_end (r : Reader) (t : Text) : (∃ r', Passes r t r') ∨
    ∃ front b rest, t = front ++ b :: rest ∧ Passes r front {} ∧ isEndByte b = true := by
  induction t generalizing r with
  | nil => exact .inl ⟨r, .nil⟩
  | cons b t ih =>
    by_cases hend : r.isPlain = true ∧ isEndByte b = true
    · obtain rfl := eq_of_isPlain hend.1
      exact .inr ⟨[], b, t, rfl, .nil, hend.2⟩
    · have hb : r.isPlain = true → isEndByte b = false := fun hplain =>
        Bool.not_eq_true _ ▸ fun h => hend ⟨hplain, h⟩
      rcases ih (r.step b) with ⟨r', h⟩ | ⟨front, c, rest, rfl, h, hc⟩
      · exact .inl ⟨r', .byte hb h⟩
      · exact .inr ⟨b :: front, c, rest, rfl, .byte hb h, hc⟩

/-! ## Readers and names -/

/-- A quote that is open is no part of a name. -/
def Reader.Sound (r : Reader) : Prop := ∀ q ∈ r.quote, isNameByte q = false

theorem Reader.Sound.step {r : Reader} (h : r.Sound) (b : UInt8) : (r.step b).Sound := by
  unfold Reader.step
  split
  · exact h
  · split
    · exact h
    · split
      · split
        · exact fun q hq => nomatch hq
        · exact h
      · split
        · rename_i hquote
          intro q hq
          obtain rfl := Option.some.inj hq
          exact (bytes_of_quote b hquote).2
        · exact h

theorem bytes_of_read : ∀ b : UInt8, isNameByte b = true ∨ b = '.'.toUInt8 →
    b ≠ '\\'.toUInt8 ∧ isQuote b = false ∧ isEndByte b = false := by
  refine Text.forall_byte ?_
  decide

theorem Reader.step_name {r : Reader} (hr : r.Sound) (hescaped : r.escaped = false) {b : UInt8}
    (hb : isNameByte b = true) : r.step b = r := by
  obtain ⟨hslash, hquote, -⟩ := bytes_of_read b (.inl hb)
  obtain ⟨quote, escaped⟩ := r
  obtain rfl : escaped = false := hescaped
  cases quote with
  | none =>
    have hopen : (b == '\"'.toUInt8 || b == '\''.toUInt8) = false := hquote
    simp [Reader.step, hslash, hopen]
  | some q =>
    have hq : b ≠ q := by
      intro heq
      have hsound := hr q rfl
      rw [← heq, hb] at hsound
      cases hsound
    simp [Reader.step, hslash, hq]

theorem Reader.escaped_step_dot (r : Reader) : (r.step '.'.toUInt8).escaped = false := by
  unfold Reader.step
  split
  · rfl
  · rename_i hescaped
    have hplain : r.escaped = false := by simpa using hescaped
    split
    · rename_i hslash
      exact absurd hslash (by decide)
    · split
      · split
        · rfl
        · exact hplain
      · split
        · rfl
        · exact hplain

/-- Names are passed over as if they were not there. -/
theorem passes_name {r r' : Reader} (hr : r.Sound) (hescaped : r.escaped = false)
    {name t : Text} (hname : name.all isNameByte = true) :
    Passes r (name ++ t) r' ↔ Passes r t r' := by
  induction name with
  | nil => exact Iff.rfl
  | cons b name ih =>
    rw [List.all_cons, Bool.and_eq_true] at hname
    have hstep := Reader.step_name hr hescaped hname.1
    rw [List.cons_append, ← ih hname.2]
    constructor
    · intro h
      cases h with
      | byte _ h => rwa [hstep] at h
    · intro h
      refine .byte (fun _ => (bytes_of_read b (.inl hname.1)).2.2) ?_
      rwa [hstep]

/-- A reader gets to the same state over a text that is alike. -/
theorem Alike.passes {t u : Text} (halike : Alike t u) {r r' : Reader} (hr : r.Sound)
    (h : Passes r t r') : Passes r u r' := by
  induction halike generalizing r with
  | nil => exact h
  | byte b _ ih =>
    cases h with
    | byte hend h => exact .byte hend (ih (hr.step b) h)
  | name hname hnew _ ih =>
    cases h with
    | byte hend h =>
      have hstep := r.escaped_step_dot
      have hsound := hr.step '.'.toUInt8
      rw [passes_name hsound hstep hname] at h
      exact .byte hend ((passes_name hsound hstep hnew).mpr (ih hsound h))

/-! ## Pieces under new names -/

/-- A piece with new names for its classes. -/
def Chunk.renamed (names : List (Text × Text)) : Chunk → Chunk
  | selector t => .selector (renameSelector names t)
  | other t => .other t

theorem rename_eq_chunks (s : Stylesheet) (names : List (Text × Text)) :
    s.rename names = (chunks s.text).flatMap fun chunk => (chunk.renamed names).text := by
  refine List.flatMap_congr fun chunk _ => ?_
  cases chunk <;> rfl

theorem blockChunks_eq (front : Text) : blockChunks front =
    if front.dropWhile isSpaceByte = [] ∨ (front.dropWhile isSpaceByte).head? = some '@'.toUInt8 then
      [.other (front ++ "\x7b")]
    else [.other (front.takeWhile isSpaceByte), .selector (front.dropWhile isSpaceByte),
      .other "\x7b"] := by
  have hat : ∀ t : Text, Text.startsWith t "@" = true ↔ t.head? = some '@'.toUInt8 :=
    fun t => Text.startsWith_one_iff
  unfold blockChunks
  simp only [drop_takeWhile, Bool.or_eq_true, List.isEmpty_iff, hat]

section Renamed

variable {names : List (Text × Text)}

/-- In front of the same end, the pieces under new names are the pieces of a text that is alike. -/
theorem endChunks_renamed (hnames : AreNames names) (front : Text) (b : UInt8) :
    ∃ front', Alike front front' ∧
      ((endChunks front b).flatMap fun chunk => (chunk.renamed names).text) = front' ++ [b] ∧
      endChunks front' b = (endChunks front b).map (Chunk.renamed names) := by
  by_cases hopen : b = '\x7b'.toUInt8
  · subst hopen
    have hblock : ∀ front, endChunks front '\x7b'.toUInt8 = blockChunks front := fun _ => rfl
    rw [hblock, blockChunks_eq]
    split
    · rename_i hno
      refine ⟨front, .refl front, List.append_nil _, ?_⟩
      rw [hblock, blockChunks_eq, if_pos hno]
      rfl
    · rename_i hselector
      have hfront := List.takeWhile_append_dropWhile (p := isSpaceByte) (l := front)
      have hblanks : (front.takeWhile isSpaceByte).all isSpaceByte = true := List.all_takeWhile
      have hstop := head?_dropWhile isSpaceByte front
      generalize front.takeWhile isSpaceByte = blanks at *
      generalize front.dropWhile isSpaceByte = selector at *
      have halike := alike_renameSelector hnames selector
      have hstop' : ∀ a ∈ (renameSelector names selector).head?, isSpaceByte a = false := by
        rwa [halike.head?]
      have hselector' : ¬(renameSelector names selector = [] ∨
          (renameSelector names selector).head? = some '@'.toUInt8) := by
        rwa [← List.head?_eq_none_iff, halike.head?, List.head?_eq_none_iff]
      refine ⟨blanks ++ renameSelector names selector, ?_, ?_, ?_⟩
      · rw [← hfront]
        exact (Alike.refl blanks).append halike
      · simp only [List.flatMap_cons, List.flatMap_nil, Chunk.renamed, Chunk.text]
        rw [List.append_nil, List.append_assoc]
        rfl
      · rw [hblock, blockChunks_eq, takeWhile_run hblanks hstop', dropWhile_run hblanks hstop',
          if_neg hselector']
        rfl
  · have hother : ∀ front, endChunks front b = [.other (front ++ [b])] := fun _ => if_neg hopen
    refine ⟨front, .refl front, ?_, ?_⟩
    · rw [hother]
      exact List.append_nil _
    · rw [hother]
      rfl

/-- The text of the pieces under new names falls into the pieces under new names. -/
theorem chunks_renamed (hnames : AreNames names) (css : Text) :
    chunks ((chunks css).flatMap fun chunk => (chunk.renamed names).text) =
      (chunks css).map (Chunk.renamed names) := by
  induction hlength : css.length using Nat.strongRecOn generalizing css with
  | ind n ih =>
    rcases passes_or_end {} css with ⟨r, hpasses⟩ | ⟨front, b, rest, rfl, hpasses, hb⟩
    · have hwhole := chunks_whole hpasses
      have hsame : ([Chunk.other css].flatMap fun chunk => (chunk.renamed names).text) = css :=
        List.append_nil css
      rw [hwhole, hsame, hwhole]
      rfl
    · obtain ⟨front', halike, htext, hchunks⟩ := endChunks_renamed hnames front b
      have hsound : Reader.Sound {} := fun q hq => nomatch hq
      have hshorter : rest.length < n := by
        rw [← hlength, List.length_append, List.length_cons]
        omega
      rw [chunks_end hpasses hb, List.flatMap_append, htext, List.append_assoc, List.singleton_append,
        chunks_end (halike.passes hsound hpasses) hb, hchunks, ih _ hshorter rest rfl, List.map_append]

/-- A sheet with new names falls into the pieces of the sheet under their new names. -/
theorem pieces_rename (hnames : AreNames names) (s : Stylesheet) :
    pieces (s.rename names) = (pieces s.text).map (Part.renamed names) := by
  unfold pieces
  rw [rename_eq_chunks, chunks_renamed hnames, List.flatMap_map, List.map_flatMap]
  refine List.flatMap_congr fun chunk _ => ?_
  cases chunk with
  | selector t => exact parts_renameSelector hnames t
  | other t => rfl

end Renamed

/-! ## Classes -/

/-- The class names of the selectors, one for each time it is used. -/
def occurrences (css : Text) : List Text :=
  (chunks css).flatMap fun chunk =>
    match chunk with
    | .selector t => selectorClasses t
    | .other _ => []

/-- The text without the class names of its selectors; their dots stay. -/
def withoutClasses (css : Text) : Text :=
  (pieces css).flatMap fun part =>
    match part with
    | .className _ => "."
    | .other t => t

/-- No comment is in the text. -/
def IsCommentFree (css : Text) : Prop :=
  ∀ before inside behind : Text, css ≠ before ++ ("/*" ++ (inside ++ ("*/" ++ behind)))

theorem occurrences_eq (css : Text) : occurrences css = (pieces css).filterMap fun part =>
    match part with
    | .className name => some name
    | .other _ => none := by
  unfold occurrences pieces
  rw [List.filterMap_flatMap]
  refine List.flatMap_congr fun chunk _ => ?_
  cases chunk with
  | selector t => rfl
  | other t => rfl

theorem text_of_indexOf? {part t : Text} {n : Nat} (h : Text.indexOf? part t = some n) :
    ∃ before behind : Text, t = before ++ (part ++ behind) := by
  induction t generalizing n with
  | nil =>
    unfold Text.indexOf? at h
    split at h
    · rename_i hempty
      rw [List.isEmpty_iff.mp hempty]
      exact ⟨[], [], rfl⟩
    · cases h
  | cons b t ih =>
    unfold Text.indexOf? at h
    split at h
    · rename_i hfront
      obtain ⟨behind, hbehind⟩ := List.isPrefixOf_iff_prefix.mp hfront
      exact ⟨[], behind, hbehind.symm⟩
    · obtain ⟨k, hk, -⟩ := Option.map_eq_some_iff.mp h
      obtain ⟨before, behind, rfl⟩ := ih hk
      exact ⟨b :: before, behind, rfl⟩

theorem comment_of_commentSize? {t : Text} {size : Nat} (h : commentSize? t = some size) :
    ∃ inside behind : Text, t = "/*" ++ (inside ++ ("*/" ++ behind)) := by
  unfold commentSize? at h
  split at h
  · rename_i hopen
    obtain ⟨n, hn, -⟩ := Option.map_eq_some_iff.mp h
    obtain ⟨rest, rfl⟩ := List.isPrefixOf_iff_prefix.mp hopen
    obtain ⟨inside, behind, hrest⟩ := text_of_indexOf? hn
    exact ⟨inside, behind, congrArg _ hrest⟩
  · cases h

theorem stripComments_of_free {css : Text} (hcss : IsCommentFree css) : stripComments css = css := by
  show stripFrom 0 css = css
  induction css with
  | nil => rfl
  | cons b rest ih =>
    have hnone : commentSize? (b :: rest) = none := by
      by_contra hsome
      obtain ⟨size, hsize⟩ := Option.ne_none_iff_exists'.mp hsome
      obtain ⟨inside, behind, hcomment⟩ := comment_of_commentSize? hsize
      exact hcss [] inside behind hcomment
    have hrest : IsCommentFree rest := fun before inside behind heq =>
      hcss (b :: before) inside behind (congrArg _ heq)
    rw [stripFrom, hnone]
    exact congrArg _ (ih hrest)

theorem rename_nil (s : Stylesheet) : s.rename [] = s.text := by
  have hsame : ∀ part : Part, part.renamed [] = part := by
    intro part
    cases part <;> rfl
  rw [rename_eq]
  simp only [hsame]
  exact text_pieces s.text

/-- In a sheet with other class names the classes are found where they were found before, each under
its new name, and all that is not a class name is the same; without new names it is the sheet. -/
theorem renamed_classes_are_the_classes_renamed {css : Text} {names : List (Text × Text)}
    (hcss : IsCommentFree css) (hnames : AreNames names) :
    occurrences ((parse css).rename names) =
        (occurrences css).map (fun name => (names.lookup name).getD name) ∧
      withoutClasses ((parse css).rename names) = withoutClasses css ∧
      (parse css).rename [] = css := by
  have htext : (parse css).text = css := stripComments_of_free hcss
  have hpieces := pieces_rename hnames (parse css)
  rw [htext] at hpieces
  refine ⟨?_, ?_, ?_⟩
  · rw [occurrences_eq, occurrences_eq, hpieces, List.filterMap_map, List.map_filterMap]
    refine List.filterMap_congr fun part _ => ?_
    cases part <;> rfl
  · unfold withoutClasses
    rw [hpieces, List.flatMap_map]
    refine List.flatMap_congr fun part _ => ?_
    cases part <;> rfl
  · rw [rename_nil, htext]

/-- One class takes the other's name; what stands in a test, in a declaration or in front of the block
of an at-rule is no class. -/
theorem renamed_classes_of_swapped_names :
    let css : Text := ".a:not(.b)[title=\".a\"]\x7bx:.a\x7d@media .a\x7b.b\x7b\x7d\x7d"
    let names : List (Text × Text) := [("a", "b"), ("b", "b-1")]
    IsCommentFree css ∧ AreNames names ∧
      occurrences ((parse css).rename names) = [Text.ofString "b", "b-1", "b-1"] ∧
      withoutClasses ((parse css).rename names) =
        ".:not(.)[title=\".a\"]\x7bx:.a\x7d@media .a\x7b.\x7b\x7d\x7d" ∧
      (parse css).rename [] = css := by
  intro css names
  have hcss : IsCommentFree css := by
    intro before inside behind heq
    have hstar : '*'.toUInt8 ∉ css := by decide
    have hcomment : '*'.toUInt8 ∈ Text.ofString "/*" := by decide
    rw [heq] at hstar
    exact hstar (List.mem_append_right _ (List.mem_append_left _ hcomment))
  have hnames : AreNames names := by decide
  obtain ⟨hoccurrences, hrest, hsame⟩ := renamed_classes_are_the_classes_renamed hcss hnames
  refine ⟨hcss, hnames, hoccurrences.trans ?_, hrest.trans ?_, hsame⟩
  · decide
  · decide

end Stylesheet

end ViewBinder
