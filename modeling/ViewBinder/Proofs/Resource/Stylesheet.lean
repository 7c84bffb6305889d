-- Pieces of a stylesheet. A stylesheet is its pieces, one after the other; some of them are class
-- names in selectors, and to rename classes is to write those pieces anew and all others as they
-- are.
import ViewBinder.Proofs.Text.Basic
import ViewBinder.Resource.Stylesheet

namespace ViewBinder

namespace Stylesheet

/-! ## Chunks -/

theorem text_blockChunks (front : Text) :
    (blockChunks front).flatMap Chunk.text = front ++ "\x7b" := by
  unfold blockChunks
  dsimp only
  split
  · exact List.append_nil _
  · simp only [List.flatMap_cons, List.flatMap_nil, Chunk.text, List.append_nil]
    rw [← List.append_assoc, takeWhile_append_drop]

theorem text_chunksFrom (r : Reader) (front t : Text) :
    (chunksFrom r front t).flatMap Chunk.text = front.reverse ++ t := by
  induction t generalizing r front with
  | nil => simp [chunksFrom, Chunk.text]
  | cons b rest ih =>
    unfold chunksFrom
    split
    · rw [List.flatMap_cons, ih]
      simp [Chunk.text]
    · split
      · rename_i hopen
        rw [List.flatMap_append, ih, text_blockChunks]
        simp only [Bool.and_eq_true, beq_iff_eq] at hopen
        rw [hopen.2, List.append_assoc]
        rfl
      · rw [ih]
        simp

theorem text_chunks (css : Text) : (chunks css).flatMap Chunk.text = css :=
  text_chunksFrom {} [] css

/-! ## Parts -/

theorem testSize?_pos {t : Text} {size : Nat} (h : testSize? t = some size) : 0 < size := by
  unfold testSize? at h
  dsimp only at h
  split at h
  · split at h
    · cases h
    · split at h
      · cases h
        exact Nat.succ_pos _
      · split at h
        · obtain ⟨n, -, rfl⟩ := Option.map_eq_some_iff.mp h
          exact Nat.succ_pos _
        · cases h
  · cases h

/-- A part stands at the front of the selector, and is not empty. -/
theorem text_partAt (b : UInt8) (rest : Text) :
    ∃ front tail, (partAt b rest).text = b :: front ∧ rest = front ++ tail := by
  have hname := (takeWhile_append_drop isNameByte rest).symm
  unfold partAt
  dsimp only
  split
  · rename_i hclass
    simp only [Bool.and_eq_true, beq_iff_eq] at hclass
    exact ⟨_, _, by rw [hclass.1]; rfl, hname⟩
  · split
    · exact ⟨_, _, rfl, hname⟩
    · split
      · exact ⟨_, _, rfl, hname⟩
      · split
        · rename_i size htest
          obtain ⟨n, rfl⟩ := Nat.exists_eq_succ_of_ne_zero (Nat.ne_of_gt (testSize?_pos htest))
          exact ⟨rest.take n, rest.drop n, rfl, (List.take_append_drop n rest).symm⟩
        · exact ⟨[], rest, rfl, rfl⟩

theorem partsFrom_eq_drop (skip : Nat) (t : Text) : partsFrom skip t = parts (t.drop skip) := by
  induction skip generalizing t with
  | zero => rfl
  | succ skip ih =>
    cases t with
    | nil => rfl
    | cons b rest => exact ih rest

/-- Behind the first part come the parts of what is left. -/
theorem parts_cons (b : UInt8) (rest : Text) :
    ∃ front tail, (partAt b rest).text = b :: front ∧ rest = front ++ tail ∧
      parts (b :: rest) = partAt b rest :: parts tail := by
  obtain ⟨front, tail, htext, hrest⟩ := text_partAt b rest
  refine ⟨front, tail, htext, hrest, ?_⟩
  show partAt b rest :: partsFrom ((partAt b rest).text.length - 1) rest = _
  have hdrop : rest.drop front.length = tail := by
    rw [hrest, List.drop_left]
  rw [partsFrom_eq_drop, htext, List.length_cons, Nat.add_sub_cancel, hdrop]

theorem text_parts (t : Text) : (parts t).flatMap Part.text = t := by
  induction hlength : t.length using Nat.strongRecOn generalizing t with
  | ind n ih =>
    cases t with
    | nil => rfl
    | cons b rest =>
      obtain ⟨front, tail, htext, hrest, hparts⟩ := parts_cons b rest
      have hshorter : tail.length < n := by
        rw [← hlength, hrest, List.length_cons, List.length_append]
        omega
      rw [hparts, List.flatMap_cons, htext, ih _ hshorter tail rfl, hrest]
      rfl

theorem partAt_className {b : UInt8} {rest name : Text} (h : partAt b rest = .className name) :
    name ≠ [] ∧ name.all isNameByte = true := by
  unfold partAt at h
  dsimp only at h
  split at h
  · rename_i hclass
    cases h
    simp only [Bool.and_eq_true, Bool.not_eq_true', List.isEmpty_eq_false_iff] at hclass
    exact ⟨hclass.2, List.all_takeWhile⟩
  · split at h
    · cases h
    · split at h
      · cases h
      · split at h <;> cases h

/-- A class name is not empty, and made of letters, digits, underscores and dashes. -/
theorem name_of_mem_parts {t name : Text} (h : .className name ∈ parts t) :
    name ≠ [] ∧ name.all isNameByte = true := by
  induction hlength : t.length using Nat.strongRecOn generalizing t with
  | ind n ih =>
    cases t with
    | nil => cases h
    | cons b rest =>
      obtain ⟨front, tail, htext, hrest, hparts⟩ := parts_cons b rest
      have hshorter : tail.length < n := by
        rw [← hlength, hrest, List.length_cons, List.length_append]
        omega
      rw [hparts] at h
      rcases List.mem_cons.mp h with hfirst | hlater
      · exact partAt_className hfirst.symm
      · exact ih _ hshorter hlater rfl

/-! ## Pieces of the whole text -/

/-- The parts of a selector, or other text as one part. -/
def Chunk.parts : Chunk → List Part
  | selector t => Stylesheet.parts t
  | other t => [.other t]

/-- The class names of a stylesheet in its selectors, and the text between them. -/
def pieces (css : Text) : List Part := (chunks css).flatMap Chunk.parts

theorem text_pieces (css : Text) : (pieces css).flatMap Part.text = css := by
  have hchunk : ∀ chunk : Chunk, chunk.parts.flatMap Part.text = chunk.text := by
    intro chunk
    cases chunk with
    | selector t => exact text_parts t
    | other t => exact List.append_nil t
  unfold pieces
  rw [List.flatMap_assoc]
  simp only [hchunk]
  exact text_chunks css

theorem mem_classesOf_iff {css name : Text} :
    name ∈ classesOf css ↔ .className name ∈ pieces css := by
  unfold classesOf pieces
  rw [List.mem_eraseDups, List.mem_flatMap, List.mem_flatMap]
  refine exists_congr fun chunk => and_congr_right fun _ => ?_
  cases chunk with
  | selector t =>
    unfold selectorClasses Chunk.parts
    rw [List.mem_filterMap]
    constructor
    · rintro ⟨part, hpart, hname⟩
      cases part with
      | className other =>
        cases hname
        exact hpart
      | other t => cases hname
    · exact fun hpart => ⟨.className name, hpart, rfl⟩
  | other t => simp [Chunk.parts]

/-- A part with a new name for its class, if there is one. -/
def Part.renamed (names : List (Text × Text)) : Part → Part
  | className name => .className ((names.lookup name).getD name)
  | other t => .other t

/-- To rename is to write the pieces with new names. -/
theorem rename_eq (s : Stylesheet) (names : List (Text × Text)) :
    s.rename names = (pieces s.text).flatMap fun part => (part.renamed names).text := by
  unfold rename pieces
  rw [List.flatMap_assoc]
  refine List.flatMap_congr fun chunk _ => ?_
  cases chunk with
  | selector t =>
    refine List.flatMap_congr fun part _ => ?_
    cases part <;> rfl
  | other t => exact (List.append_nil t).symm

/-- A class name of a stylesheet is not empty, and made of letters, digits, underscores and dashes. -/
theorem name_of_mem_classesOf {css name : Text} (h : name ∈ classesOf css) :
    name ≠ [] ∧ name.all isNameByte = true := by
  obtain ⟨chunk, -, hpart⟩ := List.mem_flatMap.mp (mem_classesOf_iff.mp h)
  cases chunk with
  | selector t => exact name_of_mem_parts hpart
  | other t => simp [Chunk.parts] at hpart

end Stylesheet

end ViewBinder
