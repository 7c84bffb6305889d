-- What renaming spares. A selector is read byte by byte, and each test in one go. A class is named
-- wherever that reading meets a dot with a name behind it, be it in a string or in a number; so these
-- keep their text exactly where no such dot is in them.
import ViewBinder.Proofs.Resource.Renaming

namespace ViewBinder

/-- Lists that are put together fall apart where one of them does. -/
theorem split_flatMap {α β : Type} {f : α → List β} {xs : List α} {ps qs : List β} {b : β}
    (h : xs.flatMap f = ps ++ b :: qs) :
    ∃ before x after l r, xs = before ++ x :: after ∧ f x = l ++ b :: r ∧
      ps = before.flatMap f ++ l := by
  induction xs generalizing ps with
  | nil => simp at h
  | cons x xs ih =>
    rw [List.flatMap_cons] at h
    rcases List.append_eq_append_iff.mp h with ⟨more, rfl, hmore⟩ | ⟨more, hx, hmore⟩
    · obtain ⟨before, y, after, l, r, rfl, hy, rfl⟩ := ih hmore
      exact ⟨x :: before, y, after, l, r, rfl, hy, by rw [List.flatMap_cons, List.append_assoc]⟩
    · cases more with
      | nil =>
        have hlater : xs.flatMap f = [] ++ b :: qs := hmore.symm
        obtain ⟨before, y, after, l, r, rfl, hy, hps⟩ := ih hlater
        refine ⟨x :: before, y, after, l, r, rfl, hy, ?_⟩
        rw [List.flatMap_cons, List.append_assoc, ← hps, hx, List.append_nil, List.append_nil]
      | cons c more =>
        obtain ⟨rfl, -⟩ := List.cons.inj hmore
        exact ⟨[], x, xs, ps, more, rfl, hx, rfl⟩

namespace Stylesheet

/-! ## Reading a selector -/

/-- A selector is read up to here, byte by byte and each test in one go. -/
inductive ReadsTo : Text → Text → Prop
  | here (t : Text) : ReadsTo t t
  | byte {b : UInt8} {rest t : Text} : testSize? (b :: rest) = none → ReadsTo rest t →
      ReadsTo (b :: rest) t
  | test {u t : Text} {size : Nat} : testSize? u = some size → ReadsTo (u.drop size) t → ReadsTo u t

theorem ReadsTo.suffix {u t : Text} (h : ReadsTo u t) : t <:+ u := by
  induction h with
  | here t => exact List.suffix_refl t
  | byte _ _ ih => exact ih.trans (List.suffix_cons _ _)
  | test _ _ ih => exact ih.trans (List.drop_suffix _ _)

theorem readsTo_cons_iff {b : UInt8} {rest : Text} (htest : testSize? (b :: rest) = none) (t : Text) :
    ReadsTo (b :: rest) t ↔ t = b :: rest ∨ ReadsTo rest t := by
  constructor
  · intro h
    cases h with
    | here => exact .inl rfl
    | byte _ h => exact .inr h
    | test hsome _ => cases htest.symm.trans hsome
  · rintro (rfl | h)
    · exact .here _
    · exact .byte htest h

theorem readsTo_test_iff {u : Text} {size : Nat} (htest : testSize? u = some size) (t : Text) :
    ReadsTo u t ↔ t = u ∨ ReadsTo (u.drop size) t := by
  constructor
  · intro h
    cases h with
    | here => exact .inl rfl
    | byte hnone _ => cases hnone.symm.trans htest
    | test hsome h =>
      cases hsome.symm.trans htest
      exact .inr h
  · rintro (rfl | h)
    · exact .here _
    · exact .test htest h

theorem testSize?_of_ne {b : UInt8} (hb : b ≠ '['.toUInt8) (rest : Text) :
    testSize? (b :: rest) = none := by
  by_contra hsome
  obtain ⟨size, hsize⟩ := Option.ne_none_iff_exists'.mp hsome
  exact hb (Option.some.inj (bracket_of_testSize? hsize))

theorem ne_of_isNameByte {b : UInt8} (hb : isNameByte b = true) :
    b ≠ '.'.toUInt8 ∧ b ≠ '['.toUInt8 := by
  constructor <;> (rintro rfl; exact absurd hb (by decide))

/-- Bytes of a name lead to no dot. -/
theorem readsTo_run {run : Text} (hrun : run.all isNameByte = true) (rest : Text) {t : Text}
    (ht : t.head? = some '.'.toUInt8) : ReadsTo (run ++ rest) t ↔ ReadsTo rest t := by
  induction run with
  | nil => rfl
  | cons b run ih =>
    rw [List.all_cons, Bool.and_eq_true] at hrun
    obtain ⟨hdot, hbracket⟩ := ne_of_isNameByte hrun.1
    rw [List.cons_append, readsTo_cons_iff (testSize?_of_ne hbracket _), ih hrun.2]
    refine or_iff_right fun heq => ?_
    rw [heq] at ht
    exact hdot (Option.some.inj ht)

/-- Behind a byte the next dot is looked for behind the whole part that begins with it. -/
theorem readsTo_part (b : UInt8) (rest : Text) : ∃ front tail,
    (partAt b rest).text = b :: front ∧ rest = front ++ tail ∧
      parts (b :: rest) = partAt b rest :: parts tail ∧
      ∀ t : Text, t.head? = some '.'.toUInt8 →
        (ReadsTo (b :: rest) t ↔ t = b :: rest ∨ ReadsTo tail t) := by
  obtain ⟨front, tail, htext, rfl, hparts⟩ := parts_cons b rest
  refine ⟨front, tail, htext, rfl, hparts, fun t ht => ?_⟩
  -- a part is a byte and a run of names behind it, or a test
  have hshape : (testSize? (b :: (front ++ tail)) = none ∧ front.all isNameByte = true) ∨
      testSize? (b :: (front ++ tail)) = some (front.length + 1) := by
    have hall : ((front ++ tail).takeWhile isNameByte).all isNameByte = true := List.all_takeWhile
    rw [partAt_eq] at htext
    split at htext
    · rename_i hdot
      obtain ⟨rfl, -⟩ := hdot
      exact .inl ⟨testSize?_of_ne (by decide) _, (List.cons.inj htext).2 ▸ hall⟩
    · split at htext
      · rename_i hhash
        obtain ⟨rfl, -⟩ := hhash
        exact .inl ⟨testSize?_of_ne (by decide) _, (List.cons.inj htext).2 ▸ hall⟩
      · split at htext
        · rename_i hb
          exact .inl ⟨testSize?_of_ne (ne_of_isNameByte hb).2 _, (List.cons.inj htext).2 ▸ hall⟩
        · split at htext
          · rename_i size htest
            obtain ⟨test, behind, hu, rfl, -⟩ := testSize?_stays htest
            rw [hu] at htext
            have htake : (Part.other (('['.toUInt8 :: (test ++ behind)).take (test.length + 1))).text =
                '['.toUInt8 :: test := by simp [Part.text]
            rw [htake] at htext
            exact .inr ((List.cons.inj htext).2 ▸ htest)
          · rename_i htest
            exact .inl ⟨htest, by rw [← (List.cons.inj htext).2]; rfl⟩
  rcases hshape with ⟨hnone, hfront⟩ | hsome
  · rw [readsTo_cons_iff hnone, readsTo_run hfront tail ht]
  · rw [readsTo_test_iff hsome, List.drop_succ_cons, List.drop_left]

/-! ## Where classes are named -/

/-- Behind `l` a dot stands in the selector, but not in a test, and the bytes of names behind the dot
are the name. -/
structure NamedIn (selector l name rest : Text) : Prop where
  text : selector = l ++ '.'.toUInt8 :: (name ++ rest)
  reads : ReadsTo selector ('.'.toUInt8 :: (name ++ rest))
  ne : name ≠ []
  bytes : name.all isNameByte = true
  ends : ∀ b ∈ rest.head?, isNameByte b = false

theorem partAt_eq_className_iff {b : UInt8} {rest name : Text} :
    partAt b rest = .className name ↔
      b = '.'.toUInt8 ∧ name ≠ [] ∧ rest.takeWhile isNameByte = name := by
  rw [partAt_eq]
  constructor
  · intro h
    split at h
    · rename_i hclass
      cases h
      exact ⟨hclass.1, hclass.2, rfl⟩
    · split at h
      · cases h
      · split at h
        · cases h
        · split at h <;> cases h
  · rintro ⟨hb, hne, rfl⟩
    rw [if_pos ⟨hb, hne⟩]

/-- The class names among the parts of a selector stand where a class is named. -/
theorem parts_named_iff (selector l name : Text) :
    (∃ ps qs, parts selector = ps ++ .className name :: qs ∧ l = ps.flatMap Part.text) ↔
      ∃ rest, NamedIn selector l name rest := by
  induction hlength : selector.length using Nat.strongRecOn generalizing selector l with
  | ind n ih =>
    cases selector with
    | nil =>
      refine iff_of_false ?_ ?_
      · rintro ⟨ps, qs, hparts, -⟩
        cases ps <;> cases hparts
      · rintro ⟨rest, htext, -⟩
        cases l <;> cases htext
    | cons b rest =>
      obtain ⟨front, tail, htext, hrest, hparts, hreads⟩ := readsTo_part b rest
      have hwhole : b :: rest = (partAt b rest).text ++ tail := by rw [htext, hrest]; rfl
      have hshorter : tail.length < n := by
        rw [← hlength, hrest, List.length_cons, List.length_append]
        omega
      rw [hparts]
      constructor
      · rintro ⟨ps, qs, hsplit, rfl⟩
        cases ps with
        | nil =>
          obtain ⟨rfl, hne, rfl⟩ := partAt_eq_className_iff.mp (List.cons.inj hsplit).1
          refine ⟨rest.dropWhile isNameByte, ?_, ?_, hne, List.all_takeWhile,
            head?_dropWhile isNameByte rest⟩
          · rw [List.takeWhile_append_dropWhile]
            rfl
          · rw [List.takeWhile_append_dropWhile]
            exact .here _
        | cons p ps =>
          obtain ⟨rfl, hlater⟩ := List.cons.inj hsplit
          obtain ⟨behind, hnamed⟩ := (ih _ hshorter tail _ rfl).mp ⟨ps, qs, hlater, rfl⟩
          refine ⟨behind, ?_, (hreads _ rfl).mpr (.inr hnamed.reads), hnamed.ne, hnamed.bytes,
            hnamed.ends⟩
          rw [hwhole, List.flatMap_cons, List.append_assoc, ← hnamed.text]
      · rintro ⟨behind, hnamed⟩
        rcases (hreads _ rfl).mp hnamed.reads with hhere | hlater
        · obtain ⟨rfl, rfl⟩ := List.cons.inj hhere
          obtain rfl : l = [] := List.self_eq_append_left.mp hnamed.text
          refine ⟨[], parts tail, ?_, rfl⟩
          rw [partAt_eq_className_iff.mpr
            ⟨rfl, hnamed.ne, takeWhile_run hnamed.bytes hnamed.ends⟩]
          rfl
        · obtain ⟨l', hl'⟩ := hlater.suffix
          have hl : l = (partAt b rest).text ++ l' := by
            have htext := hnamed.text
            rw [hwhole, ← hl', ← List.append_assoc] at htext
            exact (List.append_cancel_right htext).symm
          obtain ⟨ps, qs, hlater, rfl⟩ := (ih _ hshorter tail l' rfl).mpr
            ⟨behind, hl'.symm, hlater, hnamed.ne, hnamed.bytes, hnamed.ends⟩
          refine ⟨partAt b rest :: ps, qs, by rw [hlater]; rfl, by rw [hl, List.flatMap_cons]⟩

/-- Behind `front` a selector of the text names a class. -/
def NamedAt (css front name : Text) : Prop :=
  ∃ cs selector ds l rest, chunks css = cs ++ .selector selector :: ds ∧
    front = cs.flatMap Chunk.text ++ l ∧ NamedIn selector l name rest

theorem text_parts_chunk (chunk : Chunk) : chunk.parts.flatMap Part.text = chunk.text := by
  cases chunk with
  | selector t => exact text_parts t
  | other t => exact List.append_nil t

/-- The class names among the pieces of a text stand where a class is named. -/
theorem pieces_named_iff (css front name : Text) :
    (∃ ps qs, pieces css = ps ++ .className name :: qs ∧ front = ps.flatMap Part.text) ↔
      NamedAt css front name := by
  have htexts : ∀ cs : List Chunk, (cs.flatMap Chunk.parts).flatMap Part.text =
      cs.flatMap Chunk.text := by
    intro cs
    rw [List.flatMap_assoc]
    exact List.flatMap_congr fun chunk _ => text_parts_chunk chunk
  constructor
  · rintro ⟨ps, qs, hpieces, rfl⟩
    obtain ⟨cs, chunk, ds, l, r, hchunks, hchunk, rfl⟩ := split_flatMap hpieces
    cases chunk with
    | selector selector =>
      obtain ⟨rest, hnamed⟩ := (parts_named_iff selector _ name).mp ⟨l, r, hchunk, rfl⟩
      exact ⟨cs, selector, ds, _, rest, hchunks, by rw [List.flatMap_append, htexts], hnamed⟩
    | other t =>
      rcases List.append_eq_singleton_iff.mp hchunk.symm with ⟨-, h⟩ | ⟨-, h⟩ <;> cases h
  · rintro ⟨cs, selector, ds, l, rest, hchunks, rfl, hnamed⟩
    obtain ⟨ps, qs, hparts, rfl⟩ := (parts_named_iff selector l name).mpr ⟨rest, hnamed⟩
    refine ⟨cs.flatMap Chunk.parts ++ ps, qs ++ ds.flatMap Chunk.parts, ?_, ?_⟩
    · unfold pieces
      rw [hchunks, List.flatMap_append, List.flatMap_cons]
      show _ ++ (parts selector ++ _) = _
      rw [hparts]
      simp
    · rw [List.flatMap_append, htexts]

theorem mem_classes_iff {css name : Text} :
    name ∈ classesOf css ↔ ∃ front, NamedAt css front name := by
  rw [mem_classesOf_iff]
  constructor
  · intro h
    obtain ⟨ps, qs, hpieces⟩ := List.append_of_mem h
    exact ⟨_, (pieces_named_iff css _ name).mp ⟨ps, qs, hpieces, rfl⟩⟩
  · rintro ⟨front, hnamed⟩
    obtain ⟨ps, qs, hpieces, -⟩ := (pieces_named_iff css front name).mpr hnamed
    rw [hpieces]
    exact List.mem_append_right _ List.mem_cons_self

theorem NamedAt.text {css front name : Text} (h : NamedAt css front name) :
    ∃ rest, css = front ++ '.'.toUInt8 :: (name ++ rest) := by
  obtain ⟨cs, selector, ds, l, rest, hchunks, rfl, hnamed⟩ := h
  refine ⟨rest ++ ds.flatMap Chunk.text, ?_⟩
  rw [← text_chunks css, hchunks, List.flatMap_append, List.flatMap_cons]
  show _ ++ (selector ++ _) = _
  rw [hnamed.text]
  simp

theorem NamedAt.bytes {css front name : Text} (h : NamedAt css front name) :
    name ≠ [] ∧ name.all isNameByte = true := by
  obtain ⟨cs, selector, ds, l, rest, -, -, hnamed⟩ := h
  exact ⟨hnamed.ne, hnamed.bytes⟩

/-! ## What stands for a byte -/

/-- What stands for each byte of a part under new names; a new name stands for the first byte of the
old one. -/
def Part.images (names : List (Text × Text)) : Part → List Text
  | className name =>
    ['.'.toUInt8] :: (names.lookup name).getD name :: List.replicate (name.length - 1) []
  | other t => t.map fun b => [b]

/-- What stands for each byte of a text when its classes are renamed. -/
def images (names : List (Text × Text)) (css : Text) : List Text :=
  (pieces css).flatMap (Part.images names)

/-- What stands for the part of a text that begins behind `before`. -/
def stretch (names : List (Text × Text)) (css before part : Text) : Text :=
  (((images names css).drop before.length).take part.length).flatten

/-- All that stands for a byte, put together, is the text with its classes renamed. -/
theorem flatten_images (names : List (Text × Text)) (s : Stylesheet) :
    (images names s.text).flatten = s.rename names := by
  have hpart : ∀ part : Part, (part.images names).flatten = (part.renamed names).text := by
    intro part
    cases part with
    | className name => simp [Part.images, Part.renamed, Part.text]
    | other t => simp [Part.images, Part.renamed, Part.text, ← List.flatMap_def]
  rw [rename_eq]
  unfold images
  simp only [List.flatMap_def, List.flatten_flatten, List.map_map, Function.comp_def, hpart]

theorem length_images_part (names : List (Text × Text)) {part : Part}
    (h : ∀ name, part = .className name → name ≠ []) :
    (part.images names).length = part.text.length := by
  cases part with
  | className name =>
    have hpos := List.length_pos_of_ne_nil (h name rfl)
    simp only [Part.images, Part.text, List.length_cons, List.length_replicate]
    omega
  | other t => exact List.length_map _

theorem ne_nil_of_mem_pieces {css name : Text} (h : .className name ∈ pieces css) : name ≠ [] :=
  (name_of_mem_classesOf (mem_classesOf_iff.mpr h)).1

theorem length_images_parts (names : List (Text × Text)) {ps : List Part}
    (hps : ∀ name, .className name ∈ ps → name ≠ []) :
    (ps.flatMap (Part.images names)).length = (ps.flatMap Part.text).length := by
  rw [List.length_flatMap, List.length_flatMap]
  refine congrArg List.sum (List.map_congr_left fun part hpart => ?_)
  exact length_images_part names fun name hname => hps name (hname ▸ hpart)

/-- A byte stands for itself unless it is in the name of a class. -/
theorem images_byte (names : List (Text × Text)) {ps : List Part}
    (hps : ∀ name, .className name ∈ ps → name ≠ []) {i : Nat} {b : UInt8}
    (h : (ps.flatMap Part.text)[i]? = some b) :
    (ps.flatMap (Part.images names))[i]? = some [b] ∨
      ∃ before name after, ps = before ++ .className name :: after ∧
        (before.flatMap Part.text).length < i ∧
          i ≤ (before.flatMap Part.text).length + name.length := by
  induction ps generalizing i with
  | nil => cases h
  | cons part ps ih =>
    have hlength : (part.images names).length = part.text.length :=
      length_images_part names fun name hname => hps name (hname ▸ List.mem_cons_self)
    rw [List.flatMap_cons] at h ⊢
    by_cases hi : i < part.text.length
    · rw [List.getElem?_append_left hi] at h
      rw [List.getElem?_append_left (hlength ▸ hi)]
      cases part with
      | className name =>
        cases i with
        | zero =>
          cases h
          exact .inl rfl
        | succ i =>
          refine .inr ⟨[], name, ps, rfl, Nat.succ_pos i, ?_⟩
          have hi' : i + 1 < name.length + 1 := hi
          simp only [List.flatMap_nil, List.length_nil]
          omega
      | other t =>
        have ht : t[i]? = some b := h
        exact .inl (by simp [Part.images, ht])
    · have hle : part.text.length ≤ i := Nat.le_of_not_lt hi
      rw [List.getElem?_append_right hle] at h
      rw [List.getElem?_append_right (hlength ▸ hle), hlength]
      rcases ih (fun name hname => hps name (List.mem_cons_of_mem _ hname)) h with
        hself | ⟨before, name, after, rfl, hlt, hle'⟩
      · exact .inl hself
      · refine .inr ⟨part :: before, name, after, rfl, ?_, ?_⟩ <;>
          rw [List.flatMap_cons, List.length_append] <;> omega

/-- A part of the text without a byte of a class name is kept. -/
theorem stretch_eq {css before part behind : Text} (hcss : css = before ++ (part ++ behind))
    (h : ∀ front name, NamedAt css front name → ∀ i, before.length ≤ i →
      i < before.length + part.length → ¬ (front.length < i ∧ i ≤ front.length + name.length))
    (names : List (Text × Text)) : stretch names css before part = part := by
  have hsame : ((images names css).drop before.length).take part.length =
      part.map fun b => [b] := by
    refine List.ext_getElem? fun k => ?_
    rw [List.getElem?_take, List.getElem?_drop, List.getElem?_map]
    split
    · rename_i hk
      have hbyte : ((pieces css).flatMap Part.text)[before.length + k]? = some part[k] := by
        rw [text_pieces, hcss, List.getElem?_append_right (Nat.le_add_right _ _),
          Nat.add_sub_cancel_left, List.getElem?_append_left hk, List.getElem?_eq_getElem hk]
      rcases images_byte names (fun name => ne_nil_of_mem_pieces) hbyte with
        hself | ⟨ps, name, qs, hpieces, hlt, hle⟩
      · rw [List.getElem?_eq_getElem hk]
        exact hself
      · have hnamed := (pieces_named_iff css _ name).mp ⟨ps, qs, hpieces, rfl⟩
        exact absurd ⟨hlt, hle⟩ (h _ name hnamed _ (Nat.le_add_right _ _) (by omega))
    · rename_i hk
      rw [List.getElem?_eq_none (Nat.le_of_not_lt hk)]
      rfl
  unfold stretch
  rw [hsame, ← List.flatMap_def]
  exact List.flatMap_singleton' part

/-- A part of the text in which a class name begins is not kept under every name. -/
theorem exists_stretch_ne {css before part front name : Text} (hnamed : NamedAt css front name)
    (hstart : before.length ≤ front.length) (hend : front.length + 1 < before.length + part.length) :
    ∃ names, stretch names css before part ≠ part := by
  obtain ⟨ps, qs, hpieces, rfl⟩ := (pieces_named_iff css _ name).mpr hnamed
  have hps : ∀ name, .className name ∈ ps → name ≠ [] := fun name hname =>
    ne_nil_of_mem_pieces (hpieces ▸ List.mem_append_left _ hname)
  -- a longer name than the part has bytes
  let new : Text := List.replicate (part.length + 1) 'x'.toUInt8
  have hnew : (images [(name, new)] css)[(ps.flatMap Part.text).length + 1]? = some new := by
    unfold images
    rw [hpieces, List.flatMap_append, List.getElem?_append_right
      (by rw [length_images_parts _ hps]; exact Nat.le_succ _), length_images_parts _ hps,
      Nat.add_sub_cancel_left, List.flatMap_cons]
    simp [Part.images]
  refine ⟨[(name, new)], fun hkept => ?_⟩
  have hmem : new ∈ ((images [(name, new)] css).drop before.length).take part.length := by
    refine List.mem_of_getElem? (i := (ps.flatMap Part.text).length + 1 - before.length) ?_
    rw [List.getElem?_take, if_pos (by omega), List.getElem?_drop, Nat.add_sub_cancel' (by omega)]
    exact hnew
  have hlong : new.length ≤ (stretch [(name, new)] css before part).length :=
    (List.sublist_flatten_of_mem hmem).length_le
  rw [hkept, List.length_replicate] at hlong
  omega

/-! ## Parts of a text that a class name never enters or leaves halfway -/

theorem NamedAt.dot {css front name : Text} (h : NamedAt css front name) :
    css[front.length]? = some '.'.toUInt8 := by
  obtain ⟨rest, rfl⟩ := h.text
  rw [List.getElem?_append_right (Nat.le_refl _), Nat.sub_self]
  rfl

theorem NamedAt.byte {css front name : Text} (h : NamedAt css front name) {i : Nat}
    (hlt : front.length < i) (hle : i ≤ front.length + name.length) :
    ∃ b, css[i]? = some b ∧ isNameByte b = true := by
  obtain ⟨rest, rfl⟩ := h.text
  obtain ⟨k, rfl⟩ : ∃ k, i = front.length + (k + 1) := ⟨i - front.length - 1, by omega⟩
  have hk : k < name.length := by omega
  refine ⟨name[k], ?_, List.all_eq_true.mp h.bytes.2 _ (List.getElem_mem hk)⟩
  rw [List.getElem?_append_right (Nat.le_add_right _ _), Nat.add_sub_cancel_left,
    List.getElem?_cons_succ, List.getElem?_append_left hk, List.getElem?_eq_getElem hk]

/-- The part begins with no byte of a name or behind none, and does not end with a dot. -/
structure Bounded (before part : Text) : Prop where
  starts : (∀ b ∈ part.head?, isNameByte b = false) ∨
    ∀ b ∈ before.getLast?, isNameByte b = false ∧ b ≠ '.'.toUInt8
  ends : ∀ b ∈ part.getLast?, b ≠ '.'.toUInt8

/-- Such a part is kept exactly if no class is named in it. -/
theorem Bounded.kept_iff {css before part behind : Text} (h : Bounded before part)
    (hcss : css = before ++ (part ++ behind)) :
    (∀ names, stretch names css before part = part) ↔ ∀ front name, NamedAt css front name →
      ¬ (before.length ≤ front.length ∧ front.length < before.length + part.length) := by
  have hpart : ∀ k < part.length, css[before.length + k]? = part[k]? := by
    intro k hk
    rw [hcss, List.getElem?_append_right (Nat.le_add_right _ _), Nat.add_sub_cancel_left,
      List.getElem?_append_left hk]
  constructor
  · rintro hkept front name hnamed ⟨hstart, hend⟩
    have hnext : front.length + 1 < before.length + part.length := by
      refine Nat.lt_of_le_of_ne hend fun hlast => ?_
      have hdot := hnamed.dot
      rw [show front.length = before.length + (part.length - 1) by omega, hpart _ (by omega),
        ← List.getLast?_eq_getElem?] at hdot
      exact h.ends _ hdot rfl
    obtain ⟨names, hne⟩ := exists_stretch_ne hnamed hstart hnext
    exact hne (hkept names)
  · intro hnone
    refine stretch_eq hcss fun front name hnamed i hstart hend hinside => ?_
    have hbefore : front.length < before.length := by
      by_contra hnot
      exact hnone front name hnamed ⟨Nat.le_of_not_lt hnot, by omega⟩
    -- the name would reach over the beginning of the part
    rcases h.starts with hfirst | hlast
    · obtain ⟨b, hb, hname⟩ := hnamed.byte hbefore (by omega)
      have hzero := hpart 0 (by omega)
      rw [Nat.add_zero, hb, ← List.head?_eq_getElem?] at hzero
      rw [hfirst b hzero.symm] at hname
      cases hname
    · have hend' : css[before.length - 1]? = before.getLast? := by
        rw [hcss, List.getElem?_append_left (by omega), List.getLast?_eq_getElem?]
      by_cases hdot : front.length = before.length - 1
      · have hbyte := hnamed.dot
        rw [hdot, hend'] at hbyte
        exact (hlast _ hbyte).2 rfl
      · obtain ⟨b, hb, hname⟩ := hnamed.byte (i := before.length - 1) (by omega) (by omega)
        rw [hend'] at hb
        rw [(hlast b hb).1] at hname
        cases hname

/-! ## Strings and numbers -/

/-- Behind `before` a quote opens a string, and the part ends with the quote that closes it. -/
structure IsString (before part : Text) : Prop where
  size : 1 < part.length
  outside : (before.foldl Reader.step {}).isPlain = true
  inside : ∀ n < part.length, 0 < n →
    ((before ++ part.take n).foldl Reader.step {}).quote.isSome = true
  closed : ((before ++ part).foldl Reader.step {}).isPlain = true

/-- Digits, perhaps with a sign in front of them and a dot among them, that do not go on a name and do
not go on behind the part. -/
structure IsNumber (before part behind : Text) : Prop where
  shape : ∃ sign whole fraction : Text, part = sign ++ whole ++ fraction ∧
    (sign = [] ∨ sign = "+" ∨ sign = "-") ∧ whole.all Text.isDigitByte = true ∧
    (whole ≠ [] ∧ fraction = [] ∨ ∃ digits : Text, digits ≠ [] ∧
      digits.all Text.isDigitByte = true ∧ fraction = '.'.toUInt8 :: digits)
  starts : (∀ b ∈ part.head?, isNameByte b = false) ∨
    ∀ b ∈ before.getLast?, isNameByte b = false ∧ b ≠ '.'.toUInt8
  ends : ∀ b ∈ behind.head?, Text.isDigitByte b = false

/-- An open quote is a quote. -/
theorem isQuote_of_read (t : Text) : ∀ q ∈ (t.foldl Reader.step {}).quote, isQuote q = true := by
  have hstep : ∀ (r : Reader) (b : UInt8), (∀ q ∈ r.quote, isQuote q = true) →
      ∀ q ∈ (r.step b).quote, isQuote q = true := by
    intro r b hr
    unfold Reader.step
    split
    · exact hr
    · split
      · exact hr
      · split
        · split
          · exact nofun
          · exact hr
        · split
          · rename_i hquote
            intro q hq
            obtain rfl := Option.some.inj hq
            exact hquote
          · exact hr
  have hall : ∀ (t : Text) (r : Reader), (∀ q ∈ r.quote, isQuote q = true) →
      ∀ q ∈ (t.foldl Reader.step r).quote, isQuote q = true := by
    intro t
    induction t with
    | nil => exact fun _ h => h
    | cons b t ih => exact fun r hr => ih _ (hstep r b hr)
  exact hall t {} nofun

theorem isQuote_of_opens {b : UInt8} (h : (Reader.step {} b).quote.isSome = true) :
    isQuote b = true := by
  by_contra hno
  have hno : (b == '\"'.toUInt8 || b == '\''.toUInt8) = false := by simpa [isQuote] using hno
  unfold Reader.step at h
  split at h
  · cases h
  · split at h
    · cases h
    · simp [hno] at h

/-- A string is closed by the quote that opened it. -/
theorem eq_of_closes {r : Reader} {b q : UInt8} (hq : r.quote = some q)
    (h : (r.step b).quote = none) : b = q := by
  unfold Reader.step at h
  split at h
  · cases hq.symm.trans h
  · split at h
    · cases hq.symm.trans h
    · rw [hq] at h
      dsimp only at h
      split at h
      · rename_i hsame
        exact eq_of_beq hsame
      · cases hq.symm.trans h

theorem IsString.bounded {before part : Text} (h : IsString before part) : Bounded before part := by
  have hstart : before.foldl Reader.step {} = {} := eq_of_isPlain h.outside
  refine ⟨.inl fun b hb => ?_, fun c hc => ?_⟩
  · -- the first byte opens a string
    obtain ⟨rest, rfl⟩ : ∃ rest, part = b :: rest := by
      cases part with
      | nil => cases hb
      | cons c rest =>
        cases hb
        exact ⟨rest, rfl⟩
    have hopen := h.inside 1 h.size Nat.one_pos
    rw [List.foldl_append, hstart] at hopen
    exact (bytes_of_quote b (isQuote_of_opens hopen)).2
  · -- the last byte closes it
    obtain ⟨front, rfl⟩ := List.getLast?_eq_some_iff.mp hc
    have hsize := h.size
    rw [List.length_append, List.length_singleton] at hsize
    have hopen := h.inside front.length (by simp) (by omega)
    rw [List.take_left] at hopen
    have hquotes := isQuote_of_read (before ++ front)
    have hclosed := h.closed
    rw [← List.append_assoc, List.foldl_append] at hclosed
    generalize (before ++ front).foldl Reader.step {} = r at hopen hquotes hclosed
    obtain ⟨q, hq⟩ := Option.isSome_iff_exists.mp hopen
    have hread : (r.step c).quote = none := by
      simpa using (Bool.and_eq_true_iff.mp hclosed).1
    rw [eq_of_closes hq hread]
    exact (bytes_of_quote q (hquotes q hq)).1

theorem IsNumber.bounded {before part behind : Text} (h : IsNumber before part behind) :
    Bounded before part := by
  have hdigit : ∀ digits : Text, digits.all Text.isDigitByte = true →
      ∀ b ∈ digits.getLast?, b ≠ '.'.toUInt8 := by
    rintro digits hall b hb rfl
    exact absurd (List.all_eq_true.mp hall _ (List.mem_of_getLast? hb)) (by decide)
  refine ⟨h.starts, ?_⟩
  obtain ⟨sign, whole, fraction, rfl, -, hwhole, ⟨hne, rfl⟩ | ⟨digits, hne, hall, rfl⟩⟩ := h.shape
  · rw [List.append_nil, List.getLast?_append_of_ne_nil _ hne]
    exact hdigit whole hwhole
  · rw [List.getLast?_append_of_ne_nil _ (List.cons_ne_nil _ _)]
    rw [show '.'.toUInt8 :: digits = ['.'.toUInt8] ++ digits from rfl,
      List.getLast?_append_of_ne_nil _ hne]
    exact hdigit digits hall

/-! ## Where no class is named -/

/-- The part lies between selectors, or in a test. -/
inductive Shielded (css before part : Text) : Prop
  | between {cs ds : List Chunk} {t l r : Text} : chunks css = cs ++ .other t :: ds →
      t = l ++ (part ++ r) → before = cs.flatMap Chunk.text ++ l → Shielded css before part
  | test {cs ds : List Chunk} {selector l test behind m r : Text} :
      chunks css = cs ++ .selector selector :: ds → selector = l ++ (test ++ behind) →
      ReadsTo selector (test ++ behind) → testSize? (test ++ behind) = some test.length →
      test = m ++ (part ++ r) → before = cs.flatMap Chunk.text ++ (l ++ m) →
      Shielded css before part

/-- Only one chunk has a byte. -/
theorem chunk_unique {cs cs' ds ds' : List Chunk} {x y : Chunk} {k : Nat}
    (h : cs ++ x :: ds = cs' ++ y :: ds')
    (hx : (cs.flatMap Chunk.text).length ≤ k ∧
      k < (cs.flatMap Chunk.text).length + x.text.length)
    (hy : (cs'.flatMap Chunk.text).length ≤ k ∧
      k < (cs'.flatMap Chunk.text).length + y.text.length) : cs = cs' ∧ x = y := by
  have hlater : ∀ {cs cs' more : List Chunk} {x y : Chunk}, cs' = cs ++ x :: more →
      k < (cs.flatMap Chunk.text).length + x.text.length →
      (cs'.flatMap Chunk.text).length ≤ k → False := by
    rintro cs cs' more x y rfl hlt hle
    rw [List.flatMap_append, List.flatMap_cons, List.length_append, List.length_append] at hle
    omega
  rcases List.append_eq_append_iff.mp h with ⟨more, hcs, hds⟩ | ⟨more, hcs, hds⟩
  · cases more with
    | nil => exact ⟨by rw [hcs, List.append_nil], (List.cons.inj hds).1⟩
    | cons z more =>
      obtain ⟨rfl, -⟩ := List.cons.inj hds
      exact (hlater (y := y) hcs hx.2 hy.1).elim
  · cases more with
    | nil => exact ⟨by rw [hcs, List.append_nil], (List.cons.inj hds).1.symm⟩
    | cons z more =>
      obtain ⟨rfl, -⟩ := List.cons.inj hds
      exact (hlater (y := x) hcs hy.2 hx.1).elim

/-- The reading does not stop inside a test. -/
theorem readsTo_apart {selector u t : Text} {size : Nat} (hu : ReadsTo selector u)
    (htest : testSize? u = some size) (ht : ReadsTo selector t) :
    u.length ≤ t.length ∨ t.length ≤ u.length - size := by
  induction hu with
  | here u =>
    rcases (readsTo_test_iff htest t).mp ht with rfl | hlater
    · exact .inl (Nat.le_refl _)
    · exact .inr (List.length_drop ▸ hlater.suffix.length_le)
  | byte hnone hu ih =>
    rcases (readsTo_cons_iff hnone t).mp ht with rfl | hlater
    · exact .inl (hu.suffix.length_le.trans (Nat.le_succ _))
    · exact ih htest hlater
  | test hsome hu ih =>
    rcases (readsTo_test_iff hsome t).mp ht with rfl | hlater
    · exact .inl ((hu.suffix.trans (List.drop_suffix _ _)).length_le)
    · exact ih htest hlater

/-- No class is named in a part between selectors or in a test. -/
theorem Shielded.not_named {css before part front name : Text} (h : Shielded css before part)
    (hnamed : NamedAt css front name) :
    ¬ (before.length ≤ front.length ∧ front.length < before.length + part.length) := by
  rintro ⟨hstart, hend⟩
  obtain ⟨cs', selector', ds', l', rest, hchunks', rfl, hnamed⟩ := hnamed
  have hsize := congrArg List.length hnamed.text
  rw [List.length_append, List.length_cons] at hsize
  rw [List.length_append] at hstart hend
  have hthere : ∀ {cs ds : List Chunk} {x : Chunk}, chunks css = cs ++ x :: ds →
      (cs.flatMap Chunk.text).length ≤ (cs'.flatMap Chunk.text).length + l'.length →
      (cs'.flatMap Chunk.text).length + l'.length <
        (cs.flatMap Chunk.text).length + x.text.length → cs = cs' ∧ x = .selector selector' := by
    intro cs ds x hchunks hle hlt
    refine chunk_unique (hchunks.symm.trans hchunks') ⟨hle, hlt⟩ ⟨Nat.le_add_right _ _, ?_⟩
    show _ < _ + selector'.length
    omega
  cases h with
  | between hchunks ht hbefore =>
    subst ht hbefore
    rw [List.length_append] at hstart hend
    obtain ⟨-, hother⟩ := hthere hchunks (by omega)
      (by simp only [Chunk.text, List.length_append]; omega)
    cases hother
  | @test cs ds selector l test behind m r hchunks hselector hreads htest hparts hbefore =>
    have htestSize := congrArg List.length hparts
    have hselectorSize := congrArg List.length hselector
    rw [hbefore] at hstart hend
    simp only [List.length_append] at hstart hend htestSize hselectorSize
    obtain ⟨rfl, hsame⟩ := hthere hchunks (by omega) (by simp only [Chunk.text]; omega)
    obtain rfl := Chunk.selector.inj hsame
    have happart := readsTo_apart hreads htest hnamed.reads
    simp only [List.length_append, List.length_cons] at happart hsize
    rcases happart with hle | hle
    · -- the dot would be the bracket of the test
      obtain ⟨-, hdot⟩ := List.append_inj (hselector.symm.trans hnamed.text) (by omega)
      have hopen := bracket_of_testSize? htest
      rw [hdot] at hopen
      exact absurd (Option.some.inj hopen) (by decide)
    · omega

/-- For each byte of a stylesheet something stands when its classes are renamed. Under all new names a
string or a number is kept exactly if no selector names a class in it; so it is kept without a dot in it,
between selectors and in a test. The classes of the stylesheet are those that selectors name. -/
theorem strings_and_numbers_are_kept_where_no_class_is_named (css : Text) :
    let s := parse css
    (∀ names, (images names s.text).flatten = s.rename names ∧
      (images names s.text).length = s.text.length) ∧
    (∀ before part behind, s.text = before ++ (part ++ behind) →
      IsString before part ∨ IsNumber before part behind →
      ((∀ names, stretch names s.text before part = part) ↔
        ∀ front name, NamedAt s.text front name →
          ¬ (before.length ≤ front.length ∧ front.length < before.length + part.length)) ∧
      ('.'.toUInt8 ∉ part ∨ Shielded s.text before part →
        ∀ names, stretch names s.text before part = part)) ∧
    (∀ name, name ∈ s.classes ↔ ∃ front, NamedAt s.text front name) ∧
    (IsCommentFree css → s.text = css) := by
  intro s
  refine ⟨fun names => ⟨flatten_images names s, ?_⟩, fun before part behind htext hpart => ?_,
    fun name => mem_classes_iff, stripComments_of_free⟩
  · have hlength := length_images_parts names
      fun name (hname : .className name ∈ pieces s.text) => ne_nil_of_mem_pieces hname
    rwa [text_pieces] at hlength
  · have hbounded : Bounded before part := hpart.elim IsString.bounded IsNumber.bounded
    have hkept := hbounded.kept_iff htext
    refine ⟨hkept, fun hspared => hkept.mpr fun front name hnamed hinside => ?_⟩
    rcases hspared with hdot | hshielded
    · obtain ⟨k, hk⟩ : ∃ k, front.length = before.length + k := ⟨_, (Nat.add_sub_cancel' hinside.1).symm⟩
      have hbyte := hnamed.dot
      rw [htext, hk, List.getElem?_append_right (Nat.le_add_right _ _), Nat.add_sub_cancel_left,
        List.getElem?_append_left (by omega)] at hbyte
      exact hdot (List.mem_of_getElem? hbyte)
    · exact hshielded.not_named hnamed hinside

/-- A string in a test with another operator, and a number in a selector of keyframes, are taken for
classes and renamed. -/
theorem strings_and_numbers_can_be_renamed :
    let front : Text := "a[href^="
    let name : Text := "\".pdf\""
    let middle : Text := "]\x7bx:y\x7d @keyframes k\x7b"
    let behind : Text := "%\x7bz:w\x7d\x7d"
    let s := parse (front ++ (name ++ (middle ++ ("12.5" ++ behind))))
    s.classes = [Text.ofString "pdf", "5"] ∧ IsString front name ∧
      stretch [("pdf", "G")] s.text front name = "\".G\"" ∧
      IsNumber (front ++ (name ++ middle)) "12.5" behind ∧
      stretch [("5", "H")] s.text (front ++ (name ++ middle)) "12.5" = "12.H" := by
  refine ⟨by decide, ?_, by decide, ?_, by decide⟩
  · exact ⟨by decide, by decide, by decide, by decide⟩
  · refine ⟨⟨[], "12", ".5", rfl, .inl rfl, by decide, .inr ⟨"5", by decide, by decide, rfl⟩⟩, ?_, ?_⟩
    · refine .inr fun b hb => ?_
      obtain rfl : '\x7b'.toUInt8 = b := Option.some.inj hb
      decide
    · intro b hb
      obtain rfl : '%'.toUInt8 = b := Option.some.inj hb
      decide

end Stylesheet

end ViewBinder
