-- Markers in text that is quoted, escaped, trimmed or split. Bytes of markers need neither an escape
-- nor a reference, and no blank or brace is one of them, so the markers of a text are those of what
-- is written for it.
import ViewBinder.Html.Tree
import ViewBinder.Proofs.Attribute.Single
import ViewBinder.Proofs.Marker.Numbers
import ViewBinder.Proofs.Text.Quoted

namespace ViewBinder

namespace Marker

theorem mem_alphabet_of_breaks {b : UInt8} (h : breaks b = false) : b ∈ alphabet := by
  simp only [breaks, Bool.and_eq_false_iff, Bool.not_eq_false', List.contains_eq_mem,
    decide_eq_true_eq, List.mem_append] at h
  rcases h with hdigit | hfront | hback
  · exact mem_alphabet_of_isDigitByte hdigit
  · exact List.mem_append_left _ (List.mem_append_left _ hfront)
  · exact List.mem_append_right _ hback

theorem plain_of_breaks {b : UInt8} (h : breaks b = false) :
    Text.isPlainByte b = true ∧ Text.isSpace b.toNat = false :=
  plain_and_dark b (mem_alphabet_of_breaks h)

end Marker

/-! ## Quoting -/

theorem Text.quoteRune_ne_nil (c : UInt8) (t : Text) : quoteRune (headRune (c :: t)) ≠ [] := by
  rcases quoteRune_escape_or_self (headRune (c :: t)) with ⟨_, h⟩ | h
  · rw [h]
    exact List.cons_ne_nil _ _
  · obtain ⟨more, hmore⟩ := headRune_bytes c t
    rw [h, hmore]
    exact List.cons_ne_nil _ _

theorem Marker.transparent_quoteBody : Transparent Text.quoteBody where
  nil := rfl
  ne {t} h := by
    cases t with
    | nil => exact absurd rfl h
    | cons c t =>
      rw [Text.quoteBody_cons]
      exact fun hnil => Text.quoteRune_ne_nil c t (List.append_eq_nil_iff.mp hnil).1
  dash l r := Text.quoteBody_append l (by decide) r
  plain hp r := by
    refine Text.quoteBody_plain (List.all_eq_true.mpr fun b hb => ?_) r
    exact (Marker.plain_of_breaks (hp b hb)).1
  cut := Text.quoteBody_dash
  starts hp h := by
    refine Text.quoteBody_eq_append (fun b hb => ?_) (fun hslash => ?_) h
    · exact Text.ascii_of_isPlainByte (Marker.plain_of_breaks (hp b hb)).1
    · exact absurd (hp _ hslash) (by decide)

/-! ## Escaping -/

namespace Html

/-- A byte stands for itself or is written with a byte of no marker in front. -/
theorem escapeByte_self_or_break (b : UInt8) : escapeByte b = [b] ∨
    ∃ c rest, escapeByte b = c :: rest ∧ Marker.breaks c = true := by
  unfold escapeByte
  repeat' split
  all_goals first | exact .inl rfl | exact .inr ⟨_, _, rfl, by decide⟩

theorem escapeByte_dash {b : UInt8} (h : '-'.toUInt8 ∈ escapeByte b) : b = '-'.toUInt8 := by
  unfold escapeByte at h
  repeat' split at h
  all_goals first | exact absurd h (by decide) | exact (List.mem_singleton.mp h).symm

theorem escape_cons (b : UInt8) (t : Text) : escape (b :: t) = escapeByte b ++ escape t :=
  List.flatMap_cons

theorem escape_cut {l x y : Text} (h : escape l = x ++ '-'.toUInt8 :: y) :
    ∃ l₁ l₂, l = l₁ ++ l₂ ∧ escape l₂ = '-'.toUInt8 :: y := by
  induction l generalizing x with
  | nil => cases x <;> cases h
  | cons b l ih =>
    have hbehind : ∀ x' : Text, escape l = x' ++ '-'.toUInt8 :: y →
        ∃ l₁ l₂, b :: l = l₁ ++ l₂ ∧ escape l₂ = '-'.toUInt8 :: y := by
      intro x' hrest
      obtain ⟨l₁, l₂, rfl, hl₂⟩ := ih hrest
      exact ⟨b :: l₁, l₂, rfl, hl₂⟩
    rw [escape_cons] at h
    rcases List.append_eq_append_iff.mp h with ⟨x', -, hrest⟩ | ⟨z, hz, hrest⟩
    · exact hbehind x' hrest
    · cases z with
      | nil => exact hbehind [] hrest.symm
      | cons d z =>
        obtain ⟨rfl, hy⟩ := List.cons.inj hrest
        obtain rfl := escapeByte_dash (hz ▸ List.mem_append_right x List.mem_cons_self)
        have hself : escapeByte '-'.toUInt8 = ['-'.toUInt8] := by decide
        rw [hself] at hz
        obtain rfl : z = [] := by
          cases x with
          | nil => exact (List.cons.inj hz).2.symm
          | cons _ x => cases x <;> cases hz
        refine ⟨[], '-'.toUInt8 :: l, rfl, ?_⟩
        rw [escape_cons, hself, hy]
        rfl

theorem escape_starts {l p y : Text} (hp : ∀ b ∈ p, Marker.breaks b = false)
    (h : escape l = p ++ y) : p <+: l := by
  induction p generalizing l with
  | nil => exact List.nil_prefix
  | cons b p ih =>
    obtain ⟨hb, hp'⟩ := List.forall_mem_cons.mp hp
    cases l with
    | nil => cases h
    | cons c l =>
      rw [escape_cons] at h
      rcases escapeByte_self_or_break c with hself | ⟨d, rest, hd, hbreak⟩
      · rw [hself] at h
        obtain ⟨rfl, hrest⟩ := List.cons.inj h
        exact List.cons_prefix_cons.mpr ⟨rfl, ih hp' hrest⟩
      · rw [hd] at h
        obtain ⟨rfl, -⟩ := List.cons.inj h
        rw [hbreak] at hb
        cases hb

theorem transparent_escape : Marker.Transparent escape where
  nil := rfl
  ne {t} h := by
    cases t with
    | nil => exact absurd rfl h
    | cons b t =>
      rw [escape_cons]
      intro hnil
      have hbyte := (List.append_eq_nil_iff.mp hnil).1
      rcases escapeByte_self_or_break b with hself | ⟨_, _, hd, -⟩
      · rw [hself] at hbyte
        cases hbyte
      · rw [hd] at hbyte
        cases hbyte
  dash l r := List.flatMap_append
  plain {p} hp r := by
    have hself : ∀ b ∈ Marker.alphabet, escapeByte b = [b] := forall_of_all (by decide)
    induction p with
    | nil => rfl
    | cons b p ih =>
      obtain ⟨hb, hp⟩ := List.forall_mem_cons.mp hp
      rw [List.cons_append, escape_cons, hself b (Marker.mem_alphabet_of_breaks hb), ih hp]
      rfl
  cut := escape_cut
  starts := escape_starts

theorem covers_escape (t : Text) : Marker.Covers t (escape t) := by
  induction t with
  | nil => exact .nil
  | cons b t ih =>
    rw [escape_cons]
    rcases escapeByte_self_or_break b with hself | ⟨c, rest, hbyte, hbreak⟩
    · rw [hself]
      exact .byte b ih
    · rw [hbyte]
      refine .other [b] hbreak (fun hdash => ?_) ih
      obtain rfl := escapeByte_dash (hbyte ▸ List.mem_cons_of_mem c hdash)
      rw [show escapeByte '-'.toUInt8 = ['-'.toUInt8] by decide] at hbyte
      rw [← (List.cons.inj hbyte).2] at hdash
      exact absurd hdash List.not_mem_nil

end Html

/-! ## Splitting -/

namespace Segment

/-- Literal text, and a brace for a reference. -/
def outline : Segment → Text
  | literal t => t
  | reference _ => [openBrace]

theorem outline_addByte (b : UInt8) (segments : List Segment) :
    (addByte b segments).flatMap outline = b :: segments.flatMap outline := by
  unfold addByte
  split <;> rfl

theorem outline_addText (t : Text) (segments : List Segment) :
    (addText t segments).flatMap outline = t ++ segments.flatMap outline := by
  unfold addText
  induction t with
  | nil => rfl
  | cons b t ih => exact (outline_addByte b _).trans (congrArg (b :: ·) ih)

theorem breaks_openBrace : Marker.breaks openBrace = true := by decide

theorem covers_splitFrom (skip : Nat) (t : Text) :
    Marker.Covers (t.drop skip) ((splitFrom skip t).flatMap outline) := by
  induction t generalizing skip with
  | nil =>
    rw [List.drop_nil]
    exact .nil
  | cons b rest ih =>
    cases skip with
    | succ skip => exact ih skip
    | zero =>
      have hbrace : ∀ n, Marker.Covers (b :: rest)
          (openBrace :: (splitFrom n rest).flatMap outline) := by
        intro n
        have hcut := Marker.Covers.other (b :: rest.take n) breaks_openBrace
          (List.not_mem_nil (a := '-'.toUInt8)) (ih n)
        rwa [List.cons_append, List.take_append_drop] at hcut
      unfold splitFrom
      split
      · rw [outline_addByte]
        exact .byte b (ih 0)
      · rename_i hopen
        obtain rfl : b = openBrace := by simpa using hopen
        cases rest with
        | nil => exact .refl _
        | cons c rest =>
          dsimp only
          split
          · rw [outline_addByte]
            exact hbrace 1
          · split
            · exact hbrace _
            · rw [outline_addText, List.flatMap_nil, List.append_nil]
              exact .refl _

/-- The segments of a value cover it, a brace standing for a reference. -/
theorem covers_split (value : Text) : Marker.Covers value ((split value).flatMap outline) :=
  covers_splitFrom 0 value

end Segment

/-! ## Trimming -/

namespace Marker

/-- A blank is in no marker, and neither is a byte outside ASCII. -/
theorem breaks_of_isSpace {b : UInt8} (h : b < 0x80 → Text.isSpace b.toNat = true) :
    breaks b = true := by
  cases hbreaks : breaks b with
  | true => rfl
  | false =>
    obtain ⟨hplain, hdark⟩ := plain_of_breaks hbreaks
    rw [h (Text.ascii_of_isPlainByte hplain)] at hdark
    cases hdark

theorem markersIn_breaks {x : Text} (h : ∀ b ∈ x, breaks b = true) (r : Text) :
    markersIn (x ++ r) = markersIn r := by
  induction x with
  | nil => rfl
  | cons b x ih =>
    obtain ⟨hb, hx⟩ := List.forall_mem_cons.mp h
    rw [List.cons_append, markersIn_of_break hb, ih hx]

theorem markersIn_trim (t : Text) : markersIn (Text.trim t) = markersIn t := by
  obtain ⟨x, y, ht, hblank⟩ := Text.trim_cut t
  have hx : ∀ b ∈ x, breaks b = true := fun b hb =>
    breaks_of_isSpace (hblank b (List.mem_append_left _ hb))
  have hy : ∀ b ∈ y, breaks b = true := fun b hb =>
    breaks_of_isSpace (hblank b (List.mem_append_right _ hb))
  have hback : markersIn (Text.trim t ++ y) = markersIn (Text.trim t) := by
    cases y with
    | nil => rw [List.append_nil]
    | cons b y =>
      obtain ⟨hb, hy⟩ := List.forall_mem_cons.mp hy
      have hnone := markersIn_breaks hy []
      rw [List.append_nil, markersIn_nil] at hnone
      rw [markersIn_append_break hb, hnone, List.append_nil]
  rw [← hback]
  conv_rhs => rw [ht, List.append_assoc, markersIn_breaks hx]

end Marker

/-! ## Tags -/

namespace Html

open Marker (markersIn)

theorem markersIn_attributes (attributes : List (Text × Text)) (r : Text) :
    markersIn (attributes.flatMap renderAttribute ++ '>'.toUInt8 :: r) =
      (attributes.flatMap fun a => markersIn a.1 ++ markersIn a.2) ++ markersIn r := by
  induction attributes with
  | nil => exact Marker.markersIn_of_break (by decide) r
  | cons a attributes ih =>
    have hshape : renderAttribute a ++ (attributes.flatMap renderAttribute ++ '>'.toUInt8 :: r) =
        ' '.toUInt8 :: (a.1 ++ '='.toUInt8 :: ([] ++ '\"'.toUInt8 :: (escape a.2 ++ '\"'.toUInt8 ::
          (attributes.flatMap renderAttribute ++ '>'.toUInt8 :: r)))) := by
      unfold renderAttribute
      simp only [List.append_assoc]
      rfl
    rw [List.flatMap_cons, List.flatMap_cons, List.append_assoc, hshape,
      Marker.markersIn_of_break (by decide),
      Marker.markersIn_append_break (by decide),
      Marker.markersIn_append_break (by decide),
      Marker.markersIn_append_break (by decide), ih, transparent_escape.markersIn,
      Marker.markersIn_nil, List.nil_append, List.append_assoc, List.append_assoc]

/-- The markers of an element are those of its attributes and those of its content, if it has one. -/
theorem markersIn_element {name : Text} (hname : ¬ Marker.front <:+: name)
    (attributes : List (Text × Text)) (children : List Html) :
    markersIn (element name attributes children).render =
      (attributes.flatMap fun a => markersIn a.1 ++ markersIn a.2) ++
        if isVoid name then [] else markersIn (renderAll children) := by
  have hnone := Marker.markersIn_eq_nil hname
  have hopening : ∀ r : Text, markersIn ("<" ++ name ++ attributes.flatMap renderAttribute ++ ">" ++
      r) = (attributes.flatMap fun a => markersIn a.1 ++ markersIn a.2) ++ markersIn r := by
    intro r
    obtain ⟨b, more, hmore, hb⟩ : ∃ b more,
        attributes.flatMap renderAttribute ++ '>'.toUInt8 :: r = b :: more ∧
          Marker.breaks b = true := by
      cases attributes with
      | nil => exact ⟨_, _, rfl, by decide⟩
      | cons a attributes => exact ⟨' '.toUInt8, _, rfl, by decide⟩
    have hshape : "<" ++ name ++ attributes.flatMap renderAttribute ++ ">" ++ r =
        '<'.toUInt8 :: (name ++ (attributes.flatMap renderAttribute ++ '>'.toUInt8 :: r)) := by
      simp only [List.append_assoc]
      rfl
    rw [hshape, Marker.markersIn_of_break (by decide), ← markersIn_attributes, hmore,
      Marker.markersIn_append_break hb, hnone, Marker.markersIn_of_break hb, List.nil_append]
  unfold render
  dsimp only
  split
  · have h := hopening []
    rwa [List.append_nil] at h
  · have hclosing : ∀ r : Text, markersIn (r ++ ("</" ++ (name ++ ">"))) = markersIn r := by
      intro r
      have hshape : r ++ ("</" ++ (name ++ ">")) =
          r ++ '<'.toUInt8 :: ([] ++ '/'.toUInt8 :: (name ++ '>'.toUInt8 :: [])) := rfl
      rw [hshape, Marker.markersIn_append_break (by decide),
        Marker.markersIn_append_break (by decide),
        Marker.markersIn_append_break (by decide), hnone, Marker.markersIn_nil]
      simp
    rw [List.append_assoc, List.append_assoc, hclosing, hopening]

/-- An element is written between two bytes of no marker. -/
theorem patch_element (t name : Text) (attributes : List (Text × Text)) (children : List Html) :
    Marker.Patch t (element name attributes children).render := by
  have htag : ∀ y : Text, Marker.Patch t ('<'.toUInt8 :: (y ++ ['>'.toUInt8])) := fun y =>
    .tag t y (by decide) (by decide)
  have hopening : "<" ++ name ++ attributes.flatMap renderAttribute ++ ">" =
      '<'.toUInt8 :: (name ++ attributes.flatMap renderAttribute ++ ['>'.toUInt8]) := rfl
  unfold render
  dsimp only
  rw [hopening]
  split
  · exact htag _
  · have hclosing : '<'.toUInt8 :: (name ++ attributes.flatMap renderAttribute ++ ['>'.toUInt8]) ++
        renderAll children ++ "</" ++ name ++ ">" = '<'.toUInt8 :: (name ++
          attributes.flatMap renderAttribute ++ ['>'.toUInt8] ++ renderAll children ++ "</" ++
          name ++ ['>'.toUInt8]) := rfl
    rw [hclosing]
    exact htag _

end Html

end ViewBinder
