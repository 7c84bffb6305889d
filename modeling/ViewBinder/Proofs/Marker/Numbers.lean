-- The markers that are read in a text. Those of a text that is put together are those of its parts,
-- as long as nothing in the parts that are plain text looks like a marker. Quoting and escaping leave
-- the markers of a text as they are.
import ViewBinder.Proofs.Marker.Expand

namespace ViewBinder.Marker

/-! ## The markers of a text -/

/-- The digits of a marker. -/
def Piece.digits? : Piece → Option Text
  | plain _ => none
  | marker digits => some digits

/-- The digits of the markers in a text, from left to right. -/
def markersIn (t : Text) : List Text := (pieces t).filterMap Piece.digits?

@[simp] theorem markersIn_nil : markersIn [] = [] := rfl

theorem markersIn_cons {b : UInt8} {rest : Text} (h : digits? (b :: rest) = none) :
    markersIn (b :: rest) = markersIn rest := by
  unfold markersIn
  rw [pieces_cons b rest h]
  cases pieces rest with
  | nil => rfl
  | cons p ps => cases p <;> rfl

theorem markersIn_marker {digits : Text} (hne : digits ≠ [])
    (hdigits : digits.all Text.isDigitByte = true) (rest : Text) :
    markersIn (front ++ digits ++ back ++ rest) = digits :: markersIn rest := by
  unfold markersIn
  rw [pieces_marker hne hdigits]
  rfl

theorem markersIn_text (k : Nat) (rest : Text) :
    markersIn (text k ++ rest) = Text.ofNat k :: markersIn rest :=
  markersIn_marker (Text.isDigitByte_ofNat k).1 (Text.isDigitByte_ofNat k).2 rest

theorem markersIn_of_break {b : UInt8} (hb : breaks b = true) (rest : Text) :
    markersIn (b :: rest) = markersIn rest := markersIn_cons (digits?_append hb [] rest)

/-- A byte that no marker holds keeps the markers on its sides apart. -/
theorem markersIn_append_break {b : UInt8} (hb : breaks b = true) (l r : Text) :
    markersIn (l ++ b :: r) = markersIn l ++ markersIn r := by
  -- a marker takes several bytes at once, so the induction is on the length
  induction hlen : l.length using Nat.strongRecOn generalizing l with
  | _ n ih =>
    cases hfront : digits? l with
    | some digits =>
      obtain ⟨hne, hdigits, rest, rfl⟩ := eq_of_digits? hfront
      have hfull : 0 < front.length := by decide
      have hshort : rest.length < n := by
        rw [← hlen, List.length_append, List.length_append, List.length_append]
        omega
      rw [List.append_assoc, markersIn_marker hne hdigits, markersIn_marker hne hdigits,
        ih _ hshort rest rfl, List.cons_append]
    | none =>
      have hboth := (digits?_append hb l r).trans hfront
      cases l with
      | nil => exact markersIn_of_break hb r
      | cons a l =>
        have hshort : l.length < n := by
          rw [← hlen]
          exact Nat.lt_succ_self _
        rw [List.cons_append] at hboth ⊢
        rw [markersIn_cons hfront, markersIn_cons hboth, ih _ hshort l rfl]

/-! ## Texts without a marker -/

theorem markersIn_eq_nil {l : Text} (h : ¬ front <:+: l) : markersIn l = [] := by
  induction l with
  | nil => rfl
  | cons b l ih =>
    rw [markersIn_cons (digits?_none fun hprefix => h hprefix.isInfix)]
    exact ih fun hfound => h (hfound.trans (List.suffix_cons b l).isInfix)

/-- A marker is read behind a text that nowhere begins like one. -/
theorem markersIn_append_text {l : Text} (h : ¬ front <:+: l) (k : Nat) (rest : Text) :
    markersIn (l ++ (text k ++ rest)) = Text.ofNat k :: markersIn rest := by
  rw [← markersIn_text]
  have hshape : text k ++ rest = front ++ (Text.ofNat k ++ back ++ rest) := by
    unfold text
    simp only [List.append_assoc]
  rw [hshape]
  induction l with
  | nil => rfl
  | cons b l ih =>
    have hnone := digits?_straddle (List.cons_ne_nil b l) (fun hp => h hp.isInfix)
      (Text.ofNat k ++ back ++ rest)
    rw [List.cons_append] at hnone ⊢
    rw [markersIn_cons hnone]
    exact ih fun hfound => h (hfound.trans (List.suffix_cons b l).isInfix)

/-! ## Texts put together -/

/-- What is written for a text: its bytes, but for parts in whose place something stands that is no
part of a marker. -/
inductive Covers : Text → Text → Prop
  | nil : Covers [] []
  | byte {t u : Text} (b : UInt8) : Covers t u → Covers (b :: t) (b :: u)
  | other {t u y : Text} {c : UInt8} (x : Text) :
      breaks c = true → '-'.toUInt8 ∉ y → Covers t u → Covers (x ++ t) (c :: (y ++ u))

theorem Covers.refl (t : Text) : Covers t t := by
  induction t with
  | nil => exact .nil
  | cons b t ih => exact .byte b ih

theorem Covers.append {t t' u u' : Text} (h : Covers t u) (h' : Covers t' u') :
    Covers (t ++ t') (u ++ u') := by
  induction h with
  | nil => exact h'
  | byte b _ ih => exact .byte b ih
  | other x hc hy _ ih =>
    rw [List.append_assoc, List.cons_append, List.append_assoc]
    exact .other x hc hy ih

theorem Covers.isPrefix {t u p : Text} (h : Covers t u) (hp : ∀ b ∈ p, breaks b = false)
    (hpre : p <+: u) : p <+: t := by
  induction h generalizing p with
  | nil => exact hpre
  | byte b _ ih =>
    cases p with
    | nil => exact List.nil_prefix
    | cons a p =>
      obtain ⟨rfl, hrest⟩ := List.cons_prefix_cons.mp hpre
      exact List.cons_prefix_cons.mpr ⟨rfl, ih (List.forall_mem_cons.mp hp).2 hrest⟩
  | other x hc _ _ _ =>
    cases p with
    | nil => exact List.nil_prefix
    | cons a p =>
      obtain ⟨rfl, -⟩ := List.cons_prefix_cons.mp hpre
      rw [(List.forall_mem_cons.mp hp).1] at hc
      cases hc

theorem breaks_front : ∀ b ∈ front, breaks b = false := forall_of_all (by decide)

/-- What looks like a marker does so in the text already. -/
theorem Covers.front {t u : Text} (h : Covers t u) (hfront : front <:+: u) : front <:+: t := by
  have hdash : ∀ {b : UInt8} {r : Text}, Marker.front <+: b :: r → b = '-'.toUInt8 :=
    fun hpre => (List.cons_prefix_cons.mp hpre).1.symm
  induction h with
  | nil => exact hfront
  | byte b hrest ih =>
    rcases List.infix_cons_iff.mp hfront with hpre | hlater
    · exact ((Covers.byte b hrest).isPrefix breaks_front hpre).isInfix
    · exact (ih hlater).trans (List.suffix_cons b _).isInfix
  | @other t u y c x hc hy _ ih =>
    have hbehind : Marker.front <:+: y ++ u := by
      refine (List.infix_cons_iff.mp hfront).resolve_left fun hpre => ?_
      rw [hdash hpre] at hc
      exact absurd hc (by decide)
    have hlater : Marker.front <:+: u := by
      clear hfront
      induction y with
      | nil => exact hbehind
      | cons d y ihy =>
        refine ihy (List.not_mem_of_not_mem_cons hy)
          ((List.infix_cons_iff.mp hbehind).resolve_left fun hpre => hy ?_)
        rw [hdash hpre]
        exact List.mem_cons_self
    exact (ih hlater).trans (List.suffix_append x t).isInfix

/-- What may be written for a part of a text: the part itself, a marker, or something between two
bytes of no marker. -/
inductive Patch : Text → Text → Prop
  | text {t u : Text} : Covers t u → Patch t u
  | marker (t : Text) (k : Nat) : Patch t (Marker.text k)
  | tag {b c : UInt8} (t y : Text) :
      breaks b = true → breaks c = true → Patch t (b :: (y ++ [c]))

/-- The markers are those of the parts, if no marker can be read in the plain text. -/
theorem markersIn_flatten {ts us : List Text} (h : List.Forall₂ Patch ts us)
    (hfront : ¬ front <:+: ts.flatten) : markersIn us.flatten = us.flatMap markersIn := by
  -- `l` is the plain text since the last marker or tag, and `r` what it was written for
  have hpending : ∀ {r l : Text}, Covers r l → ¬ front <:+: r ++ ts.flatten →
      markersIn (l ++ us.flatten) = us.flatMap markersIn := by
    clear hfront
    induction h with
    | nil =>
      intro r l hcovers hfront
      rw [List.flatten_nil, List.append_nil] at hfront ⊢
      exact markersIn_eq_nil fun h => hfront (hcovers.front h)
    | @cons t u ts us hpatch _ ih =>
      intro r l hcovers hfront
      rw [List.flatten_cons] at hfront
      have hafter : ¬ front <:+: [] ++ ts.flatten := fun h => hfront
        (h.trans ((List.suffix_append t _).trans (List.suffix_append r _)).isInfix)
      have hl : ¬ front <:+: l := fun h =>
        hfront ((hcovers.front h).trans (List.prefix_append r _).isInfix)
      rw [List.flatten_cons, List.flatMap_cons]
      cases hpatch with
      | text hcovered =>
        have hnone : markersIn u = [] := markersIn_eq_nil fun h => hfront ((hcovered.front h).trans
          ((List.prefix_append t _).isInfix.trans (List.suffix_append r _).isInfix))
        rw [← List.append_assoc, hnone, List.nil_append]
        exact ih (hcovers.append hcovered) (by rwa [List.append_assoc])
      | marker _ k =>
        have halone := markersIn_text k []
        rw [List.append_nil] at halone
        rw [markersIn_append_text hl, halone]
        exact congrArg (Text.ofNat k :: ·) (ih .nil hafter)
      | tag _ y hb hc =>
        rw [List.cons_append, List.append_assoc, List.singleton_append,
          markersIn_append_break hb, markersIn_append_break hc, markersIn_of_break hb,
          markersIn_append_break hc, markersIn_nil, List.append_nil, markersIn_eq_nil hl,
          List.nil_append]
        exact congrArg (markersIn y ++ ·) (ih .nil hafter)
  exact hpending .nil hfront

/-! ## Ways to write a text that leave its markers -/

/-- What is written for a text: bytes of markers stand for themselves, and a dash for a dash. -/
structure Transparent (f : Text → Text) : Prop where
  nil : f [] = []
  ne : ∀ {t}, t ≠ [] → f t ≠ []
  dash : ∀ l r, f (l ++ '-'.toUInt8 :: r) = f l ++ f ('-'.toUInt8 :: r)
  plain : ∀ {p}, (∀ b ∈ p, breaks b = false) → ∀ r, f (p ++ r) = p ++ f r
  cut : ∀ {l x y}, f l = x ++ '-'.toUInt8 :: y →
    ∃ l₁ l₂, l = l₁ ++ l₂ ∧ f l₂ = '-'.toUInt8 :: y
  starts : ∀ {l p y}, (∀ b ∈ p, breaks b = false) → f l = p ++ y → p <+: l

/-- A piece of the text as it is written. -/
def Piece.written (f : Text → Text) : Piece → Piece
  | plain run => plain (f run)
  | marker digits => marker digits

theorem breaks_marker {digits : Text} (h : digits.all Text.isDigitByte = true) :
    ∀ b ∈ front ++ digits ++ back, breaks b = false := by
  intro b hb
  cases hbreaks : breaks b with
  | false => rfl
  | true => exact absurd hb (notMem_of_breaks hbreaks h)

/-- Reading from left to right gives the pieces. -/
theorem Scans.pieces_eq {t : Text} {ps : List Piece} (h : Scans t ps) : pieces t = ps := by
  induction h with
  | nil => rfl
  | marker hne hdigits _ ih => rw [pieces_marker hne hdigits, ih]
  | @plain run rest ps hne hrun hhead _ ih =>
    induction run with
    | nil => exact absurd rfl hne
    | cons b run ihrun =>
      have hnone := hrun (b :: run) (List.cons_ne_nil b run) (List.suffix_refl _)
      rw [List.cons_append] at hnone ⊢
      rw [pieces_cons _ _ hnone]
      cases run with
      | nil =>
        rw [List.nil_append, ih]
        cases ps with
        | nil => rfl
        | cons p ps =>
          cases p with
          | plain _ => cases hhead _ rfl
          | marker _ => rfl
      | cons c run =>
        rw [ihrun (List.cons_ne_nil c run) fun s hsne hs =>
          hrun s hsne (hs.trans (List.suffix_cons b _))]
        rfl

namespace Transparent

variable {f : Text → Text}

/-- What begins with a dash in what is written is written for what begins there. -/
theorem suffix (hf : Transparent f) {l s : Text} (hs : s <:+ f l) {y : Text}
    (hdash : s = '-'.toUInt8 :: y) : ∃ l₂, l₂ <:+ l ∧ f l₂ = s := by
  obtain ⟨x, hx⟩ := hs
  rw [hdash] at hx
  obtain ⟨l₁, l₂, rfl, hl₂⟩ := hf.cut hx.symm
  exact ⟨l₂, List.suffix_append _ _, hl₂.trans hdash.symm⟩

theorem append (hf : Transparent f) (l : Text) {r : Text} (hr : r = [] ∨ ∃ y, r = '-'.toUInt8 :: y) :
    f (l ++ r) = f l ++ f r := by
  rcases hr with rfl | ⟨y, rfl⟩
  · rw [hf.nil, List.append_nil, List.append_nil]
  · exact hf.dash l y

/-- The markers of what is written are the markers of the text, and what is written between them is
what is written for the text between them. -/
theorem pieces_eq (hf : Transparent f) (t : Text) :
    pieces (f t) = (pieces t).map (Piece.written f) := by
  have hscans : Scans (f t) ((pieces t).map (Piece.written f)) := by
    have h := pieces_scans t
    generalize pieces t = ps at h
    induction h with
    | nil =>
      rw [hf.nil]
      exact .nil
    | marker hne hdigits _ ih =>
      rw [hf.plain (breaks_marker hdigits)]
      exact .marker hne hdigits ih
    | @plain run rest ps hne hrun hhead hrest ih =>
      have hbehind : rest = [] ∨ ∃ y, rest = '-'.toUInt8 :: y := by
        cases hrest with
        | nil => exact .inl rfl
        | marker _ _ _ => exact .inr ⟨_, rfl⟩
        | plain _ _ _ _ => cases hhead _ rfl
      rw [hf.append run hbehind]
      refine .plain (hf.ne hne) (fun s hsne hs => ?_) ?_ ih
      · cases hdigits : digits? (s ++ f rest) with
        | none => rfl
        | some digits =>
          -- a marker there would be one of the text
          obtain ⟨hdigitsne, hall, more, heq⟩ := eq_of_digits? hdigits
          obtain ⟨y, hy⟩ : ∃ y, s = '-'.toUInt8 :: y := by
            cases s with
            | nil => exact absurd rfl hsne
            | cons b y => exact ⟨y, congrArg (· :: y) (List.cons.inj heq).1⟩
          obtain ⟨l₂, hl₂, rfl⟩ := hf.suffix hs hy
          rw [← hf.append l₂ hbehind] at heq
          obtain ⟨z, hz⟩ := hf.starts (breaks_marker hall) heq
          have hl₂ne : l₂ ≠ [] := by
            rintro rfl
            exact hsne hf.nil
          have hnone := hrun l₂ hl₂ne hl₂
          rw [← hz, digits?_marker hdigitsne hall] at hnone
          cases hnone
      · intro p hp
        cases ps with
        | nil => cases hp
        | cons q ps =>
          have hq := hhead q rfl
          cases q with
          | plain _ => cases hq
          | marker _ =>
            cases hp
            rfl
  exact hscans.pieces_eq

theorem markersIn (hf : Transparent f) (t : Text) : markersIn (f t) = Marker.markersIn t := by
  unfold Marker.markersIn
  rw [hf.pieces_eq]
  generalize pieces t = ps
  induction ps with
  | nil => rfl
  | cons p ps ih =>
    cases p with
    | plain run => exact ih
    | marker digits => exact congrArg (digits :: ·) ih

end Transparent

end ViewBinder.Marker
