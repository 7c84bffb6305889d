-- Markup that can be read back. Escaped text holds neither brackets nor quotes, so a tag begins at
-- the first bracket and a value ends at the first quote; and an element ends at the first closing
-- tag that no element inside it takes. So what is written tells what it was written from.
import ViewBinder.Html.Tree
import ViewBinder.Markup.Token
import ViewBinder.Proofs.Text.Identifier

namespace ViewBinder.Html

open Markup (isNameRun)

/-! ## Escaped text -/

/-- The characters that are written as references. -/
def special : Text := "&<>\"'"

theorem escapeByte_plain {b : UInt8} (h : b ∉ special) (hzero : b ≠ 0) : escapeByte b = [b] := by
  have hother : ∀ c ∈ special, (b == c) = false := fun c hc =>
    beq_eq_false_iff_ne.mpr fun hsame => h (hsame ▸ hc)
  unfold escapeByte
  rw [hother _ (by decide), hother _ (by decide), hother _ (by decide), hother _ (by decide),
    hother _ (by decide), beq_eq_false_iff_ne.mpr hzero]
  rfl

/-- A reference begins with a character that no plain one is written as. -/
theorem escapeByte_special : ∀ b ∈ special, (escapeByte b).head? = some '&'.toUInt8 := by
  have hall : (special.all fun b => (escapeByte b).head? == some '&'.toUInt8) = true := by decide
  exact fun b hb => eq_of_beq (List.all_eq_true.mp hall b hb)

/-- No reference is the beginning of another one. -/
theorem eq_of_references : ∀ b ∈ special, ∀ c ∈ special, escapeByte b <+: escapeByte c → b = c := by
  have hall : (special.all fun b => special.all fun c =>
      b == c || !(escapeByte b).isPrefixOf (escapeByte c)) = true := by decide
  intro b hb c hc hle
  have hone := List.all_eq_true.mp (List.all_eq_true.mp hall b hb) c hc
  simpa [List.isPrefixOf_iff_prefix.mpr hle] using hone

/-- Of two characters that can be told apart, neither is written as the beginning of the other. -/
theorem escapeByte_append_inj {b c : UInt8} {x y : Text} (hb : b ≠ 0) (hc : c ≠ 0)
    (h : escapeByte b ++ x = escapeByte c ++ y) : b = c ∧ x = y := by
  have hsame : b = c := by
    by_cases hspecial : b ∈ special <;> by_cases hspecial' : c ∈ special
    · rcases List.prefix_or_prefix_of_prefix (List.prefix_append _ x)
        (h ▸ List.prefix_append _ y) with hle | hle
      · exact eq_of_references b hspecial c hspecial' hle
      · exact (eq_of_references c hspecial' b hspecial hle).symm
    · have hfirst := congrArg List.head? h
      rw [List.head?_append, escapeByte_special b hspecial, escapeByte_plain hspecial' hc] at hfirst
      cases hfirst
      exact absurd (by decide) hspecial'
    · have hfirst := congrArg List.head? h
      rw [List.head?_append, List.head?_append, escapeByte_special c hspecial',
        escapeByte_plain hspecial hb] at hfirst
      cases hfirst
      exact absurd (by decide) hspecial
    · rw [escapeByte_plain hspecial hb, escapeByte_plain hspecial' hc] at h
      exact (List.cons.inj h).1
  subst hsame
  exact ⟨rfl, List.append_cancel_left h⟩

theorem escapeByte_ne_nil (b : UInt8) : escapeByte b ≠ [] := by
  unfold escapeByte
  repeat' split
  all_goals exact List.cons_ne_nil _ _

/-- Texts without the null byte are told apart when they are escaped. -/
theorem escape_inj {t t' : Text} (ht : 0 ∉ t) (ht' : 0 ∉ t') (h : escape t = escape t') :
    t = t' := by
  induction t generalizing t' with
  | nil =>
    cases t' with
    | nil => rfl
    | cons c t' => exact absurd (List.append_eq_nil_iff.mp h.symm).1 (escapeByte_ne_nil c)
  | cons b t ih =>
    cases t' with
    | nil => exact absurd (List.append_eq_nil_iff.mp h).1 (escapeByte_ne_nil b)
    | cons c t' =>
      simp only [List.mem_cons, not_or] at ht ht'
      obtain ⟨rfl, hrest⟩ := escapeByte_append_inj (Ne.symm ht.1) (Ne.symm ht'.1) h
      rw [ih ht.2 ht'.2 hrest]

/-- The characters that end a text or a value. -/
theorem notMem_escape {c : UInt8} (hc : c = '<'.toUInt8 ∨ c = '\"'.toUInt8) (t : Text) :
    c ∉ escape t := by
  intro hmem
  obtain ⟨b, -, hb⟩ := List.mem_flatMap.mp hmem
  by_cases hspecial : b ∈ special
  · have hnone : (special.all fun b => (escapeByte b).all fun c =>
        c != '<'.toUInt8 && c != '\"'.toUInt8) = true := by decide
    have hone := List.all_eq_true.mp (List.all_eq_true.mp hnone b hspecial) c hb
    rcases hc with rfl | rfl <;> cases hone
  · by_cases hzero : b = 0
    · subst hzero
      rcases hc with rfl | rfl <;> exact absurd hb (by decide)
    · rw [escapeByte_plain hspecial hzero] at hb
      obtain rfl := List.mem_singleton.mp hb
      rcases hc with rfl | rfl <;> exact hspecial (by decide)

/-- Escaped text ends in one way where a bracket or a quote follows. -/
theorem escape_append_inj {c : UInt8} (hc : c = '<'.toUInt8 ∨ c = '\"'.toUInt8) {t t' x y : Text}
    (ht : 0 ∉ t) (ht' : 0 ∉ t') (hx : ∀ b ∈ x.head?, b = c) (hy : ∀ b ∈ y.head?, b = c)
    (h : escape t ++ x = escape t' ++ y) : t = t' ∧ x = y := by
  have hfree : ∀ t : Text, ∀ b ∈ escape t, (b != c) = true := fun t b hb =>
    bne_iff_ne.mpr fun hsame => notMem_escape hc t (hsame ▸ hb)
  obtain ⟨hescaped, hrest⟩ := Text.append_inj_of_front (p := (· != c)) (hfree t) (hfree t')
    (fun b hb => by simp [hx b hb]) (fun b hb => by simp [hy b hb]) h
  exact ⟨escape_inj ht ht' hescaped, hrest⟩

/-! ## Attributes -/

/-- A name as markup writes it. -/
def IsName (name : Text) : Prop := ∀ b ∈ name, isNameRun b = true

/-- A name ends in one way. -/
theorem IsName.append_inj {name name' x y : Text} (hname : IsName name) (hname' : IsName name')
    (hx : ∀ b ∈ x.head?, isNameRun b = false) (hy : ∀ b ∈ y.head?, isNameRun b = false)
    (h : name ++ x = name' ++ y) : name = name' ∧ x = y :=
  Text.append_inj_of_front hname hname' hx hy h

/-- An attribute that can be read back. -/
structure LegibleAttribute (a : Text × Text) : Prop where
  name : IsName a.1
  value : 0 ∉ a.2

/-- What is written of a name in a tag and behind it. -/
theorem renderAttribute_append (a : Text × Text) (x : Text) :
    renderAttribute a ++ x =
      ' '.toUInt8 :: (a.1 ++ '='.toUInt8 :: '\"'.toUInt8 :: (escape a.2 ++ '\"'.toUInt8 :: x)) := by
  unfold renderAttribute
  simp only [List.append_assoc]
  rfl

/-- Attributes are told apart up to the end of their tag. -/
theorem renderAttributes_append_inj {as as' : List (Text × Text)} {x y : Text}
    (has : ∀ a ∈ as, LegibleAttribute a) (has' : ∀ a ∈ as', LegibleAttribute a)
    (h : as.flatMap renderAttribute ++ '>'.toUInt8 :: x =
      as'.flatMap renderAttribute ++ '>'.toUInt8 :: y) : as = as' ∧ x = y := by
  have hend : '>'.toUInt8 ≠ ' '.toUInt8 := by decide
  have hequals : isNameRun '='.toUInt8 = false := by decide
  induction as generalizing as' with
  | nil =>
    cases as' with
    | nil => exact ⟨rfl, (List.cons.inj h).2⟩
    | cons a' as' =>
      rw [List.flatMap_cons, List.append_assoc, renderAttribute_append] at h
      exact absurd (List.cons.inj h).1 hend
  | cons a as ih =>
    cases as' with
    | nil =>
      rw [List.flatMap_cons, List.append_assoc, renderAttribute_append] at h
      exact absurd (List.cons.inj h).1 hend.symm
    | cons a' as' =>
      obtain ⟨hname, hvalue⟩ := has a List.mem_cons_self
      obtain ⟨hname', hvalue'⟩ := has' a' List.mem_cons_self
      rw [List.flatMap_cons, List.append_assoc, renderAttribute_append, List.flatMap_cons,
        List.append_assoc, renderAttribute_append] at h
      obtain ⟨hsame, hbehind⟩ := hname.append_inj hname' (by simpa using hequals)
        (by simpa using hequals) (List.cons.inj h).2
      obtain ⟨hsame', hrest⟩ := escape_append_inj (.inr rfl) hvalue hvalue' (by simp) (by simp)
        (List.cons.inj (List.cons.inj hbehind).2).2
      obtain ⟨rfl, hx⟩ := ih (fun b hb => has b (List.mem_cons_of_mem _ hb))
        (fun b hb => has' b (List.mem_cons_of_mem _ hb)) (List.cons.inj hrest).2
      exact ⟨congrArg (· :: as) (Prod.ext hsame hsame'), hx⟩

/-! ## Elements and texts -/

/-- The piece is text. -/
def isText : Html → Bool
  | text _ => true
  | _ => false

mutual

/-- A piece of markup that can be read back: an element that has an end, or text that is there and
without null bytes. -/
def Legible : Html → Prop
  | raw _ => False
  | text t => t ≠ [] ∧ 0 ∉ t
  | element name attributes children =>
    isVoid name = false ∧ IsName name ∧ (∀ a ∈ attributes, LegibleAttribute a) ∧
      AllLegible children

/-- Pieces that can be read back, no text right behind another one. -/
def AllLegible : List Html → Prop
  | [] => True
  | piece :: rest =>
    Legible piece ∧ (piece.isText = true → ∀ next ∈ rest.head?, next.isText = false) ∧
      AllLegible rest

end

/-- What markup begins with: its end or that of the element around it, text, or an element. -/
inductive Beginning where
  | ending
  | text
  | element
  deriving DecidableEq

/-- What some written markup begins with. -/
def beginning : Text → Beginning
  | [] => .ending
  | b :: rest =>
    if b != '<'.toUInt8 then .text else if rest.head? == some '/'.toUInt8 then .ending else .element

/-- What pieces of markup begin with. -/
def beginningOf : List Html → Beginning
  | [] => .ending
  | .element _ _ _ :: _ => .element
  | _ :: _ => .text

/-- Markup that does not begin with text begins with a bracket. -/
theorem head_of_beginning {x : Text} (h : beginning x ≠ .text) :
    ∀ b ∈ x.head?, b = '<'.toUInt8 := by
  intro b hb
  cases x with
  | nil => cases hb
  | cons c rest =>
    cases hb
    refine Decidable.byContradiction fun hne => h ?_
    exact if_pos (bne_iff_ne.mpr hne)

/-- What is written of an element and behind it. -/
theorem render_element_append {name : Text} {attributes : List (Text × Text)}
    {children : List Html} (hvoid : isVoid name = false) (x : Text) :
    render (.element name attributes children) ++ x =
      '<'.toUInt8 :: (name ++ (attributes.flatMap renderAttribute ++ '>'.toUInt8 ::
        (renderAll children ++ '<'.toUInt8 :: '/'.toUInt8 :: (name ++ '>'.toUInt8 :: x)))) := by
  unfold render
  rw [hvoid]
  simp only [Bool.false_eq_true, if_false, List.append_assoc]
  rfl

/-- The tag of an element goes on with a blank or ends. -/
theorem head_attributes {attributes : List (Text × Text)} {x : Text} :
    ∀ b ∈ (attributes.flatMap renderAttribute ++ '>'.toUInt8 :: x).head?, isNameRun b = false := by
  intro b hb
  cases attributes with
  | nil =>
    cases hb
    decide
  | cons a rest =>
    rw [List.flatMap_cons, List.append_assoc, renderAttribute_append] at hb
    cases hb
    decide

theorem beginning_bracket {x : Text} (h : x.head? ≠ some '/'.toUInt8) :
    beginning ('<'.toUInt8 :: x) = .element := by
  simp [beginning, h]

theorem beginning_element {name : Text} {attributes : List (Text × Text)} {x : Text}
    (hname : IsName name) :
    beginning ('<'.toUInt8 :: (name ++ (attributes.flatMap renderAttribute ++ '>'.toUInt8 :: x))) =
      .element := by
  have hslash : isNameRun '/'.toUInt8 = false := by decide
  refine beginning_bracket fun hhead => ?_
  cases name with
  | nil =>
    cases attributes with
    | nil => cases hhead
    | cons a rest =>
      rw [List.nil_append, List.flatMap_cons, List.append_assoc, renderAttribute_append] at hhead
      cases hhead
  | cons b name =>
    cases hhead
    rw [hname _ List.mem_cons_self] at hslash
    cases hslash

/-- Markup that can be read back begins as its pieces do. -/
theorem beginning_renderAll {pieces : List Html} (h : AllLegible pieces) {x : Text}
    (hx : beginning x = .ending) : beginning (renderAll pieces ++ x) = beginningOf pieces := by
  cases pieces with
  | nil => exact hx
  | cons piece rest =>
    unfold AllLegible at h
    cases piece with
    | raw t => exact absurd h.1 id
    | text t =>
      obtain ⟨⟨hne, -⟩, -⟩ := h
      cases hescaped : escape t with
      | nil =>
        cases t with
        | nil => exact absurd rfl hne
        | cons b t => exact absurd (List.append_eq_nil_iff.mp hescaped).1 (escapeByte_ne_nil b)
      | cons b more =>
        have hb : b ≠ '<'.toUInt8 := fun hsame =>
          notMem_escape (.inl rfl) t (hescaped ▸ hsame ▸ List.mem_cons_self)
        show beginning (escape t ++ renderAll rest ++ x) = .text
        rw [hescaped]
        exact if_pos (bne_iff_ne.mpr hb)
    | element name attributes children =>
      unfold Legible at h
      obtain ⟨⟨hvoid, hname, -⟩, -⟩ := h
      show beginning (render (.element name attributes children) ++ renderAll rest ++ x) = .element
      rw [List.append_assoc, render_element_append hvoid]
      exact beginning_element hname

/-- Text is followed by the end or by an element. -/
theorem beginning_behind_text {rest : List Html} {x : Text}
    (hnext : ∀ next ∈ rest.head?, next.isText = false) (h : AllLegible rest)
    (hx : beginning x = .ending) : beginning (renderAll rest ++ x) ≠ .text := by
  rw [beginning_renderAll h hx]
  cases rest with
  | nil => decide
  | cons piece more =>
    unfold AllLegible at h
    cases piece with
    | raw t => exact absurd h.1 id
    | text t => cases hnext _ rfl
    | element name attributes children => exact Beginning.noConfusion

/-- Markup that can be read back is told apart up to the end of the element around it. -/
theorem renderAll_append_inj {pieces pieces' : List Html} (h : AllLegible pieces)
    (h' : AllLegible pieces') {x y : Text} (hx : beginning x = .ending)
    (hy : beginning y = .ending) (heq : renderAll pieces ++ x = renderAll pieces' ++ y) :
    pieces = pieces' ∧ x = y := by
  -- by recursion on the pieces; what stands behind them is any end, since the content of an element
  -- goes on with a closing tag and not with nothing
  have hbegin : beginningOf pieces = beginningOf pieces' := by
    rw [← beginning_renderAll h hx, heq, beginning_renderAll h' hy]
  match pieces, pieces' with
  | [], [] => exact ⟨rfl, heq⟩
  | [], .element _ _ _ :: _ | [], .text _ :: _ | .element _ _ _ :: _, [] | .text _ :: _, []
  | .element _ _ _ :: _, .text _ :: _ | .text _ :: _, .element _ _ _ :: _ => cases hbegin
  | .raw _ :: _, _ =>
    unfold AllLegible at h
    exact absurd h.1 id
  | _, .raw _ :: _ =>
    unfold AllLegible at h'
    exact absurd h'.1 id
  | .text t :: rest, .text t' :: rest' =>
    unfold AllLegible at h h'
    obtain ⟨⟨-, ht⟩, hnext, hrest⟩ := h
    obtain ⟨⟨-, ht'⟩, hnext', hrest'⟩ := h'
    unfold renderAll render at heq
    rw [List.append_assoc, List.append_assoc] at heq
    obtain ⟨rfl, hbehind⟩ := escape_append_inj (.inl rfl) ht ht'
      (head_of_beginning (beginning_behind_text (hnext rfl) hrest hx))
      (head_of_beginning (beginning_behind_text (hnext' rfl) hrest' hy)) heq
    obtain ⟨rfl, hsame⟩ := renderAll_append_inj hrest hrest' hx hy hbehind
    exact ⟨rfl, hsame⟩
  | .element name attributes children :: rest, .element name' attributes' children' :: rest' =>
    unfold AllLegible Legible at h h'
    obtain ⟨⟨hvoid, hname, hattributes, hchildren⟩, -, hrest⟩ := h
    obtain ⟨⟨hvoid', hname', hattributes', hchildren'⟩, -, hrest'⟩ := h'
    unfold renderAll at heq
    rw [List.append_assoc, List.append_assoc, render_element_append hvoid,
      render_element_append hvoid'] at heq
    obtain ⟨rfl, hbehind⟩ := hname.append_inj hname' head_attributes head_attributes
      (List.cons.inj heq).2
    obtain ⟨rfl, hinside⟩ := renderAttributes_append_inj hattributes hattributes' hbehind
    obtain ⟨rfl, hclosing⟩ := renderAll_append_inj hchildren hchildren' rfl rfl hinside
    have hafter := List.append_cancel_left (List.cons.inj (List.cons.inj hclosing).2).2
    obtain ⟨rfl, hsame⟩ := renderAll_append_inj hrest hrest' hx hy (List.cons.inj hafter).2
    exact ⟨rfl, hsame⟩
termination_by pieces

/-- Pieces that can be read back are told apart when they are written. -/
theorem renderAll_inj {pieces pieces' : List Html} (h : AllLegible pieces)
    (h' : AllLegible pieces') (heq : renderAll pieces = renderAll pieces') : pieces = pieces' :=
  (renderAll_append_inj h h' rfl rfl (congrArg (· ++ []) heq)).1

end ViewBinder.Html
