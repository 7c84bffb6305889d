-- Splices: markers that end the literal around them, give an expression and open the literal again.
-- They are made for no reference, so they stand for the same text when references are settled; the
-- markers of references inside them then stand for what the references lead to. So weaving quoted
-- content with splices in it ends the literal at every splice, gives the expression there and opens
-- the next literal, whatever the literals between the splices hold, as long as none of them begins a
-- marker of its own.
import ViewBinder.Proofs.Attribute.Parser
import ViewBinder.Proofs.Marker.Expand
import ViewBinder.Proofs.Marker.Weave
import ViewBinder.Proofs.Session.Attaining
import ViewBinder.Proofs.Session.Marked
import ViewBinder.Proofs.Text.Quoted

namespace ViewBinder

open Session
open Work (Keeps)

/-! ## Content with splices -/

/-- An expression between the literals around it. -/
def Content.interrupted (expr : Text) : Text := "\" + " ++ expr ++ " + \""

/-- A call that escapes a value for markup. -/
def Content.escapeCall (package expr : Text) : Text :=
  package ++ "." ++ "HTMLEscape" ++ "(" ++ expr ++ ")"

/-- An escaped value between two empty literals. -/
def Content.escapedLiteral (package expr : Text) : Text :=
  "\"\" + " ++ Content.escapeCall package expr ++ " + \"\""

/-- A splice in content: its marker, the expression behind it, and the literal after it. -/
structure Content.Splice where
  marker : Text
  expr : Text
  literal : Text

/-- How a splice goes on in an expression: behind the literal before it. -/
def Content.Splice.joint (p : Content.Splice) : Text :=
  " + " ++ p.expr ++ " + " ++ Text.quote p.literal

/-- Content as it is written: literals with markers between them. -/
def Content.marked (l : Text) (splices : List Content.Splice) : Text :=
  l ++ splices.flatMap fun p => p.marker ++ p.literal

/-- The expression that content stands for: quoted literals and the expressions between them. -/
def Content.joined (l : Text) (splices : List Content.Splice) : Text :=
  Text.quote l ++ splices.flatMap Content.Splice.joint

/-! ## Expressions in splices -/

/-- A call in a splice stands for the call of what its argument stands for. -/
theorem Markers.expands_call {m : Markers} {function behind : Text}
    (hfunction : '-'.toUInt8 ∉ function) (hbehind : '-'.toUInt8 ∉ behind) (arg w : Text) :
    m.Expands (Content.interrupted (function ++ "(" ++ arg ++ ")" ++ behind)) w ↔
      ∃ v, m.Expands arg v ∧ w = Content.interrupted (function ++ "(" ++ v ++ ")" ++ behind) := by
  have hshape : ∀ v : Text, Content.interrupted (function ++ "(" ++ v ++ ")" ++ behind) =
      ("\" + " ++ function) ++ '('.toUInt8 :: (v ++ ')'.toUInt8 :: (behind ++ " + \"")) := by
    intro v
    unfold Content.interrupted
    simp only [List.append_assoc]
    rfl
  have hfront : '-'.toUInt8 ∉ ("\" + " : Text) ++ function := fun hmem =>
    (List.mem_append.mp hmem).elim (by decide) hfunction
  have hback : '-'.toUInt8 ∉ behind ++ (" + \"" : Text) := fun hmem =>
    (List.mem_append.mp hmem).elim hbehind (by decide)
  simp only [hshape]
  exact expands_between (by decide) (by decide) hfront hback arg w

/-- An expression that is spliced in stands for what it stands for between literals. -/
theorem Markers.expands_interrupted_iff {m : Markers} (expr w : Text) :
    m.Expands (Content.interrupted expr) w ↔
      ∃ v, m.Expands expr v ∧ w = Content.interrupted v := by
  have hshape : ∀ v : Text, Content.interrupted v =
      "\" +" ++ ' '.toUInt8 :: (v ++ ' '.toUInt8 :: "+ \"") := by
    intro v
    unfold Content.interrupted
    rw [List.append_assoc]
    rfl
  simp only [hshape]
  exact expands_between (by decide) (by decide) (by decide) (by decide) expr w

theorem Markers.expands_escapeCall {m : Markers} {package : Text} (h : '-'.toUInt8 ∉ package)
    (arg w : Text) :
    m.Expands (Content.interrupted (Content.escapeCall package arg)) w ↔
      ∃ v, m.Expands arg v ∧ w = Content.interrupted (Content.escapeCall package v) := by
  have hfunction : '-'.toUInt8 ∉ package ++ ("." : Text) ++ ("HTMLEscape" : Text) := by
    simp only [List.mem_append, not_or]
    exact ⟨⟨h, by decide⟩, by decide⟩
  have hcall := expands_call (m := m) hfunction (List.not_mem_nil (a := '-'.toUInt8)) arg w
  unfold Content.escapeCall
  simpa only [List.append_nil] using hcall

/-! ## Splices of a session -/

namespace Session

variable {s s' : Session} {d : Draft} {r : FieldReference} {n k : Nat} {expr package : Text}

/-- Marker `k` splices in an expression, and no reference has it. -/
structure Splices (s : Session) (k : Nat) (expr : Text) : Prop where
  meaning : ∃ entry, s.markers.find? k = some entry ∧
    entry.meaning = .known (Content.interrupted expr)
  free : s.toDraft.Free k

theorem splices_of_splice {e : Nat} {m : Text} (hsound : s.Sound)
    (h : (splice e expr).runOn s = (.ok m, s')) : ∃ k, m = Marker.text k ∧ s'.Splices k expr := by
  cases h
  refine ⟨s.markers.supply s.markers.entries.length, rfl, ?_, ?_⟩
  · exact ⟨_, Markers.find?_add hsound.marked.numbered hsound.supply _ _ _, rfl⟩
  · exact hsound.marked.free_mark hsound.supply _ _ _

theorem Splices.reaches (h : s.Splices k expr) (hsound : s.Sound) (hreaches : Reaches s s') :
    s'.Splices k expr := by
  obtain ⟨entry, hfind, hmeaning⟩ := h.meaning
  exact ⟨⟨entry, hreaches.grows.find? hfind, hmeaning⟩, hreaches.free hsound h.free⟩

theorem Splices.expands (h : s.Splices k expr) (hsound : s.Sound)
    (hsettle : Draft.settleReferences.runOn s.toDraft = (.ok (), d)) (w : Text) :
    d.markers.Expands (Marker.text k) w ↔ d.markers.Expands (Content.interrupted expr) w := by
  have hapart := hsound.marked.apart hsound.supply
  obtain ⟨-, hkept, -⟩ := Draft.settleReferences_ok hapart hsettle
  obtain ⟨entry, hfind, hmeaning⟩ := h.meaning
  rw [Markers.expands_marker, hkept k h.free.apart, hfind]
  simp [hmeaning]

/-! ### Escaped references -/

/-- The value of a reference is spliced in: marker `k` escapes what the reference with marker `n`
leads to. -/
structure Spliced (s : Session) (r : FieldReference) (n k : Nat) (package : Text) : Prop where
  marker : r.marker = Marker.text n
  reference : r ∈ s.fields.references
  splices : s.Splices k (Content.escapeCall package (Marker.text n))
  package : s.imports.Known Library.safehtmlPackage package

theorem Spliced.reaches (h : s.Spliced r n k package) (hsound : s.Sound)
    (hreaches : Reaches s s') : s'.Spliced r n k package := by
  refine ⟨h.marker, ?_, h.splices.reaches hsound hreaches, ?_⟩
  · exact hreaches.fields.extends.references.subset h.reference
  · exact hreaches.imports (P := fun im => im.Known Library.safehtmlPackage package)
      (fun _ path preferred hknown => hknown.add path preferred) h.package

/-- Once references are settled, the marker of a splice stands for a call that escapes what the
reference leads to. -/
theorem Spliced.expands (h : s.Spliced r n k package) (hsound : s.Sound)
    (hsettle : Draft.settleReferences.runOn s.toDraft = (.ok (), d)) :
    ∃ id expr adapted, Draft.Resolved d r n id expr adapted ∧
      ∀ w, d.markers.Expands (Marker.text k) w ↔ ∃ v, d.markers.Expands adapted v ∧
        w = Content.interrupted (Content.escapeCall package v) := by
  have hapart := hsound.marked.apart hsound.supply
  obtain ⟨-, -, hresolved⟩ := Draft.settleReferences_ok hapart hsettle
  obtain ⟨n', id, expr, adapted, hresolved⟩ := hresolved r h.reference
  obtain rfl : n = n' := by
    have hid := hresolved.marker
    rw [h.marker] at hid
    exact (Marker.id?_text hid).symm
  obtain ⟨own, hown, hadapted⟩ := hresolved.meaning
  have hvalue : ∀ v, d.markers.Expands (Marker.text n) v ↔ d.markers.Expands adapted v := by
    intro v
    rw [Markers.expands_marker, hown]
    simp [hadapted]
  refine ⟨id, expr, adapted, hresolved, fun w => ?_⟩
  rw [h.splices.expands hsound hsettle,
    Markers.expands_escapeCall (hsound.imports.known h.package)]
  simp only [hvalue]

/-- A literal that is nothing but such a marker stands for the call between empty literals. -/
theorem Spliced.expands_quoted (h : s.Spliced r n k package) (hsound : s.Sound)
    (hsettle : Draft.settleReferences.runOn s.toDraft = (.ok (), d)) :
    ∃ id expr adapted, Draft.Resolved d r n id expr adapted ∧
      ∀ w, d.markers.Expands ("\"" ++ Marker.text k ++ "\"") w ↔
        ∃ v, d.markers.Expands adapted v ∧ w = Content.escapedLiteral package v := by
  have hshape : ∀ v : Text, "\"" ++ Content.interrupted (Content.escapeCall package v) ++ "\"" =
      Content.escapedLiteral package v := by
    intro v
    unfold Content.interrupted Content.escapedLiteral
    simp only [List.append_assoc]
    rfl
  obtain ⟨id, expr, adapted, hresolved, hexpands⟩ := h.expands hsound hsettle
  refine ⟨id, expr, adapted, hresolved, fun w => ?_⟩
  rw [Markers.expands_quoted]
  simp only [hexpands]
  constructor
  · rintro ⟨_, ⟨v, hv, rfl⟩, rfl⟩
    exact ⟨v, hv, hshape v⟩
  · rintro ⟨v, hv, rfl⟩
    exact ⟨_, ⟨v, hv, rfl⟩, (hshape v).symm⟩

/-! ### One after the other -/

/-- Splices that are made one after the other. The session goes on before, between and after
them. -/
inductive Splicing : Session → List Content.Splice → Session → Prop
  | done {s s' : Session} : Reaches s s' → Splicing s [] s'
  | splice {s s₁ s₂ s' : Session} {e : Nat} {marker expr : Text} (literal : Text)
      {rest : List Content.Splice} :
      Reaches s s₁ → (Session.splice e expr).runOn s₁ = (.ok marker, s₂) → Splicing s₂ rest s' →
      Splicing s (⟨marker, expr, literal⟩ :: rest) s'

theorem Splicing.reaches {s s' : Session} {splices : List Content.Splice}
    (h : Splicing s splices s') : Reaches s s' := by
  induction h with
  | done hreaches => exact hreaches
  | splice literal hreaches hsplice _ ih =>
    have hrun : Run _ _ := run_ok hsplice
    exact hreaches.trans (hrun.reaches.trans ih)

/-- Every marker still stands for its splice at the end. -/
theorem Splicing.splices {s s' : Session} {splices : List Content.Splice}
    (h : Splicing s splices s') (hsound : s.Sound) :
    ∀ p ∈ splices, ∃ k, p.marker = Marker.text k ∧ s'.Splices k p.expr := by
  induction h with
  | done _ => exact fun _ hp => absurd hp List.not_mem_nil
  | splice literal hreaches hsplice hrest ih =>
    have hsound₁ := hreaches.sound hsound
    have hrun : Run _ _ := run_ok hsplice
    have hsound₂ := hrun.reaches.sound hsound₁
    intro p hp
    rcases List.mem_cons.mp hp with rfl | hp
    · obtain ⟨k, hmarker, hsplices⟩ := splices_of_splice hsound₁ hsplice
      exact ⟨k, hmarker, hsplices.reaches hsound₂ hrest.reaches⟩
    · exact ih hsound₂ p hp

end Session

/-! ## Quoting around markers -/

/-- A marker begins with the front of all markers. -/
theorem Marker.text_append (k : Nat) (rest : Text) :
    Marker.text k ++ rest = Marker.front ++ (Text.ofNat k ++ Marker.back ++ rest) := by
  unfold Marker.text
  simp only [List.append_assoc]

/-- A literal begins a marker only if the text in it does. -/
theorem Marker.front_of_quoteBody {l : Text} (h : front <:+: Text.quoteBody l) : front <:+: l :=
  Text.infix_of_quoteBody (p := "-token--") (by decide) h

theorem Text.quoteBody_marker (l : Text) (k : Nat) (rest : Text) :
    quoteBody (l ++ (Marker.text k ++ rest)) =
      quoteBody l ++ (Marker.text k ++ quoteBody rest) := by
  rw [← quoteBody_plain (Marker.isPlainByte_text k)]
  exact quoteBody_append l (a := '-'.toUInt8) (by decide) _

/-- What stands between the quotes of content: the literals are quoted, the markers kept. -/
theorem Content.quoteBody_marked {splices : List Content.Splice}
    (h : ∀ p ∈ splices, ∃ k, p.marker = Marker.text k) (l : Text) :
    Text.quoteBody (marked l splices) =
      Text.quoteBody l ++ splices.flatMap fun p => p.marker ++ Text.quoteBody p.literal := by
  induction splices generalizing l with
  | nil => simp [marked]
  | cons p rest ih =>
    obtain ⟨hp, hrest⟩ := List.forall_mem_cons.mp h
    obtain ⟨k, hk⟩ := hp
    have hshape : marked l (p :: rest) = l ++ (Marker.text k ++ marked p.literal rest) := by
      simp [marked, hk]
    rw [hshape, Text.quoteBody_marker, ih hrest, List.flatMap_cons, hk, List.append_assoc]

/-- The quotes around spliced content belong to its first and last literal. -/
theorem Content.quotes_interrupted (splices : List Content.Splice) :
    (splices.flatMap fun p => interrupted p.expr ++ Text.quoteBody p.literal) ++ ("\"" : Text) =
      "\"" ++ splices.flatMap Splice.joint := by
  have hopen : ("\" + " : Text) = "\"" ++ " + " := rfl
  have hclose : (" + \"" : Text) = " + " ++ "\"" := rfl
  induction splices with
  | nil => rfl
  | cons p rest ih =>
    rw [List.flatMap_cons, List.append_assoc, ih, List.flatMap_cons]
    unfold interrupted Splice.joint
    simp only [Text.quote_eq, hopen, hclose, List.append_assoc]

/-! ## Weaving -/

namespace Markers

theorem expands_interrupted {m : Markers} {expr : Text} (h : Marker.occursIn expr = false) :
    m.Expands (Content.interrupted expr) (Content.interrupted expr) :=
  (expands_interrupted_iff expr _).mpr ⟨expr, expands_of_noMarker h, rfl⟩

/-- Every splice is replaced, and nothing else. -/
theorem expands_spliced {m : Markers} {splices : List Content.Splice}
    (hsplices : ∀ p ∈ splices, ∃ k entry, p.marker = Marker.text k ∧ m.find? k = some entry ∧
      entry.meaning = .known (Content.interrupted p.expr))
    (hexpr : ∀ p ∈ splices, Marker.occursIn p.expr = false) {l : Text}
    (hliteral : ¬ Marker.front <:+: l) (hliterals : ∀ p ∈ splices, ¬ Marker.front <:+: p.literal) :
    m.Expands
      (Text.quoteBody l ++ splices.flatMap fun p => p.marker ++ Text.quoteBody p.literal)
      (Text.quoteBody l ++
        splices.flatMap fun p => Content.interrupted p.expr ++ Text.quoteBody p.literal) := by
  have hl : ¬ Marker.front <:+: Text.quoteBody l := fun h =>
    hliteral (Marker.front_of_quoteBody h)
  induction splices generalizing l with
  | nil =>
    simp only [List.flatMap_nil, List.append_nil]
    exact expands_literal hl
  | cons p rest ih =>
    obtain ⟨hp, hrest⟩ := List.forall_mem_cons.mp hsplices
    obtain ⟨hpexpr, hrestexpr⟩ := List.forall_mem_cons.mp hexpr
    obtain ⟨hpliteral, hrestliterals⟩ := List.forall_mem_cons.mp hliterals
    obtain ⟨k, entry, hk, hfind, hmeaning⟩ := hp
    have hbehind := ih hrest hrestexpr hpliteral hrestliterals
      fun h => hpliteral (Marker.front_of_quoteBody h)
    have hmarker : m.Expands (Marker.text k) (Content.interrupted p.expr) :=
      expands_marker.mpr ⟨entry, _, hfind, hmeaning, expands_interrupted hpexpr⟩
    rw [List.flatMap_cons, List.flatMap_cons, hk, List.append_assoc, List.append_assoc,
      Marker.text_append]
    refine (expands_literal_marker hl _ _).mpr ⟨_, ?_, rfl⟩
    rw [← Marker.text_append]
    exact expands_marker_append.mpr ⟨_, _, hmarker, hbehind, rfl⟩

end Markers

/-- Weaving quoted content succeeds, and gives the quoted literals with the spliced expressions
between them. -/
theorem Content.weave_quote {s s' : Session} {splices : List Content.Splice} {l : Text}
    (hsound : s.Sound) (hsplicing : Splicing s splices s') (hsmall : s'.markers.Small)
    (hliteral : ¬ Marker.front <:+: l) (hliterals : ∀ p ∈ splices, ¬ Marker.front <:+: p.literal)
    (hexpr : ∀ p ∈ splices, Marker.occursIn p.expr = false) :
    ∃ k, (Markers.weave (Text.quote (marked l splices))).runOn s'.markers =
      (.ok (joined l splices), { s'.markers with woven := k }) := by
  have hsplices := hsplicing.splices hsound
  have hknown : ∀ p ∈ splices, ∃ k entry, p.marker = Marker.text k ∧
      s'.markers.find? k = some entry ∧ entry.meaning = .known (interrupted p.expr) := by
    intro p hp
    obtain ⟨k, hk, hmeaning⟩ := hsplices p hp
    obtain ⟨entry, hfind, hentry⟩ := hmeaning.meaning
    exact ⟨k, entry, hk, hfind, hentry⟩
  refine Markers.weave_of_expands hsmall ?_
  rw [Text.quote_eq, Markers.expands_quoted, quoteBody_marked fun p hp => (hsplices p hp).imp
    fun _ h => h.1]
  refine ⟨_, Markers.expands_spliced hknown hexpr hliteral hliterals, ?_⟩
  unfold joined
  rw [Text.quote_eq]
  simp only [List.append_assoc, quotes_interrupted]

/-- A session in which nothing was done yet. -/
def Session.blank : Session :=
  { document := { file := ⟨[], []⟩ }, catalog := Catalog.bare, imports := { self := [] },
    markers := {}, parsers := Attribute.Parsers.of Catalog.bare }

/-- Literals that end or begin like parts of a marker. -/
theorem Content.weave_quote_pitfalls : ∃ s' k, Session.blank.Sound ∧
    Splicing Session.blank
      [⟨Marker.text 1, "a", "1--end-token----token"⟩, ⟨Marker.text 2, "b", "--\""⟩] s' ∧
    s'.markers.Small ∧
    (Markers.weave (Text.quote ("--token" ++ (Marker.text 1 ++ "1--end-token----token" ++
        (Marker.text 2 ++ "--\""))))).runOn s'.markers =
      (.ok "\"--token\" + a + \"1--end-token----token\" + b + \"--\\\"\"",
        { s'.markers with woven := k }) := by
  have hsound : Session.blank.Sound :=
    ⟨⟨rfl, fun _ h => (by cases h), List.Sublist.refl _⟩, fun _ _ h => Nat.succ.inj h,
      fun _ h => (by cases h)⟩
  obtain ⟨s₁, s₂, hfirst, hsecond, hids⟩ : ∃ s₁ s₂,
      (splice 0 "a").runOn Session.blank = (.ok (Marker.text 1), s₁) ∧
      (splice 0 "b").runOn s₁ = (.ok (Marker.text 2), s₂) ∧
      s₂.markers.entries.map (·.1) = [1, 2] := ⟨_, _, rfl, rfl, rfl⟩
  have hsplicing := Splicing.splice "1--end-token----token" (Reaches.refl _) hfirst
    (Splicing.splice "--\"" (Reaches.refl _) hsecond (Splicing.done (Reaches.refl _)))
  have hsmall : s₂.markers.Small := by
    intro e he
    have hid : e.1 ∈ s₂.markers.entries.map (·.1) := List.mem_map_of_mem he
    rw [hids] at hid
    revert hid
    generalize e.1 = id
    revert id
    decide
  obtain ⟨k, hwoven⟩ := Content.weave_quote (l := "--token") hsound hsplicing hsmall (by decide)
    (by decide) (by decide)
  exact ⟨s₂, k, hsound, hsplicing, hsmall, hwoven⟩

end ViewBinder
