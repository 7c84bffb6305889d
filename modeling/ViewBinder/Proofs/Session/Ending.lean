-- How a session may end. Quoted text mentions a name as often as the splices in it do, a call as
-- often as its arguments do. Markers made for splices keep their meaning to the end, so the table that
-- is woven in the end is the same for all of them; and whatever a session still knows as a splice of
-- the content it writes is one.
import ViewBinder.Proofs.Marker.Written
import ViewBinder.Proofs.Program.Identifiers
import ViewBinder.Proofs.Session.Confined
import ViewBinder.Proofs.Session.Weaving

namespace ViewBinder.Markers

open Code (Spells Interrupts)
open Marker (Piece pieces markersIn)

variable {m : Markers} {name : Text}

/-- Whatever the text stands for, it is code and spells the name so often. -/
def Mentions (m : Markers) (name t : Text) (n : Nat) : Prop :=
  ∀ w, m.Expands t w → ∃ ns, Spells w ns ∧ ns.count name = n

/-- The marker stands for a splice of an expression that mentions the name so often. -/
def Inserts (m : Markers) (name digits : Text) (n : Nat) : Prop :=
  ∃ entry expr, m.find? (Text.digitsValue digits) = some entry ∧
    entry.meaning = .known (Content.interrupted expr) ∧ m.Mentions name expr n

/-- Markers that together mention the name so often. -/
inductive Tally (m : Markers) (name : Text) : List Text → Nat → Prop
  | nil : Tally m name [] 0
  | cons {digits : Text} {ds : List Text} {n k : Nat} :
      m.Inserts name digits n → Tally m name ds k → Tally m name (digits :: ds) (n + k)

theorem Tally.append {ds es : List Text} {n k : Nat} (h : m.Tally name ds n)
    (h' : m.Tally name es k) : m.Tally name (ds ++ es) (n + k) := by
  induction h with
  | nil => rwa [List.nil_append, Nat.zero_add]
  | cons hfirst _ ih =>
    rw [Nat.add_assoc]
    exact .cons hfirst ih

theorem Tally.single {digits : Text} {n : Nat} (h : m.Inserts name digits n) :
    m.Tally name [digits] n := .cons h .nil

theorem Inserts.mentions {digits : Text} {n : Nat} (h : m.Inserts name digits n) {value v : Text}
    {entry : MarkerEntry} (hfind : m.find? (Text.digitsValue digits) = some entry)
    (hknown : entry.meaning = .known value) (hv : m.Expands value v) :
    ∃ ns, Interrupts v ns ∧ ns.count name = n := by
  obtain ⟨entry', expr, hfind', hknown', hmentions⟩ := h
  rw [hfind] at hfind'
  cases hfind'
  rw [hknown] at hknown'
  cases hknown'
  obtain ⟨w, hw, rfl⟩ := (expands_interrupted_iff expr v).mp hv
  obtain ⟨ns, hspells, hcount⟩ := hmentions w hw
  exact ⟨ns, hspells.interrupts, hcount⟩

/-- Quoted text mentions a name as often as its markers do. -/
theorem Tally.mentions_quote {t : Text} {n : Nat} (h : m.Tally name (markersIn t) n) :
    m.Mentions name (Text.quote t) n := by
  have hbody : ∀ {ps : List Piece} {n : Nat}, m.Tally name (ps.filterMap Piece.digits?) n →
      ∀ {w : Text}, ExpandsTo m (ps.map (Piece.written Text.quoteBody)) w →
        ∃ ns, Interrupts w ns ∧ ns.count name = n := by
    intro ps
    induction ps with
    | nil =>
      intro n htally w hw
      cases htally
      cases hw
      exact ⟨[], ⟨rfl, rfl⟩, rfl⟩
    | cons p ps ih =>
      intro n htally w hw
      cases p with
      | plain run =>
        cases hw with
        | plain hrest =>
          obtain ⟨ns, hns, hcount⟩ := ih htally hrest
          exact ⟨ns, (Code.interrupts_quoteBody run).append hns, hcount⟩
      | marker digits =>
        cases hw with
        | marker hfind hknown hvalue hrest =>
          cases htally with
          | cons hinserts hrests =>
            obtain ⟨ns, hns, rfl⟩ := hinserts.mentions hfind hknown hvalue
            obtain ⟨ms, hms, rfl⟩ := ih hrests hrest
            exact ⟨ns ++ ms, hns.append hms, List.count_append⟩
  intro w hw
  rw [Text.quote_eq] at hw
  obtain ⟨v, hv, rfl⟩ := (expands_quoted _ _).mp hw
  unfold Expands at hv
  rw [Marker.transparent_quoteBody.pieces_eq] at hv
  obtain ⟨ns, hns, hcount⟩ := hbody h hv
  exact ⟨ns, hns.spells, hcount⟩

/-- Text without markers is what it is. -/
theorem mentions_of_noDash {t : Text} {ns : List Text} (hdash : '-'.toUInt8 ∉ t)
    (h : Spells t ns) : m.Mentions name t (ns.count name) := fun w hw => by
  rw [hw.unique (expands_of_noDash hdash)]
  exact ⟨ns, h, rfl⟩

/-- The arguments of a call stand for themselves. -/
theorem expands_arguments {args : List Text} {w : Text} (h : m.Expands (Text.join ", " args) w) :
    ∃ vs, List.Forall₂ m.Expands args vs ∧ w = Text.join ", " vs := by
  have hcomma : Marker.breaks ','.toUInt8 = true := by decide
  have hblank : Marker.breaks ' '.toUInt8 = true := by decide
  cases args with
  | nil => exact ⟨[], .nil, expands_nil.mp h⟩
  | cons first args =>
    rw [Text.join_cons] at h
    have hmore : ∀ {more : List Text} {t w : Text},
        m.Expands (t ++ more.flatMap (Text.ofString ", " ++ ·)) w →
        ∃ v vs, m.Expands t v ∧ List.Forall₂ m.Expands more vs ∧
          w = v ++ vs.flatMap (Text.ofString ", " ++ ·) := by
      intro more
      induction more with
      | nil =>
        intro t w h
        rw [List.flatMap_nil, List.append_nil] at h
        exact ⟨w, [], h, .nil, by simp⟩
      | cons a more ih =>
        intro t w h
        rw [List.flatMap_cons] at h
        have hshape : ∀ u rest : Text, Text.ofString ", " ++ u ++ rest =
            ','.toUInt8 :: ([] ++ ' '.toUInt8 :: (u ++ rest)) := fun _ _ => rfl
        rw [hshape] at h
        obtain ⟨v, u, hv, hu, rfl⟩ := (expands_append_break hcomma _ _ _).mp h
        obtain ⟨e, rest, he, hrest, rfl⟩ := (expands_append_break hblank _ _ _).mp hu
        rw [expands_nil.mp he]
        obtain ⟨x, vs, hx, hvs, rfl⟩ := ih hrest
        exact ⟨v, x :: vs, hv, .cons hx hvs, by rw [List.flatMap_cons, hshape]⟩
    obtain ⟨v, vs, hv, hvs, rfl⟩ := hmore h
    exact ⟨v :: vs, .cons hv hvs, by rw [Text.join_cons]⟩

/-- A call mentions a name as often as its arguments do, if its function does not. -/
theorem mentions_call {function : Text} {fs : List Text} (hdash : '-'.toUInt8 ∉ function)
    (hfunction : Spells function fs) (hother : name ∉ fs) {args : List Text} {counts : List Nat}
    (h : List.Forall₂ (m.Mentions name) args counts) :
    m.Mentions name (function ++ "(" ++ Text.join ", " args ++ ")") counts.sum := by
  have hopen : Marker.breaks '('.toUInt8 = true := by decide
  have hclose : Marker.breaks ')'.toUInt8 = true := by decide
  have hshape : ∀ t : Text, function ++ "(" ++ t ++ ")" =
      function ++ '('.toUInt8 :: (t ++ ')'.toUInt8 :: []) := by
    intro t
    simp only [List.append_assoc]
    rfl
  intro w hw
  rw [hshape] at hw
  obtain ⟨v, hv, rfl⟩ :=
    (expands_between hopen hclose hdash (List.not_mem_nil (a := '-'.toUInt8)) _ _).mp hw
  obtain ⟨vs, hvs, rfl⟩ := expands_arguments hv
  rw [← hshape]
  obtain ⟨spelled, hargs, hall, hcount⟩ : ∃ spelled : List (Text × List Text),
      spelled.map (·.1) = vs ∧ (∀ a ∈ spelled, Spells a.1 a.2) ∧
      (spelled.flatMap (·.2)).count name = counts.sum := by
    clear hv hw
    induction h generalizing vs with
    | nil =>
      cases hvs
      exact ⟨[], rfl, fun _ ha => absurd ha List.not_mem_nil, rfl⟩
    | cons hfirst _ ih =>
      cases hvs with
      | cons hv hvs =>
        obtain ⟨ns, hspells, rfl⟩ := hfirst _ hv
        obtain ⟨spelled, rfl, hall, hcount⟩ := ih _ hvs
        refine ⟨(_, ns) :: spelled, rfl, List.forall_mem_cons.mpr ⟨hspells, hall⟩, ?_⟩
        rw [List.flatMap_cons, List.count_append, hcount, List.sum_cons]
  refine ⟨fs ++ spelled.flatMap (·.2), hargs ▸ Code.spells_call hfunction hall, ?_⟩
  rw [List.count_append, List.count_eq_zero_of_not_mem hother, hcount, Nat.zero_add]

end ViewBinder.Markers

namespace ViewBinder.Session

open Markup (Document)
open Work (Keeps Leads)

variable {s s' s'' : Session} {m : Markers} {name expr : Text} {k n : Nat}

/-! ## The table in the end -/

/-- The session may go on and end with this table of markers, its references settled. -/
def Ends (s : Session) (m : Markers) : Prop :=
  ∃ s' d, Reaches s s' ∧ Draft.settleReferences.runOn s'.toDraft = (.ok (), d) ∧ d.markers = m

theorem Ends.earlier (h : s'.Ends m) (hreaches : Reaches s s') : s.Ends m := by
  obtain ⟨s'', d, hlater, hsettle, hm⟩ := h
  exact ⟨s'', d, hreaches.trans hlater, hsettle, hm⟩

/-- A splice is one to the end. -/
theorem Splices.kept (h : s.Splices k expr) (hsound : s.Sound) (hends : s.Ends m) :
    ∃ entry, m.find? k = some entry ∧ entry.meaning = .known (Content.interrupted expr) := by
  obtain ⟨s', d, hlater, hsettle, rfl⟩ := hends
  have hsound' := hlater.sound hsound
  have hsplices := h.reaches hsound hlater
  obtain ⟨-, hkept, -⟩ := Draft.settleReferences_ok (hsound'.marked.apart hsound'.supply) hsettle
  obtain ⟨entry, hfind, hmeaning⟩ := hsplices.meaning
  exact ⟨entry, by rw [hkept k hsplices.free.apart, hfind], hmeaning⟩

/-- A splice mentions what its expression mentions. -/
theorem Splices.tally (h : s.Splices k expr) (hsound : s.Sound) (hends : s.Ends m)
    (hmentions : m.Mentions name expr n) :
    m.Tally name (Marker.markersIn (Marker.text k)) n := by
  obtain ⟨entry, hfind, hmeaning⟩ := h.kept hsound hends
  have halone := Marker.markersIn_text k []
  rw [List.append_nil, Marker.markersIn_nil] at halone
  rw [halone]
  exact .single ⟨entry, expr, by rwa [Text.digitsValue_ofNat], hmeaning, hmentions⟩

/-! ## Splices of the content being written -/

/-- Whatever counts as a splice is a marker of one. -/
def Genuine (s : Session) : Prop :=
  ∀ p ∈ s.splices, ∃ k, p.1 = Marker.text k ∧ s.Splices k p.2

/-- From a sound session, the session goes on, and splices are genuine if they were. -/
def Honest (s s' : Session) : Prop := s.Sound → Reaches s s' ∧ (s.Genuine → s'.Genuine)

theorem Genuine.reaches (h : s.Genuine) (hsound : s.Sound) (hreaches : Reaches s s')
    (hsame : s'.splices = s.splices) : s'.Genuine := by
  intro p hp
  rw [hsame] at hp
  obtain ⟨k, hmarker, hsplices⟩ := h p hp
  exact ⟨k, hmarker, hsplices.reaches hsound hreaches⟩

theorem honest_of_reaches (hreaches : Reaches s s') (hsame : s'.splices = s.splices) :
    Honest s s' := fun hsound => ⟨hreaches, fun h => h.reaches hsound hreaches hsame⟩

instance : Std.Refl Honest := ⟨fun s _ => ⟨Reaches.refl s, id⟩⟩

instance : IsTrans Session Honest where
  trans _ _ _ h h' hsound := by
    obtain ⟨hreaches, hgenuine⟩ := h hsound
    obtain ⟨hlater, hgenuine'⟩ := h' (hreaches.sound hsound)
    exact ⟨hreaches.trans hlater, hgenuine' ∘ hgenuine⟩

/-- Work that makes no splices. -/
instance (priority := low) {w : Work Session α} [hrun : Keeps (Runs false []) w]
    [hconfined : Keeps (Confined false true) w] : Keeps Honest w :=
  ⟨fun hok => honest_of_reaches (hrun.keeps hok (ready_any _)).reaches
    ((hconfined.keeps hok).splices rfl)⟩

instance (e : Nat) (expr : Text) : Keeps Honest (splice e expr) where
  keeps {s marker s'} hok := by
    intro hsound
    have hrun : Run s s' := run_ok hok
    obtain ⟨k, hmarker, hsplices⟩ := splices_of_splice hsound hok
    have hmade : s'.splices = (marker, expr) :: s.splices := by
      cases hok
      rfl
    refine ⟨hrun.reaches, fun hgenuine p hp => ?_⟩
    rw [hmade] at hp
    rcases List.mem_cons.mp hp with rfl | hold
    · exact ⟨k, hmarker, hsplices⟩
    · obtain ⟨k', hmarker, hold⟩ := hgenuine p hold
      exact ⟨k', hmarker, hold.reaches hsound hrun.reaches⟩

/-- The expression for content mentions what the content mentions, be it a splice or a literal. -/
theorem mentions_spliced {content x : Text} (hgenuine : s.Genuine) (hsound : s.Sound)
    (hends : s.Ends m) (hok : (spliced content).runOn s = (.ok x, s'))
    (htally : m.Tally name (Marker.markersIn content) n) : m.Mentions name x n := by
  cases hok
  cases hfound : s.splices.lookup content with
  | none => exact htally.mentions_quote
  | some expr =>
    obtain ⟨before, behind, hsplit, -⟩ := List.lookup_eq_some_iff.mp hfound
    have hmem : (content, expr) ∈ s.splices := by
      rw [hsplit]
      exact List.mem_append_right _ List.mem_cons_self
    obtain ⟨k, hmarker, hsplices⟩ := hgenuine _ hmem
    obtain ⟨entry, hfind, hmeaning⟩ := hsplices.kept hsound hends
    obtain rfl : content = Marker.text k := hmarker
    have halone := Marker.markersIn_text k []
    rw [List.append_nil, Marker.markersIn_nil] at halone
    rw [halone] at htally
    cases htally with
    | cons hinserts hnil =>
      cases hnil
      obtain ⟨entry', expr', hfind', hmeaning', hmentions⟩ := hinserts
      rw [Text.digitsValue_ofNat, hfind] at hfind'
      cases hfind'
      rw [hmeaning] at hmeaning'
      obtain rfl : expr = expr' := by
        injection hmeaning' with hsame
        unfold Content.interrupted at hsame
        exact (List.append_right_inj _).mp ((List.append_left_inj _).mp hsame)
      exact hmentions

end ViewBinder.Session
