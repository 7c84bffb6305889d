-- Elements that are looked up once content is attached. Each gets an id: a field of its own holds it,
-- a line of the open section looks the element up by it, and its marker is spliced into the content.
-- What writing content leaves behind of all that is put together piece by piece.
import ViewBinder.Proofs.Element.Confined
import ViewBinder.Proofs.Session.Ending
import ViewBinder.Proofs.Session.Taking

namespace ViewBinder

open Markup (Document)
open Session
open Work (Keeps Leads)

/-! ## Names of fields that hold ids -/

/-- The name is one that is made up for the id of an element. -/
def Content.IsHolder (name : Text) : Prop := ∃ n, name = "domId" ++ Text.ofNat n

theorem Content.isPlainName_holder {name : Text} (h : IsHolder name) : Text.IsPlainName name := by
  obtain ⟨n, rfl⟩ := h
  have hdigits : ∀ b ∈ Text.ofNat n, Text.isNamePart b.toNat = true := fun b hb =>
    Text.isNamePart_of_isDigitByte (List.all_eq_true.mp (Text.isDigitByte_ofNat n).2 b hb)
  have hword : Text.HasNameShape (Text.ofString "domId") :=
    ⟨_, _, rfl, rfl, forall_of_all (by decide)⟩
  refine ⟨hword.append hdigits, ?_⟩
  have hfree : ∀ w ∈ Text.keywords ++ Text.predeclared, ¬ Text.ofString "domId" <+: w := by
    decide
  cases htaken : Text.isTaken ("domId" ++ Text.ofNat n) with
  | false => rfl
  | true =>
    have hmem : ("domId" ++ Text.ofNat n : Text) ∈ Text.keywords ++ Text.predeclared := by
      simpa [Text.isTaken, List.contains_iff_mem] using htaken
    exact absurd (List.prefix_append _ _) (hfree _ hmem)

/-- The name ends in a digit. -/
theorem Content.IsHolder.digit {name : Text} (h : IsHolder name) :
    ∃ front b, name = front ++ [b] ∧ Text.isDigitByte b = true := by
  obtain ⟨n, rfl⟩ := h
  obtain ⟨hne, hdigits⟩ := Text.isDigitByte_ofNat n
  refine ⟨"domId" ++ (Text.ofNat n).dropLast, (Text.ofNat n).getLast hne, ?_, ?_⟩
  · rw [List.append_assoc, List.dropLast_append_getLast hne]
  · exact List.all_eq_true.mp hdigits _ (List.getLast_mem hne)

theorem Content.IsHolder.ne {name : Text} (h : IsHolder name) {front : Text} {b : UInt8}
    (hb : Text.isDigitByte b = false) : front ++ [b] ≠ name := by
  obtain ⟨front', b', rfl, hb'⟩ := h.digit
  intro hsame
  obtain ⟨-, hlast⟩ := List.append_inj' hsame rfl
  rw [(List.cons.inj hlast).1, hb'] at hb
  cases hb

theorem Content.IsHolder.ne_of_head {name w : Text} (h : IsHolder name)
    (hw : w.head? ≠ some 'd'.toUInt8) : w ≠ name := by
  rintro rfl
  obtain ⟨n, rfl⟩ := h
  exact hw rfl

/-- The name of a stamper ends in no digit. -/
theorem Content.sanitize_stamper (name : Text) :
    ∃ front b, Text.sanitize (name ++ "Stamper") = front ++ [b] ∧ Text.isDigitByte b = false := by
  have hruns : Text.runes (name ++ "Stamper") =
      Text.runes (name ++ "Stampe") ++ Text.runes ['r'.toUInt8] := by
    have hshape : name ++ ("Stamper" : Text) = (name ++ "Stampe") ++ ['r'.toUInt8] := by
      rw [List.append_assoc]
      rfl
    rw [hshape, Text.runes_append _ (by decide)]
  have hlast : ∃ front, Text.sanitizeRunes (Text.runes (name ++ "Stamper")) =
      front ++ ['r'.toUInt8] := by
    rw [hruns]
    cases Text.runes (name ++ "Stampe") with
    | nil => exact ⟨[], rfl⟩
    | cons r rest =>
      refine ⟨Text.sanitizeFirst r.code ++ rest.flatMap fun r => Text.sanitizeLater r.code, ?_⟩
      rw [List.cons_append]
      unfold Text.sanitizeRunes
      dsimp only
      rw [List.flatMap_append, ← List.append_assoc]
      rfl
  obtain ⟨front, hfront⟩ := hlast
  unfold Text.sanitize
  dsimp only
  rw [hfront]
  split
  · exact ⟨front ++ ['r'.toUInt8], '_'.toUInt8, rfl, by decide⟩
  · exact ⟨front, 'r'.toUInt8, rfl, by decide⟩

namespace Session

/-- A field has the name. -/
def HasName (s : Session) (name : Text) : Prop :=
  ∃ id < s.fields.fields.size, (s.fields.field id).name = name

theorem HasName.later {s s' : Session} {name : Text} (h : s.HasName name)
    (hreaches : Reaches s s') : s'.HasName name := by
  obtain ⟨id, hid, rfl⟩ := h
  exact ⟨id, Nat.lt_of_lt_of_le hid hreaches.fields.extends.size,
    (hreaches.fields.extends.field id hid).name⟩

/-- A field that is declared has the only name like that. -/
theorem hasName_register {precedence : Precedence} {type : Option TypeId} {name : Text}
    {id : FieldId} {s s' : Session}
    (h : (liftM (Draft.register precedence type name) : Work Session FieldId).runOn s =
      (.ok id, s')) :
    Reaches s s' ∧ ¬ s.HasName (Text.sanitize name) ∧ id < s'.fields.fields.size ∧
      (s'.fields.field id).name = Text.sanitize name := by
  obtain ⟨fields, hregister, rfl⟩ := register_ok h
  obtain ⟨rfl, hsize⟩ := FieldTable.size_register hregister
  obtain ⟨-, needs, hfield⟩ := FieldTable.field_register hregister
  refine ⟨(Step.declare hregister).reaches, ?_, ?_, congrArg Field.name hfield⟩
  · rintro ⟨id, hid, hname⟩
    unfold FieldTable.register at hregister
    split at hregister
    · cases hregister
    · rename_i hfree
      exact FieldTable.byName?_eq_none_iff.mp hfree id hid hname
  · show _ < fields.fields.size
    rw [hsize]
    exact Nat.lt_succ_self _

theorem reaches_use {f : FieldId} {name : Text} {s s' : Session}
    (h : (liftM (Draft.use f) : Work Session Text).runOn s = (.ok name, s')) :
    Reaches s s' ∧ name = (s.fields.field f).name := by
  obtain ⟨hname, rfl⟩ := use_ok h
  exact ⟨reaches_change .use, hname⟩

theorem reaches_setInitializer {f : FieldId} {expr : Text} {s s' : Session} {u : Unit}
    (h : (liftM (Draft.setInitializer f expr) : Work Session Unit).runOn s = (.ok u, s')) :
    Reaches s s' := by
  obtain ⟨hnone, rfl⟩ := setInitializer_ok h
  exact reaches_change (.make _ hnone)

/-- An id is held by a field whose name is new. -/
theorem declareId_ok {holder : Text} {s s' : Session}
    (h : declareId.runOn s = (.ok holder, s')) :
    Reaches s s' ∧ Content.IsHolder holder ∧ ¬ s.HasName holder ∧ s'.HasName holder := by
  unfold declareId at h
  obtain ⟨_, s₁, hids, h⟩ := Work.bind_ok h
  cases hids
  obtain ⟨type, s₂, htype, h⟩ := Work.bind_ok h
  cases htype
  obtain ⟨_, _, hget, h⟩ := Work.bind_ok h
  cases hget
  obtain ⟨f, s₃, hregister, h⟩ := Work.bind_ok h
  obtain ⟨function, s₄, hfunction, h⟩ := Work.bind_ok h
  obtain ⟨_, s₅, hinitializer, huse⟩ := Work.bind_ok h
  have hholder : Content.IsHolder ("domId" ++ Text.ofNat (s.ids + 1)) := ⟨s.ids + 1, rfl⟩
  obtain ⟨hdeclared, hnew, hid, hname⟩ := hasName_register hregister
  rw [Text.sanitize_of_isPlainName (Content.isPlainName_holder hholder)] at hnew hname
  have hmade : Run s₃ s₄ := run_ok hfunction
  have hmiddle : Reaches s₃ s₅ := hmade.reaches.trans (reaches_setInitializer hinitializer)
  obtain ⟨hlast, rfl⟩ := reaches_use huse
  have hnamed : (s₅.fields.field f).name = "domId" ++ Text.ofNat (s.ids + 1) :=
    (hmiddle.fields.extends.field f hid).name.trans hname
  rw [hnamed]
  have haside : Reaches s { s with ids := s.ids + 1 } :=
    (Step.aside (s.ids + 1) s.splices s.trailing).reaches
  exact ⟨haside.trans (hdeclared.trans (hmiddle.trans hlast)), hholder, hnew,
    HasName.later ⟨f, hid, hname⟩ (hmiddle.trans hlast)⟩

end Session

namespace Content

/-! ## What writing content leaves behind -/

/-- An element that is looked up once the content is attached. -/
structure Lookup where
  element : Nat
  /-- What stands for the element is written, with whatever is around it. -/
  shown : Bool
  /-- The name of the field that holds its id. -/
  holder : Text
  /-- The line that looks it up. -/
  line : Text

/-- Elements that are looked up, and expressions of the template that are spliced in. -/
structure Trace where
  lookups : List Lookup := []
  values : List Text := []

namespace Trace

/-- What is left behind by one piece of work after another. -/
def append (t u : Trace) : Trace := ⟨t.lookups ++ u.lookups, t.values ++ u.values⟩

/-- What is left behind by content that is kept or dropped. -/
def under (kept : Bool) (t : Trace) : Trace :=
  { t with lookups := t.lookups.map fun l => { l with shown := l.shown && kept } }

/-- How often the content that is written has to mention a name. -/
def mentions (t : Trace) (name : Text) : Nat :=
  t.lookups.countP fun l => l.shown && l.holder == name

@[simp] theorem mentions_append (t u : Trace) (name : Text) :
    (t.append u).mentions name = t.mentions name + u.mentions name := List.countP_append

@[simp] theorem mentions_silent (values : List Text) (name : Text) :
    mentions ⟨[], values⟩ name = 0 := rfl

@[simp] theorem under_true (t : Trace) : t.under true = t := by
  cases t
  simp [under]

@[simp] theorem mentions_under_false (t : Trace) (name : Text) :
    (t.under false).mentions name = 0 := by
  simp [mentions, under, List.countP_eq_zero]

/-- Of a lookup in content that is dropped, all stays but that it is shown. -/
theorem mem_under {t : Trace} {kept : Bool} {l : Lookup} (h : l ∈ (t.under kept).lookups) :
    ∃ l' ∈ t.lookups, l = { l' with shown := l'.shown && kept } := by
  obtain ⟨l', hl', rfl⟩ := List.mem_map.mp h
  exact ⟨l', hl', rfl⟩

end Trace

/-- The call that finds an element. -/
def elementCall (holder : Text) : Text := ".ElementByID(" ++ holder ++ ")"

/-- The expression is spliced in for something in the template: a reference or a message in an
attribute, or an element that stands for text or markup. -/
inductive IsValue (s : Session) : Text → Prop
  | reference {r : FieldReference} (package : Text) :
      r ∈ s.fields.references → IsValue s (escapeCall package r.marker)
  | message (package : Text) (i : Nat) :
      IsValue s (escapeCall package (messagesName ++ "." ++ Messages.methodName i ++ "()"))
  | text {e : Nat} {type : Option TypeId} {expr : Text} {s₁ s₂ : Session} (package : Text) :
      (takeRequired e "from" [type]).runOn s₁ = (.ok expr, s₂) → Reaches s₂ s →
      IsValue s (escapeCall package expr)
  | markup {e : Nat} {type : Option TypeId} {expr : Text} {s₁ s₂ : Session} :
      (takeRequired e "from" [type]).runOn s₁ = (.ok expr, s₂) → Reaches s₂ s →
      IsValue s (expr ++ ".String()")

theorem IsValue.later {s s' : Session} {x : Text} (h : IsValue s x) (hreaches : Reaches s s') :
    IsValue s' x := by
  cases h with
  | reference package hr => exact .reference package (hreaches.fields.extends.references.subset hr)
  | message package i => exact .message package i
  | text package htake hlater => exact .text package htake (hlater.trans hreaches)
  | markup htake hlater => exact .markup htake (hlater.trans hreaches)

/-- Content was written between the sessions and left this behind: the innermost section got the
lines that look elements up, and each id is held by a field of its own that was not there before. -/
structure Leaves (s s' : Session) (t : Trace) : Prop where
  reaches : Reaches s s'
  genuine : s.Genuine → s'.Genuine
  lines : s'.sections.unfinished =
    Sections.filled (t.lookups.map (·.line)) s.sections.unfinished
  holders : ∀ l ∈ t.lookups, IsHolder l.holder ∧ ¬ s.HasName l.holder ∧ s'.HasName l.holder
  distinct : (t.lookups.map (·.holder)).Nodup
  found : ∀ l ∈ t.lookups, elementCall l.holder <:+: l.line
  values : ∀ x ∈ t.values, IsValue s' x

variable {s s' s'' : Session} {t u : Trace}

theorem leaves_silent {values : List Text} (h : Honest s s') (hsound : s.Sound)
    (hlines : s'.sections.unfinished = s.sections.unfinished) (hvalues : ∀ x ∈ values, IsValue s' x) :
    Leaves s s' ⟨[], values⟩ where
  reaches := (h hsound).1
  genuine := (h hsound).2
  lines := hlines.trans (Sections.filled_nil _).symm
  holders := nofun
  distinct := .nil
  found := nofun
  values := hvalues

theorem Leaves.append (h : Leaves s s' t) (h' : Leaves s' s'' u) :
    Leaves s s'' (t.append u) where
  reaches := h.reaches.trans h'.reaches
  genuine := h'.genuine ∘ h.genuine
  lines := by
    rw [h'.lines, h.lines, ← Sections.filled_append, ← List.map_append]
    rfl
  holders l hl := by
    rcases List.mem_append.mp hl with hl | hl
    · obtain ⟨hholder, hnew, hthere⟩ := h.holders l hl
      exact ⟨hholder, hnew, hthere.later h'.reaches⟩
    · obtain ⟨hholder, hnew, hthere⟩ := h'.holders l hl
      exact ⟨hholder, fun hold => hnew (hold.later h.reaches), hthere⟩
  distinct := by
    show ((t.lookups ++ u.lookups).map (·.holder)).Nodup
    rw [List.map_append, List.nodup_append]
    refine ⟨h.distinct, h'.distinct, fun a ha b hb hab => ?_⟩
    obtain ⟨l, hl, rfl⟩ := List.mem_map.mp ha
    obtain ⟨l', hl', rfl⟩ := List.mem_map.mp hb
    exact (h'.holders l' hl').2.1 (hab ▸ (h.holders l hl).2.2)
  found := List.forall_mem_append.mpr ⟨h.found, h'.found⟩
  values := List.forall_mem_append.mpr
    ⟨fun x hx => (h.values x hx).later h'.reaches, h'.values⟩

theorem Leaves.under (h : Leaves s s' t) (kept : Bool) : Leaves s s' (t.under kept) where
  reaches := h.reaches
  genuine := h.genuine
  lines := by
    rw [h.lines]
    unfold Trace.under
    rw [List.map_map]
    rfl
  holders l hl := by
    obtain ⟨l', hl', rfl⟩ := Trace.mem_under hl
    exact h.holders l' hl'
  distinct := by
    unfold Trace.under
    rw [List.map_map]
    exact h.distinct
  found l hl := by
    obtain ⟨l', hl', rfl⟩ := Trace.mem_under hl
    exact h.found l' hl'
  values := h.values

/-! ## What content mentions -/

/-- How content is read in the end: with the markers as they are then, for a name that no value
mentions. -/
structure Reading (s : Session) (values : List Text) (m : Markers) (name : Text) : Prop where
  ends : s.Ends m
  holder : IsHolder name
  values : ∀ x ∈ values, m.Mentions name x 0

variable {m : Markers} {name : Text} {values more : List Text}

theorem Reading.earlier (h : Reading s' values m name) (hreaches : Reaches s s')
    (hmore : more ⊆ values) : Reading s more m name :=
  ⟨h.ends.earlier hreaches, h.holder, fun x hx => h.values x (hmore hx)⟩

/-- The content mentions an id as often as elements with it are shown. -/
def Weighs (s : Session) (content : Text) (t : Trace) : Prop :=
  ∀ m name, Reading s t.values m name →
    m.Tally name (Marker.markersIn content) (t.mentions name)

/-- The expression mentions an id as often as elements with it are shown. -/
def Says (s : Session) (expr : Text) (t : Trace) : Prop :=
  ∀ m name, Reading s t.values m name → m.Mentions name expr (t.mentions name)

theorem Weighs.later {content : Text} (h : Weighs s content t) (hreaches : Reaches s s') :
    Weighs s' content t := fun m name hreading =>
  h m name (hreading.earlier hreaches (List.Subset.refl _))

theorem Says.later {expr : Text} (h : Says s expr t) (hreaches : Reaches s s') :
    Says s' expr t := fun m name hreading =>
  h m name (hreading.earlier hreaches (List.Subset.refl _))

/-- The marker of a splice mentions what its expression mentions. -/
theorem weighs_splice {e : Nat} {expr marker : Text} (hsound : s.Sound)
    (hok : (splice e expr).runOn s = (.ok marker, s')) (h : Says s expr t) :
    ∃ k, marker = Marker.text k ∧ Weighs s' marker t := by
  have hrun : Run s s' := run_ok hok
  obtain ⟨k, rfl, hsplices⟩ := splices_of_splice hsound hok
  refine ⟨k, rfl, fun m name hreading => ?_⟩
  exact hsplices.tally (hrun.reaches.sound hsound) hreading.ends
    (h.later hrun.reaches m name hreading)

theorem isNameByte_of_part {t : Text} (h : Text.IsPlainName t) :
    ∀ b ∈ t, Text.isNameByte b = true := fun b hb => by
  unfold Text.isNameByte
  rw [h.part b hb, Bool.true_or]

theorem ne_nil_of_isPlainName {t : Text} (h : Text.IsPlainName t) : t ≠ [] := by
  obtain ⟨b, rest, rfl, -⟩ := h.1
  exact List.cons_ne_nil b rest

theorem spells_of_isPlainName {t : Text} (h : Text.IsPlainName t) : Code.Spells t [t] :=
  Code.spells_name (ne_nil_of_isPlainName h) (isNameByte_of_part h)

theorem dash_notMem_of_isPlainName {t : Text} (h : Text.IsPlainName t) : '-'.toUInt8 ∉ t :=
  fun hdash => absurd (h.part _ hdash) (by decide)

/-- A lookup that is shown. -/
def Trace.one (l : Lookup) : Trace := ⟨[l], []⟩

theorem Trace.mentions_one {l : Lookup} (hshown : l.shown = true) (name : Text) :
    (one l).mentions name = [l.holder].count name := by
  simp [one, mentions, List.count, hshown]

/-- An id is mentioned where its name stands. -/
theorem says_holder {l : Lookup} (hshown : l.shown = true) (hholder : IsHolder l.holder) :
    Says s l.holder (.one l) := fun m name _ => by
  rw [Trace.mentions_one hshown]
  have hplain := isPlainName_holder hholder
  exact Markers.mentions_of_noDash (dash_notMem_of_isPlainName hplain) (spells_of_isPlainName hplain)

/-- The call that renders a widget is given the id and mentions it nowhere else. -/
theorem says_render {l : Lookup} (hshown : l.shown = true) (hholder : IsHolder l.holder)
    (child : Text) : Says s
      (Text.sanitize (child ++ "Stamper") ++ ".Render(" ++ l.holder ++ ").String()") (.one l) := by
  intro m name hreading
  have hplain := isPlainName_holder hholder
  have hstamper := Text.sanitize_isPlainName (child ++ "Stamper")
  have hother : Text.sanitize (child ++ "Stamper") ≠ name := by
    obtain ⟨front, b, hname, hb⟩ := sanitize_stamper child
    rw [hname]
    exact hreading.holder.ne hb
  have hshape : Text.sanitize (child ++ "Stamper") ++ ".Render(" ++ l.holder ++ ").String()" =
      Text.sanitize (child ++ "Stamper") ++ '.'.toUInt8 :: ("Render" ++ '('.toUInt8 ::
        (l.holder ++ ')'.toUInt8 :: ([] ++ '.'.toUInt8 :: ("String" ++ '('.toUInt8 ::
          ([] ++ ')'.toUInt8 :: []))))) := by
    simp only [List.append_assoc]
    rfl
  have hspelled (w : Text) (hw : Text.IsPlainName w) := spells_of_isPlainName hw
  rw [Trace.mentions_one hshown, hshape]
  have hspells := (hspelled _ hstamper).sign (b := '.'.toUInt8) (by decide) (by decide)
    ((hspelled "Render" ⟨⟨_, _, rfl, by decide, forall_of_all (by decide)⟩, by decide⟩).sign
      (b := '('.toUInt8) (by decide) (by decide) ((hspelled _ hplain).sign
        (b := ')'.toUInt8) (by decide) (by decide) (Code.spells_nil.sign
          (b := '.'.toUInt8) (by decide) (by decide) ((hspelled "String"
            ⟨⟨_, _, rfl, by decide, forall_of_all (by decide)⟩, by decide⟩).sign
              (b := '('.toUInt8) (by decide) (by decide) (Code.spells_nil.sign
                (b := ')'.toUInt8) (by decide) (by decide) Code.spells_nil)))))
  have hdash : '-'.toUInt8 ∉ Text.sanitize (child ++ "Stamper") ++ '.'.toUInt8 :: ("Render" ++
      '('.toUInt8 :: (l.holder ++ ')'.toUInt8 :: ([] ++ '.'.toUInt8 :: ("String" ++ '('.toUInt8 ::
        ([] ++ ')'.toUInt8 :: [])) : Text)) : Text) := by
    simp only [List.mem_append, List.mem_cons, not_or]
    refine ⟨dash_notMem_of_isPlainName hstamper, by decide, by decide, by decide,
      dash_notMem_of_isPlainName hplain, by decide⟩
  have hmentions : m.Mentions name _ _ := Markers.mentions_of_noDash hdash hspells
  have hrender : Text.ofString "Render" ≠ name := hreading.holder.ne_of_head (by decide)
  have hstring : Text.ofString "String" ≠ name := hreading.holder.ne_of_head (by decide)
  simpa [List.count_cons, hother, hrender, hstring] using hmentions

/-! ## Looking an element up -/

instance (precedence : Precedence) (type : Option TypeId) (name : Text) :
    Keeps Honest (liftM (Draft.register precedence type name) : Work Session FieldId) :=
  ⟨fun hok => honest_of_reaches (hasName_register hok).1
    ((Keeps.keeps hok : Confined false false _ _).splices rfl)⟩

instance (f : FieldId) : Keeps Honest (liftM (Draft.use f) : Work Session Text) :=
  ⟨fun hok => honest_of_reaches (reaches_use hok).1
    ((Keeps.keeps hok : Confined false false _ _).splices rfl)⟩

instance (f : FieldId) (expr : Text) :
    Keeps Honest (liftM (Draft.setInitializer f expr) : Work Session Unit) :=
  ⟨fun hok => honest_of_reaches (reaches_setInitializer hok)
    ((Keeps.keeps hok : Confined false false _ _).splices rfl)⟩

theorem Leaves.refl (s : Session) : Leaves s s {} where
  reaches := Reaches.refl s
  genuine := id
  lines := (Sections.filled_nil _).symm
  holders := nofun
  distinct := .nil
  found := nofun
  values := nofun

/-- Work that looks nothing up leaves nothing behind. -/
theorem Leaves.next {w : Work Session α} [hhonest : Keeps Honest w]
    [hconfined : Keeps (Confined true false) w] (h : Leaves s s' t) (hsound : s.Sound) {a : α}
    (hok : w.runOn s' = (.ok a, s'')) : Leaves s s'' t := by
  have hlater : Leaves s' s'' {} := leaves_silent (hhonest.keeps hok) (h.reaches.sound hsound)
    ((hconfined.keeps hok).sections rfl) (List.forall_mem_nil _)
  have hboth := h.append hlater
  have hsame : t.append {} = t := by
    cases t
    simp [Trace.append]
  rwa [hsame] at hboth

/-- The element is found by the name that holds its id. -/
theorem elementById_ok {type : Option TypeId} {holder expr : Text}
    (h : (elementById type holder).runOn s = (.ok expr, s')) : elementCall holder <:+: expr := by
  have hfound : ∀ function : Text,
      elementCall holder <:+: function ++ "." ++ "ElementByID" ++ "(" ++ holder ++ ")" := by
    intro function
    refine ⟨function, [], ?_⟩
    unfold elementCall
    have hname : Text.ofString ".ElementByID(" = "." ++ ("ElementByID" ++ "(") := rfl
    simp only [hname, List.append_assoc, List.append_nil]
  unfold elementById at h
  obtain ⟨function, s₁, hfunction, h⟩ := Work.bind_ok h
  obtain ⟨package, rfl⟩ : ∃ package : Text, function = package ++ "." ++ "ElementByID" := by
    cases hfunction
    exact ⟨_, rfl⟩
  dsimp only at h
  split at h
  · cases h
    exact hfound package
  · obtain ⟨_, _, hget, h⟩ := Work.bind_ok h
    cases hget
    split at h
    · cases h
      exact hfound package
    · obtain ⟨adapter, s₂, hqualify, h⟩ := Work.bind_ok h
      cases h
      refine (hfound package).trans ⟨adapter ++ "(", ")", ?_⟩
      simp only [List.append_assoc]

/-- Between the sessions a line was added that looks an element up. -/
def Finds (s s' : Session) (holder line : Text) : Prop :=
  ∃ s₁, Leaves s s₁ {} ∧ Leaves { s₁ with sections := s₁.sections.add line } s' {} ∧
    elementCall holder <:+: line

/-- An element gets an id, and a line looks it up. -/
theorem leaves_one {s₁ s₂ : Session} {holder line : Text} (hsound : s.Sound)
    (hbefore : Leaves s s₁ {}) (hdeclare : declareId.runOn s₁ = (.ok holder, s₂))
    (hfinds : Finds s₂ s' holder line) (e : Nat) : Leaves s s' (.one ⟨e, true, holder, line⟩) := by
  obtain ⟨s₃, hbetween, hafter, hfound⟩ := hfinds
  obtain ⟨hreaches, hholder, hnew, hthere⟩ := declareId_ok hdeclare
  have hsound₁ := hbefore.reaches.sound hsound
  have hconfined : Confined false false s₁ s₂ := Keeps.keeps hdeclare
  have hdeclared := honest_of_reaches hreaches (hconfined.splices rfl) hsound₁
  have hadd : Reaches s₃ { s₃ with sections := s₃.sections.add line } := (Step.sections _).reaches
  have hsound₃ := (hbefore.reaches.trans (hreaches.trans hbetween.reaches)).sound hsound
  have hlast := hadd.trans hafter.reaches
  refine ⟨hbefore.reaches.trans (hreaches.trans (hbetween.reaches.trans hlast)), fun hgenuine => ?_,
    ?_, ?_, List.nodup_singleton _, ?_, nofun⟩
  · have hwritten := hbetween.genuine (hdeclared.2 (hbefore.genuine hgenuine))
    exact hafter.genuine (hwritten.reaches hsound₃ hadd rfl)
  · have hopen : s₃.sections.unfinished = s.sections.unfinished := by
      rw [hbetween.lines, hconfined.sections rfl, hbefore.lines]
      simp
    rw [hafter.lines]
    show Sections.filled [] (s₃.sections.add line).unfinished = _
    rw [Sections.filled_nil, Sections.unfinished_add, hopen]
    rfl
  · intro l hl
    obtain rfl := List.mem_singleton.mp hl
    exact ⟨hholder, fun hold => hnew (hold.later hbefore.reaches),
      hthere.later (hbetween.reaches.trans hlast)⟩
  · intro l hl
    obtain rfl := List.mem_singleton.mp hl
    exact hfound

end Content

end ViewBinder
