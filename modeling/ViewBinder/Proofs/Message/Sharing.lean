-- Which method a message gets. The messages of a unit are told apart by their identities, and a
-- message gets the method of the first one that had its identity. That one renders the same as the
-- message when both are clear: when their identities can be read in one way only.
import ViewBinder.Message.Basic
import ViewBinder.Proofs.Text.Quoted

namespace ViewBinder

/-! ## What a message renders -/

namespace MessagePart

/-- The literal text in front, and each placeholder with the literal text behind it. -/
def outline : List MessagePart → Text × List (Text × Text)
  | [] => ([], [])
  | .literal t :: rest => (t ++ (outline rest).1, (outline rest).2)
  | .placeholder name _ _ :: rest => ([], (name, (outline rest).1) :: (outline rest).2)

/-- How translators see a placeholder. -/
def hole (name : Text) : Text := "\x7b" ++ name ++ "\x7d"

/-- A literal text with placeholders and literal texts behind it, as translators see them. -/
def outlineText (o : Text × List (Text × Text)) : Text :=
  o.1 ++ o.2.flatMap fun p => hole p.1 ++ p.2

theorem text_outline (parts : List MessagePart) :
    parts.flatMap text = outlineText (outline parts) := by
  unfold outlineText
  induction parts with
  | nil => rfl
  | cons p rest ih =>
    rw [List.flatMap_cons, ih]
    cases p with
    | literal t => simp [outline, text]
    | placeholder name arg sample => simp [outline, text, hole]

theorem names_outline (parts : List MessagePart) :
    parts.filterMap name? = (outline parts).2.map (·.1) := by
  induction parts with
  | nil => rfl
  | cons p rest ih =>
    cases p <;> simp [List.filterMap_cons, outline, name?, ih]

end MessagePart

namespace Message

open MessagePart (outline outlineText hole)

/-- Two messages render the same: the same literal texts and placeholders in the same order, with
the same use as markup. -/
structure Alike (a b : Message) : Prop where
  outline : outline a.parts = outline b.parts
  html : a.html = b.html

theorem Alike.names {a b : Message} (h : a.Alike b) : a.names = b.names := by
  unfold Message.names
  rw [MessagePart.names_outline, MessagePart.names_outline, h.outline]

/-- A message has a parameter for every argument. -/
theorem length_args (m : Message) : m.args.length = m.names.length := by
  unfold args names
  induction m.parts with
  | nil => rfl
  | cons p rest ih =>
    cases p <;> simp [List.filterMap_cons, MessagePart.arg?, MessagePart.name?, ih]

/-! ## Clear messages -/

/-- No placeholder can be read in a literal text. -/
def NoHole (t : Text) : Prop := ∀ name : Text, Text.isIdentifier name = true → ¬ hole name <:+: t

/-- The identity of the message can be read in one way only: no separator is part of the meaning or
of the key, and no literal text reads like a placeholder. -/
structure Clear (m : Message) : Prop where
  meaning : 0 ∉ m.meaning
  key : 0 ∉ m.key
  front : NoHole (outline m.parts).1
  behind : ∀ p ∈ (outline m.parts).2, NoHole p.2

theorem append_cons_inj {a : UInt8} {x x' y y' : Text} (hx : a ∉ x) (hx' : a ∉ x')
    (h : x ++ a :: y = x' ++ a :: y') : x = x' ∧ y = y' := by
  have hother : ∀ {x : Text}, a ∉ x → ∀ b ∈ x, (b != a) = true := fun hx b hb =>
    bne_iff_ne.mpr fun hsame => hx (hsame ▸ hb)
  obtain ⟨hsame, hrest⟩ := Text.append_inj_of_front (p := (· != a)) (hother hx) (hother hx')
    (by simp) (by simp) h
  exact ⟨hsame, (List.cons.inj hrest).2⟩

/-- The braces around a placeholder are no part of its name. -/
theorem noBrace_of_isIdentifier {name : Text} (h : Text.isIdentifier name = true) :
    '\x7b'.toUInt8 ∉ name ∧ '\x7d'.toUInt8 ∉ name := by
  have hletters : ∀ {a : UInt8}, a < 0x80 → a ∈ name →
      (Text.isLetter a.toNat || a.toNat == 95 || Text.isDigit a.toNat) = true := by
    intro a ha hmem
    obtain ⟨l, r, rfl⟩ := List.append_of_mem hmem
    have hrune : (⟨a.toNat, [a]⟩ : Text.Rune) ∈ Text.runes (l ++ a :: r) := by
      rw [Text.runes_append l ha, Text.runes_cons, Text.headRune_ascii ha]
      exact List.mem_append_right _ List.mem_cons_self
    unfold Text.isIdentifier at h
    cases hrunes : Text.runes (l ++ a :: r) with
    | nil =>
      rw [hrunes] at hrune
      cases hrune
    | cons first rest =>
      rw [hrunes] at h hrune
      simp only [Bool.and_eq_true, Text.isIdentifierRest, List.all_eq_true] at h
      obtain ⟨⟨hfirst, hrest⟩, -⟩ := h
      rcases List.mem_cons.mp hrune with rfl | hrune
      · rw [Bool.or_eq_true]
        exact .inl hfirst
      · exact hrest _ hrune
  constructor <;> intro hmem <;> exact absurd (hletters (by decide) hmem) (by decide +kernel)

theorem hole_append (name rest : Text) :
    hole name ++ rest = '\x7b'.toUInt8 :: (name ++ '\x7d'.toUInt8 :: rest) := by
  unfold hole
  simp only [List.append_assoc]
  rfl

/-- A text in which no placeholder can be read does not go into the placeholder behind it. -/
theorem NoHole.stops {l z name name' r r' : Text} (hclear : NoHole (l ++ z))
    (hname : Text.isIdentifier name = true) (h : hole name ++ r = z ++ (hole name' ++ r')) :
    z = [] := by
  have hnot : ∀ more, ¬ z = hole name ++ more := fun more hz =>
    hclear name hname ⟨l, more, by rw [hz, List.append_assoc]⟩
  have hbrace : ∀ {x y : Text}, hole name = x ++ '\x7b'.toUInt8 :: y → x = [] := by
    intro x y heq
    have hnobrace := (noBrace_of_isIdentifier hname).1
    have hshape := hole_append name []
    rw [List.append_nil, heq] at hshape
    cases x with
    | nil => rfl
    | cons c x =>
      obtain ⟨-, hrest⟩ := List.cons.inj hshape
      have hmem : '\x7b'.toUInt8 ∈ name ++ ['\x7d'.toUInt8] := by
        rw [← hrest]
        exact List.mem_append_right _ List.mem_cons_self
      exact ((List.mem_append.mp hmem).elim hnobrace (by decide)).elim
  rcases List.append_eq_append_iff.mp h with ⟨more, hz, -⟩ | ⟨more, hz, hrest⟩
  · exact absurd hz (hnot more)
  · cases more with
    | nil =>
      rw [List.append_nil] at hz
      exact absurd (hz.symm.trans (List.append_nil _).symm) (hnot [])
    | cons c more =>
      rw [hole_append] at hrest
      obtain ⟨rfl, -⟩ := List.cons.inj hrest
      exact hbrace hz

/-- The first placeholder behind such texts is the same. -/
theorem hole_unique {l l' n n' r r' : Text} (hl : NoHole l) (hl' : NoHole l')
    (hn : Text.isIdentifier n = true) (hn' : Text.isIdentifier n' = true)
    (h : l ++ (hole n ++ r) = l' ++ (hole n' ++ r')) : l = l' ∧ n = n' ∧ r = r' := by
  have hsame : l = l' := by
    rcases List.append_eq_append_iff.mp h with ⟨z, rfl, hz⟩ | ⟨z, rfl, hz⟩
    · rw [hl'.stops hn hz, List.append_nil]
    · rw [hl.stops hn' hz, List.append_nil]
  subst hsame
  have hholes := List.append_cancel_left h
  rw [hole_append, hole_append] at hholes
  exact ⟨rfl, append_cons_inj (noBrace_of_isIdentifier hn).2 (noBrace_of_isIdentifier hn').2
    (List.cons.inj hholes).2⟩

/-- What translators see of a clear message tells its outline. -/
theorem outlineText_inj {o o' : Text × List (Text × Text)}
    (hfront : NoHole o.1) (hfront' : NoHole o'.1)
    (hbehind : ∀ p ∈ o.2, Text.isIdentifier p.1 = true ∧ NoHole p.2)
    (hbehind' : ∀ p ∈ o'.2, Text.isIdentifier p.1 = true ∧ NoHole p.2)
    (h : outlineText o = outlineText o') : o = o' := by
  obtain ⟨l, ps⟩ := o
  obtain ⟨l', ps'⟩ := o'
  unfold outlineText at h
  induction ps generalizing l l' ps' with
  | nil =>
    cases ps' with
    | nil => simpa using h
    | cons p' ps' =>
      simp only [List.flatMap_nil, List.append_nil, List.flatMap_cons, List.append_assoc] at h
      exact absurd ⟨l', _, by rw [List.append_assoc]; exact h.symm⟩
        (hfront p'.1 (hbehind' p' List.mem_cons_self).1)
  | cons p ps ih =>
    obtain ⟨⟨hp, hpbehind⟩, hps⟩ := List.forall_mem_cons.mp hbehind
    cases ps' with
    | nil =>
      simp only [List.flatMap_nil, List.append_nil, List.flatMap_cons, List.append_assoc] at h
      exact absurd ⟨l, _, by rw [List.append_assoc]; exact h⟩ (hfront' p.1 hp)
    | cons p' ps' =>
      obtain ⟨⟨hp', hpbehind'⟩, hps'⟩ := List.forall_mem_cons.mp hbehind'
      simp only [List.flatMap_cons, List.append_assoc] at h
      obtain ⟨rfl, hname, hrest⟩ := hole_unique hfront hfront' hp hp' h
      have htail := ih p.2 hpbehind hps p'.2 ps' hpbehind' hps' hrest
      obtain ⟨hliteral, rfl⟩ := Prod.mk.inj htail
      rw [Prod.ext hname hliteral]

theorem noHole_of_noBrace {t : Text} (h : '\x7b'.toUInt8 ∉ t) : NoHole t := by
  rintro name - ⟨l, r, rfl⟩
  refine h (List.mem_append_left _ (List.mem_append_right _ ?_))
  unfold hole
  exact List.mem_append_left _ (List.mem_append_left _ (by decide))

/-! ## Identities -/

/-- The flag at the end of an identity. -/
def flag (html : Bool) : Text := Text.ofString (if html then "true" else "false")

theorem identity_keyed {m : Message} (h : m.key ≠ []) : m.identity = m.key := by
  unfold identity
  simp [h]

theorem identity_keyless {m : Message} (h : m.key = []) :
    m.identity = (m.text ++ 0 :: m.meaning) ++ 0 :: flag m.html := by
  unfold identity flag
  simp [h]

theorem Clear.key_eq {a b : Message} (ha : a.Clear) (hb : b.Clear)
    (h : a.identity = b.identity) : a.key = b.key := by
  have hmixed : ∀ {a b : Message}, a.Clear → a.key ≠ [] → b.key = [] →
      a.identity ≠ b.identity := by
    intro a b ha hkeyed hkeyless heq
    rw [identity_keyed hkeyed, identity_keyless hkeyless] at heq
    refine ha.key ?_
    rw [heq]
    exact List.mem_append_right _ List.mem_cons_self
  by_cases hkey : a.key = []
  · by_cases hkey' : b.key = []
    · rw [hkey, hkey']
    · exact absurd h.symm (hmixed hb hkey' hkey)
  · by_cases hkey' : b.key = []
    · exact absurd h (hmixed ha hkey hkey')
    · rwa [identity_keyed hkey, identity_keyed hkey'] at h

/-- Clear messages without keys render the same when they have one identity. -/
theorem Clear.alike {a b : Message} (ha : a.Clear) (hb : b.Clear)
    (hnames : ∀ name ∈ a.names, Text.isIdentifier name = true)
    (hnames' : ∀ name ∈ b.names, Text.isIdentifier name = true) (hkeyless : b.key = [])
    (h : a.identity = b.identity) : a.Alike b := by
  have hnoflag : ∀ html : Bool, 0 ∉ flag html := by decide
  have hkey := (ha.key_eq hb h).trans hkeyless
  rw [identity_keyless hkey, identity_keyless hkeyless] at h
  obtain ⟨hfront, hflag⟩ := Text.append_inj_of_notMem (hnoflag _) (hnoflag _) h
  obtain ⟨htext, -⟩ := Text.append_inj_of_notMem ha.meaning hb.meaning hfront
  have hslots : ∀ {m : Message}, m.Clear → (∀ name ∈ m.names, Text.isIdentifier name = true) →
      ∀ p ∈ (outline m.parts).2, Text.isIdentifier p.1 = true ∧ NoHole p.2 := by
    intro m hm hnames p hp
    refine ⟨hnames p.1 ?_, hm.behind p hp⟩
    unfold names
    rw [MessagePart.names_outline]
    exact List.mem_map_of_mem hp
  refine ⟨?_, ?_⟩
  · unfold text at htext
    rw [MessagePart.text_outline, MessagePart.text_outline] at htext
    exact outlineText_inj ha.front hb.front (hslots ha hnames) (hslots hb hnames') htext
  · revert hflag
    generalize a.html = x
    generalize b.html = y
    revert x y
    decide

end Message

/-! ## Declaring messages -/

namespace Messages

open Message (Alike Clear)

/-- The messages after one more was declared; one that is refused changes nothing. -/
def declareNext (ms : Messages) (m : Message) : Messages :=
  match ms.declare m with
  | .ok (_, ms') => ms'
  | .error _ => ms

/-- The messages after some were declared in turn. -/
def declareAll (ms : Messages) (sequence : List Message) : Messages :=
  sequence.foldl declareNext ms

theorem checkNames_ok {m : Message} {seen names : List Text}
    (h : m.checkNames seen names = .ok ()) : ∀ name ∈ names, Text.isIdentifier name = true := by
  induction names generalizing seen with
  | nil => exact fun _ hname => absurd hname List.not_mem_nil
  | cons first rest ih =>
    unfold Message.checkNames at h
    split at h
    · cases h
    · rename_i hfirst
      split at h
      · cases h
      · exact List.forall_mem_cons.mpr ⟨by simpa using hfirst, ih h⟩

/-- A message that is accepted shares the method of one with its identity, or gets a new one. -/
theorem declare_ok {ms ms' : Messages} {m : Message} {i : Nat} (h : ms.declare m = .ok (i, ms')) :
    (∀ name ∈ m.names, Text.isIdentifier name = true) ∧
      ((∃ old, ms.declared[i]? = some old ∧ old.identity = m.identity ∧ ms' = ms) ∨
        i = ms.declared.length ∧ ms' = { ms with declared := ms.declared ++ [m] }) := by
  unfold declare at h
  cases hcheck : m.checkNames [] m.names with
  | error p =>
    rw [hcheck] at h
    cases h
  | ok u =>
    refine ⟨checkNames_ok hcheck, ?_⟩
    rw [hcheck] at h
    simp only [bind, Except.bind] at h
    split at h
    · rename_i k hfound
      obtain ⟨hlt, hidentity, -⟩ := List.findIdx?_eq_some_iff_getElem.mp hfound
      rw [List.getElem?_eq_getElem hlt] at h
      simp only at h
      split at h
      · cases h
      · cases h
        exact .inl ⟨_, List.getElem?_eq_getElem hlt, by simpa using hidentity, rfl⟩
    · cases h
      exact .inr ⟨rfl, rfl⟩

theorem declared_declareNext (ms : Messages) (m : Message) :
    (ms.declareNext m).declared = ms.declared ∨
      (ms.declareNext m).declared = ms.declared ++ [m] ∧
        ∀ name ∈ m.names, Text.isIdentifier name = true := by
  unfold declareNext
  split
  · rename_i i ms' hok
    obtain ⟨hnames, ⟨_, _, _, rfl⟩ | ⟨_, rfl⟩⟩ := declare_ok hok
    · exact .inl rfl
    · exact .inr ⟨rfl, hnames⟩
  · exact .inl rfl

/-- Messages keep their methods while others are declared. -/
theorem declared_prefix (ms : Messages) (sequence : List Message) :
    ms.declared <+: (ms.declareAll sequence).declared := by
  induction sequence generalizing ms with
  | nil => exact List.prefix_refl _
  | cons m rest ih =>
    refine List.IsPrefix.trans ?_ (ih (ms.declareNext m))
    rcases declared_declareNext ms m with hsame | ⟨hnew, -⟩
    · exact ⟨[], (List.append_nil _).trans hsame.symm⟩
    · exact ⟨[m], hnew.symm⟩

/-- Methods belong to messages of the sequence that were accepted. -/
theorem mem_declareAll {ms : Messages} {sequence : List Message} {x : Message}
    (h : x ∈ (ms.declareAll sequence).declared) :
    x ∈ ms.declared ∨ x ∈ sequence ∧ ∀ name ∈ x.names, Text.isIdentifier name = true := by
  induction sequence generalizing ms with
  | nil => exact .inl h
  | cons m rest ih =>
    have hnext : x ∈ ((ms.declareNext m).declareAll rest).declared := h
    rcases ih hnext with hold | ⟨hmem, hnames⟩
    · rcases declared_declareNext ms m with hsame | ⟨hnew, hnames⟩
      · exact .inl (hsame ▸ hold)
      · rw [hnew] at hold
        rcases List.mem_append.mp hold with hold | hlast
        · exact .inl hold
        · rw [List.mem_singleton.mp hlast]
          exact .inr ⟨List.mem_cons_self, hnames⟩
    · exact .inr ⟨List.mem_cons_of_mem _ hmem, hnames⟩

/-- Method `i` is the one of a message, as the program declares it and as the catalog knows it. -/
structure Declares (ms : Messages) (i : Nat) (m : Message) : Prop where
  source : ms.declarations[i + 1]? = some (ms.renderMethod i m)
  method : ∀ text, (ms.methods text)[i]? = some (ms.method text i m)

theorem declares_of_declared {ms : Messages} {i : Nat} {m : Message}
    (h : ms.declared[i]? = some m) : ms.Declares i m := by
  have hzip : ms.declared.zipIdx[i]? = some (m, i) := by
    rw [List.getElem?_zipIdx, h]
    simp
  refine ⟨?_, fun text => ?_⟩
  · have hfull : ms.declared.isEmpty = false := by
      rw [List.isEmpty_eq_false_iff]
      rintro hnil
      rw [hnil] at h
      cases h
    unfold declarations
    rw [hfull, if_neg Bool.false_ne_true, List.getElem?_cons_succ, List.getElem?_map, hzip]
    rfl
  · unfold methods
    rw [List.getElem?_map, hzip]
    rfl

/-- Whatever is declared before and after it, a message gets the method of a message with its
identity. If both are clear, they have one key; and if they have none, the method renders the
message, with a parameter for each of its arguments. -/
theorem shared_method_renders {ms ms' : Messages} {before after : List Message} {m : Message}
    {i : Nat} (hempty : ms.declared = []) (h : (ms.declareAll before).declare m = .ok (i, ms')) :
    ∃ first ∈ before ++ [m], first.identity = m.identity ∧
      (ms'.declareAll after).Declares i first ∧
      (first.Alike m → ∀ text,
        ((ms'.declareAll after).method text i first).params.length = m.args.length) ∧
      (first.Clear → m.Clear → first.key = m.key ∧ (m.key = [] → first.Alike m)) := by
  obtain ⟨hnames, hmethod⟩ := declare_ok h
  obtain ⟨first, hmem, hidentity, hfirstnames, hdeclared⟩ : ∃ first ∈ before ++ [m],
      first.identity = m.identity ∧ (∀ name ∈ first.names, Text.isIdentifier name = true) ∧
        ms'.declared[i]? = some first := by
    rcases hmethod with ⟨old, hold, hidentity, rfl⟩ | ⟨rfl, rfl⟩
    · have holdmem := (mem_declareAll (List.mem_of_getElem? hold)).resolve_left
        (by simp [hempty])
      exact ⟨old, List.mem_append_left _ holdmem.1, hidentity, holdmem.2, hold⟩
    · exact ⟨m, List.mem_append_right _ List.mem_cons_self, rfl, hnames, by simp⟩
  obtain ⟨rest, hrest⟩ := declared_prefix ms' after
  refine ⟨first, hmem, hidentity, declares_of_declared ?_, fun halike text => ?_,
    fun hfirst hm => ⟨hfirst.key_eq hm hidentity, fun hkeyless =>
      hfirst.alike hm hfirstnames hnames hkeyless hidentity⟩⟩
  · rw [← hrest, List.getElem?_append_left (List.getElem?_eq_some_iff.mp hdeclared).1, hdeclared]
  · rw [m.length_args, ← halike.names]
    simp [method]

/-- A greeting with some description for translators. -/
def greeting (description : Text) : Message :=
  { description, parts := [.literal "Hello, ", .placeholder "user" "name" "Ada", .literal "!"] }

theorem clear_greeting (description : Text) : (greeting description).Clear where
  meaning := List.not_mem_nil
  key := List.not_mem_nil
  front := Message.noHole_of_noBrace (by
    show '\x7b'.toUInt8 ∉ (MessagePart.outline (greeting []).parts).1
    decide)
  behind := fun p hp => by
    have hbehind : ∀ p ∈ (MessagePart.outline (greeting []).parts).2,
        '\x7b'.toUInt8 ∉ p.2 := by decide
    exact Message.noHole_of_noBrace (hbehind p hp)

/-- A greeting that is declared again gets the method of the first one. -/
theorem greeting_shares_its_method :
    (declareAll {} [greeting "greets the user"]).declare (greeting []) =
        .ok (0, { declared := [greeting "greets the user"] }) ∧
      ∃ first ∈ [greeting "greets the user", greeting []],
        Declares { declared := [greeting "greets the user"] } 0 first ∧
          first.Alike (greeting []) := by
  have h : (declareAll {} [greeting "greets the user"]).declare (greeting []) =
      .ok (0, { declared := [greeting "greets the user"] }) := rfl
  obtain ⟨first, hmem, -, hdeclares, -, hclear⟩ :=
    @shared_method_renders {} _ _ [] _ _ rfl h
  have hfirst : first.Clear := by
    rcases List.mem_cons.mp hmem with rfl | hlast
    · exact clear_greeting _
    · rw [List.mem_singleton.mp hlast]
      exact clear_greeting _
  exact ⟨h, first, hmem, hdeclares, (hclear hfirst (clear_greeting _)).2 rfl⟩

/-- A text with literal braces. -/
def braces : Message := { parts := [.literal "\x7ba\x7d"] }

/-- A text that is a placeholder. -/
def blank : Message := { parts := [.placeholder "a" "x" []] }

/-- A text with a key. -/
def keyed (label : Text) : Message := { key := "k", parts := [.literal label] }

/-- Literal braces are taken for a placeholder, and one key is shared by texts that differ: the
method of the first message has no parameter for the argument, or says something else. -/
theorem messages_share_what_they_do_not_say :
    (declare {} braces = .ok (0, { declared := [braces] }) ∧
      declare { declared := [braces] } blank = .ok (0, { declared := [braces] }) ∧
      Declares { declared := [braces] } 0 braces ∧ ¬ braces.Alike blank ∧
      (methods { declared := [braces] } none).map (·.params.length) = [0] ∧
      blank.args.length = 1) ∧
    declare {} (keyed "Save") = .ok (0, { declared := [keyed "Save"] }) ∧
      declare { declared := [keyed "Save"] } (keyed "Delete") =
        .ok (0, { declared := [keyed "Save"] }) ∧
      Declares { declared := [keyed "Save"] } 0 (keyed "Save") ∧
      ¬ Alike (keyed "Save") (keyed "Delete") := by
  refine ⟨⟨rfl, rfl, declares_of_declared rfl, fun h => ?_, rfl, rfl⟩,
    rfl, rfl, declares_of_declared rfl, fun h => ?_⟩
  · exact absurd h.outline (by decide)
  · exact absurd h.outline (by decide)

end Messages

end ViewBinder
