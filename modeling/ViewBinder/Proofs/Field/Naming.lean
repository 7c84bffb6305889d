-- Names made up for elements. Such a name is what the tag becomes with the number of the name behind
-- it, and nothing stands between them. So two of them are the same exactly if the larger number ends in
-- the smaller one and the digits before it stand at the end of the tag that came first; tags that end
-- in no digit never share a name.
import ViewBinder.Proofs.Field.References
import ViewBinder.Proofs.Marker.Pieces
import ViewBinder.Proofs.Text.Exported

namespace ViewBinder

namespace Text

/-! ## What a tag becomes -/

/-- What a tag becomes in the names that are made up for it. -/
def stem (tag : Text) : Text := (exported tag).runes.flatMap fun r => sanitizeLater r.code

theorem ascii_of_isDigitByte {b : UInt8} (h : isDigitByte b = true) : b < 0x80 :=
  (bytes_of_letters b (.inr h)).1

theorem runes_append_digits (t : Text) {digits : Text} (h : digits.all isDigitByte = true) :
    runes (t ++ digits) = runes t ++ digits.map fun b => ⟨b.toNat, [b]⟩ := by
  cases digits with
  | nil => simp [runes]
  | cons b rest =>
    have hascii : ∀ c ∈ b :: rest, c < 0x80 := fun c hc =>
      ascii_of_isDigitByte (List.all_eq_true.mp h c hc)
    rw [runes_append t (hascii b List.mem_cons_self), runes_ascii _ hascii]

/-- A name that begins like a made-up one is no word of the generated language. -/
theorem isTaken_madeUp (t : Text) : isTaken ("f_" ++ t) = false := isTaken_append (by decide) t

/-- A made-up name is identified by what the tag becomes and the number. -/
theorem sanitize_madeUp (tag : Text) (n : Nat) :
    sanitize ("f_" ++ exported tag ++ ofNat n) = "f_" ++ (stem tag ++ ofNat n) := by
  have hdigits := (isDigitByte_ofNat n).2
  have hpart : ∀ b ∈ ofNat n, isNamePart b.toNat = true := fun b hb =>
    isNamePart_of_isDigitByte (List.all_eq_true.mp hdigits b hb)
  have hruns : runes ("f_" ++ exported tag ++ ofNat n) =
      ⟨102, ['f'.toUInt8]⟩ :: ⟨95, ['_'.toUInt8]⟩ :: (runes (exported tag) ++
        (ofNat n).map fun b => ⟨b.toNat, [b]⟩) := by
    rw [runes_append_digits _ hdigits]
    show runes ('f'.toUInt8 :: '_'.toUInt8 :: exported tag) ++ _ = _
    rw [runes_ascii_cons (by decide), runes_ascii_cons (by decide)]
    rfl
  have hname : sanitizeRunes (runes ("f_" ++ exported tag ++ ofNat n)) =
      "f_" ++ (stem tag ++ ofNat n) := by
    rw [hruns, sanitizeRunes, List.flatMap_cons, List.flatMap_append,
      flatMap_sanitizeLater _ hpart]
    rfl
  unfold sanitize
  simp only [hname, isTaken_madeUp]
  rfl

/-! ## Names that are the same -/

/-- The name made up for a tag under a number is the one made up for another tag under a larger
number: the larger number is the smaller one behind digits that end what the first tag becomes. -/
def Collides (tag : Text) (m : Nat) (later : Text) (n : Nat) : Prop :=
  ∃ digits, ofNat n = digits ++ ofNat m ∧ stem tag = stem later ++ digits

theorem digitsValue_le_append (front digits : Text) :
    digitsValue digits ≤ digitsValue (front ++ digits) := by
  have hmono : ∀ (t : Text) (k k' : Nat), k ≤ k' →
      t.foldl (fun n b => n * 10 + (b.toNat - 48)) k ≤
        t.foldl (fun n b => n * 10 + (b.toNat - 48)) k' := by
    intro t
    induction t with
    | nil => exact fun _ _ h => h
    | cons b t ih =>
      exact fun k k' h => ih _ _ (Nat.add_le_add_right (Nat.mul_le_mul_right 10 h) _)
  unfold digitsValue
  rw [List.foldl_append]
  exact hmono digits 0 _ (Nat.zero_le _)

/-- Two made-up names are the same exactly if their tags and numbers collide. -/
theorem sanitize_eq_iff {tag later : Text} {m n : Nat} (h : m < n) :
    sanitize ("f_" ++ exported tag ++ ofNat m) = sanitize ("f_" ++ exported later ++ ofNat n) ↔
      Collides tag m later n := by
  rw [sanitize_madeUp, sanitize_madeUp, List.append_right_inj]
  constructor
  · intro heq
    rcases List.append_eq_append_iff.mp heq with ⟨more, -, hm⟩ | ⟨digits, htag, hn⟩
    · -- the smaller number is not longer than the larger one
      have hle := digitsValue_le_append more (ofNat n)
      rw [← hm, digitsValue_ofNat, digitsValue_ofNat] at hle
      omega
    · exact ⟨digits, hn, htag⟩
  · rintro ⟨digits, hn, htag⟩
    rw [hn, htag, List.append_assoc]

/-! ## Tags that end in digits -/

/-- The last byte is a digit. -/
def endsInDigit (t : Text) : Bool := t.getLast?.any isDigitByte

theorem endsInDigit_append (t : Text) {u : Text} (h : u ≠ []) :
    endsInDigit (t ++ u) = endsInDigit u := by
  unfold endsInDigit
  rw [List.getLast?_append_of_ne_nil _ h]

theorem endsInDigit_dashes (d : Nat) : endsInDigit (List.replicate d '-'.toUInt8) = false := by
  cases d with
  | zero => rfl
  | succ d =>
    rw [List.replicate_succ', endsInDigit_append _ (List.cons_ne_nil _ _)]
    rfl

theorem endsInDigit_cons (b : UInt8) (rest : Text) :
    endsInDigit (b :: rest) = if rest = [] then isDigitByte b else endsInDigit rest := by
  split
  · rename_i hnil
    rw [hnil]
    rfl
  · rename_i hne
    exact endsInDigit_append [b] hne

theorem camelFrom_eq_nil_iff (d : Nat) (t : Text) : camelFrom d t = [] ↔ d = 0 ∧ t = [] := by
  induction t generalizing d with
  | nil => simp [camelFrom]
  | cons b rest ih =>
    rw [camelFrom]
    split
    · simp [ih]
    · split
      · simp
      · split <;> simp

/-- Camel case does not change whether a digit is at the end. -/
theorem endsInDigit_camelFrom (d : Nat) (t : Text) :
    endsInDigit (camelFrom d t) = endsInDigit t := by
  have hbytes : ∀ b : UInt8, isLowerByte b = true →
      isDigitByte (b - 32) = false ∧ isDigitByte b = false := by
    refine forall_byte ?_
    decide
  induction t generalizing d with
  | nil => exact endsInDigit_dashes d
  | cons b rest ih =>
    have hnil : camelFrom 0 rest = [] ↔ rest = [] := by simp [camelFrom_eq_nil_iff]
    rw [camelFrom, endsInDigit_cons b rest]
    split
    · rename_i hdash
      rw [ih, eq_of_beq hdash]
      split
      · rename_i hrest
        rw [hrest]
        rfl
      · rfl
    · split
      · rename_i hlower
        obtain ⟨hup, hlow⟩ := hbytes b (Bool.and_eq_true_iff.mp hlower).2
        rw [endsInDigit_cons, ih, hup, hlow]
        simp only [hnil]
      · split
        · rw [endsInDigit_cons, ih]
          simp only [hnil]
        · rw [endsInDigit_append _ (List.cons_ne_nil _ _), endsInDigit_cons, ih]
          simp only [hnil]

theorem camelFrom_head {d : Nat} {t : Text} (h : 0 < d ∨ ∃ b ∈ t.head?, b < 0x80) :
    ∃ b rest, camelFrom d t = b :: rest ∧ b < 0x80 := by
  have hlead : ∀ d, 0 < d → ∀ t : Text, ∃ b rest,
      List.replicate d '-'.toUInt8 ++ t = b :: rest ∧ b < 0x80 := by
    intro d hd t
    obtain ⟨k, rfl⟩ := Nat.exists_eq_succ_of_ne_zero (Nat.ne_of_gt hd)
    exact ⟨'-'.toUInt8, List.replicate k '-'.toUInt8 ++ t, by rw [List.replicate_succ]; rfl, by decide⟩
  induction t generalizing d with
  | nil =>
    obtain ⟨b, rest, heq, hb⟩ := hlead d (h.resolve_right (by simp)) []
    exact ⟨b, rest, by rw [camelFrom, ← heq, List.append_nil], hb⟩
  | cons b rest ih =>
    rw [camelFrom]
    split
    · exact ih (.inl (Nat.succ_pos d))
    · split
      · rename_i hlower
        obtain ⟨-, hletter⟩ := Bool.and_eq_true_iff.mp hlower
        obtain ⟨-, -, -, hcapital, -⟩ := bytes_of_letters b (.inl (by simp [isLetterByte, hletter]))
        obtain ⟨-, hupper⟩ := hcapital hletter
        exact ⟨b - 32, _, rfl, (bytes_of_letters _ (.inl (by simp [isLetterByte, hupper]))).1⟩
      · split
        · rename_i hdigit
          exact ⟨b, _, rfl, ascii_of_isDigitByte (Bool.and_eq_true_iff.mp hdigit).2⟩
        · by_cases hd : 0 < d
          · exact hlead d hd _
          · obtain rfl := Nat.eq_zero_of_not_pos hd
            obtain ⟨c, hc, hascii⟩ := h.resolve_left hd
            cases hc
            exact ⟨b, _, rfl, hascii⟩

/-- The accessor made from a name ends in a digit if the name does. -/
theorem endsInDigit_exported (t : Text) : endsInDigit (exported t) = endsInDigit t := by
  cases t with
  | nil => rfl
  | cons b rest =>
    by_cases hb : b < 0x80
    · obtain ⟨hlower, -, -, -, -, hdigit⟩ := bytes_of_exported b hb
      obtain ⟨c, more, hcamel, hc⟩ := camelFrom_head (d := 0) (t := lowerByte b :: rest)
        (.inr ⟨_, rfl, hlower⟩)
      obtain ⟨-, -, -, -, hdigit', -⟩ := bytes_of_exported c hc
      have hsame := endsInDigit_camelFrom 0 (lowerByte b :: rest)
      rw [hcamel] at hsame
      rw [exported_ascii hb, camelCase, hcamel, capitalize_ascii hc, endsInDigit_cons, hdigit',
        ← endsInDigit_cons, hsame, endsInDigit_cons, hdigit, ← endsInDigit_cons]
    · have hnone : isDigitByte b = false := by
        rw [← Bool.not_eq_true]
        exact fun h => hb (ascii_of_isDigitByte h)
      rw [exported_high hb, endsInDigit_cons b rest, hnone]
      cases rest with
      | nil => decide
      | cons c rest =>
        have hne : camelCase (c :: rest) ≠ [] := fun h => by
          cases ((camelFrom_eq_nil_iff 0 _).mp h).2
        rw [endsInDigit_append _ hne, if_neg (List.cons_ne_nil _ _)]
        exact endsInDigit_camelFrom 0 _

/-! ## The last character -/

theorem isDigitByte_high {b : UInt8} (hb : 0x80 ≤ b) : isDigitByte b = false := by
  rw [← Bool.not_eq_true]
  exact fun h => absurd (ascii_of_isDigitByte h) (UInt8.not_lt.mpr hb)

theorem sanitizeLater_high {code : Nat} (h : 0x80 ≤ code) : sanitizeLater code = ['_'.toUInt8] := by
  have hpart : isNamePart code = false := by
    simp only [isNamePart, isNameStart, isLetterCode, isDigitCode, Bool.or_eq_false_iff,
      Bool.and_eq_false_iff, decide_eq_false_iff_not, beq_eq_false_iff_ne]
    omega
  unfold sanitizeLater
  rw [hpart]
  rfl

/-- The last character decides whether a digit is at the end, before and after. -/
theorem endsInDigit_sanitizeLater (t : Text) :
    endsInDigit (t.runes.flatMap fun r => sanitizeLater r.code) = endsInDigit t := by
  have hplain : ∀ c : UInt8, c < 0x80 →
      endsInDigit (sanitizeLater c.toNat) = isDigitByte c := by
    refine forall_byte ?_
    decide
  rcases List.eq_nil_or_concat' (runes t) with hnil | ⟨front, r, hruns⟩
  · rw [hnil, ← ofRunes_runes t, hnil]
    rfl
  · have hmem : r ∈ runes t := by
      rw [hruns]
      exact List.mem_append_right front List.mem_cons_self
    obtain ⟨c, rest, hr⟩ := mem_runes hmem
    obtain ⟨more, hmore⟩ := headRune_bytes c rest
    have hlater : sanitizeLater r.code ≠ [] := by
      unfold sanitizeLater
      split <;> exact List.cons_ne_nil _ _
    have hbytes : r.bytes ≠ [] := by
      rw [hr, hmore]
      exact List.cons_ne_nil _ _
    have ht : t = ofRunes front ++ r.bytes := by
      rw [← ofRunes_runes t, hruns]
      simp [ofRunes]
    rw [hruns, List.flatMap_append, List.flatMap_singleton,
      endsInDigit_append _ hlater, ht, endsInDigit_append _ hbytes]
    by_cases hc : c < 0x80
    · rw [hr, headRune_ascii hc, hplain c hc]
      rfl
    · have hhigh : ∀ b ∈ r.bytes, 0x80 ≤ b := by
        rcases headRune_ascii_or_not c rest with hself | hhigh
        · rw [hr, hself]
          exact List.forall_mem_singleton.mpr (UInt8.not_lt.mp hc)
        · rwa [hr]
      rw [hr, sanitizeLater_high (code_of_high hc rest), ← hr]
      symm
      unfold endsInDigit
      rw [List.getLast?_eq_some_getLast hbytes]
      exact isDigitByte_high (hhigh _ (List.getLast_mem hbytes))

/-- What a tag becomes ends in a digit if the tag does. -/
theorem endsInDigit_stem (tag : Text) : endsInDigit (stem tag) = endsInDigit tag :=
  (endsInDigit_sanitizeLater _).trans (endsInDigit_exported tag)

/-- A tag that ends in no digit never has its name made up again. -/
theorem not_collides_of_endsInDigit {tag later : Text} {m n : Nat} (htag : endsInDigit tag = false)
    (h : m < n) : ¬ Collides tag m later n := by
  rintro ⟨digits, hn, hstem⟩
  have hne : digits ≠ [] := by
    rintro rfl
    have hsame := congrArg digitsValue hn
    rw [List.nil_append, digitsValue_ofNat, digitsValue_ofNat] at hsame
    omega
  have hall : digits.all isDigitByte = true := by
    have hdigits := (isDigitByte_ofNat n).2
    rw [hn, List.all_append] at hdigits
    exact (Bool.and_eq_true_iff.mp hdigits).1
  rw [← endsInDigit_stem, hstem, endsInDigit_append _ hne] at htag
  unfold endsInDigit at htag
  rw [List.getLast?_eq_some_getLast hne] at htag
  have hlast := List.all_eq_true.mp hall _ (List.getLast_mem hne)
  exact Bool.false_ne_true (htag.symm.trans hlast)

/-- No two names made up for the tags one after the other are the same. -/
def Apart (tags : List Text) : Prop :=
  (tags.zipIdx 1).Pairwise fun a b => ¬ Collides a.1 a.2 b.1 b.2

theorem pairwise_zipIdx_lt {α : Type} (l : List α) (k : Nat) :
    (l.zipIdx k).Pairwise fun a b => a.2 < b.2 := by
  rw [← List.pairwise_map (f := Prod.snd) (R := (· < ·)), List.zipIdx_map_snd]
  exact List.pairwise_lt_range'

theorem nodup_madeUp_iff (tags : List Text) :
    (((tags.zipIdx 1).map fun a => "f_" ++ exported a.1 ++ ofNat a.2).map sanitize).Nodup ↔
      Apart tags := by
  have hlt := pairwise_zipIdx_lt tags 1
  rw [List.map_map, List.Nodup, List.pairwise_map]
  constructor
  · exact fun h => hlt.imp₂ (fun _ _ hab hne hcol => hne ((sanitize_eq_iff hab).mpr hcol)) h
  · exact fun h => hlt.imp₂ (fun _ _ hab hcol heq => hcol ((sanitize_eq_iff hab).mp heq)) h

theorem apart_of_endsInDigit {tags : List Text} (h : ∀ tag ∈ tags, endsInDigit tag = false) :
    Apart tags := by
  have hlt := pairwise_zipIdx_lt tags 1
  refine List.Pairwise.imp_of_mem (fun {a b} ha _ hab => ?_) hlt
  exact not_collides_of_endsInDigit (h a.1 (List.fst_mem_of_mem_zipIdx ha)) hab

end Text

/-! ## Runs in which names are made up -/

/-- Something done with the fields of a draft, or a name made up for a tag. -/
inductive NamingStep where
  | operation (op : FieldOp)
  | makeUp (tag : Text)

/-- The tags names are made up for. -/
def NamingStep.tags : List NamingStep → List Text
  | [] => []
  | operation _ :: rest => tags rest
  | makeUp tag :: rest => tag :: tags rest

/-- The names that are made up by steps from a draft on. -/
def Draft.madeUp (d : Draft) : List NamingStep → List Text
  | [] => []
  | .operation op :: rest => (FieldOp.apply d op).madeUp rest
  | .makeUp tag :: rest =>
    (d.fields.nextName tag).1 :: { d with fields := (d.fields.nextName tag).2 }.madeUp rest

namespace FieldTable

@[simp] theorem counter_depend (t : FieldTable) (name : Text) :
    (t.depend name).counter = t.counter := by
  unfold depend
  split <;> rfl

theorem counter_register {t t' : FieldTable} {c : Catalog} {precedence : Precedence}
    {type : Option TypeId} {name : Text} {id : FieldId}
    (h : t.register c precedence type name = .ok (id, t')) : t'.counter = t.counter := by
  unfold register at h
  split at h
  · cases h
  · cases h
    simp

theorem counter_require {t t' : FieldTable} {c : Catalog} {precedence : Precedence}
    {type : Option TypeId} {name : Text} {id : FieldId}
    (h : t.require c precedence type name = .ok (id, t')) : t'.counter = t.counter := by
  unfold require at h
  split at h
  · simp only at h
    split at h
    · cases h
    · cases h
      simp
  · exact counter_register h

end FieldTable

/-- Only making up a name is counted. -/
theorem FieldOp.counter (d : Draft) (op : FieldOp) :
    (FieldOp.apply d op).fields.counter = d.fields.counter := by
  unfold FieldOp.apply
  cases op with
  | register precedence type name =>
    simp only [FieldOp.work, Draft.register, FieldOp.fields_discard]
    split
    · rename_i hok
      exact FieldTable.counter_register hok
    · rfl
  | require precedence type name =>
    simp only [FieldOp.work, Draft.require, FieldOp.fields_discard]
    split
    · rename_i hok
      exact FieldTable.counter_require hok
    · rfl
  | enter element field =>
    simp only [FieldOp.work, Work.runOn_modify]
    split <;> rfl
  | leave => rfl
  | refer element path types => exact FieldTable.counter_depend _ _

/-- The names that are made up, whatever else is done in between. -/
theorem madeUp_eq (steps : List NamingStep) (d : Draft) :
    d.madeUp steps = ((NamingStep.tags steps).zipIdx (d.fields.counter + 1)).map
      fun a => "f_" ++ Text.exported a.1 ++ Text.ofNat a.2 := by
  induction steps generalizing d with
  | nil => rfl
  | cons step rest ih =>
    cases step with
    | operation op =>
      have hrest := ih (FieldOp.apply d op)
      rw [FieldOp.counter] at hrest
      exact hrest
    | makeUp tag => exact congrArg _ (ih _)

namespace FieldTable

/-- Declares a field for each tag and type, under a name made up for the tag. -/
def declareUnnamed (t : FieldTable) (c : Catalog) :
    List (Text × Option TypeId) → Except Problem FieldTable
  | [] => .ok t
  | (tag, type) :: rest =>
    match (t.nextName tag).2.register c .plain type (t.nextName tag).1 with
    | .ok (_, declared) => declared.declareUnnamed c rest
    | .error p => .error p

/-- The names of the fields. -/
def names (t : FieldTable) : List Text := (List.range t.fields.size).map fun id => (t.field id).name

theorem names_register {t t' : FieldTable} {c : Catalog} {precedence : Precedence}
    {type : Option TypeId} {name : Text} {id : FieldId}
    (h : t.register c precedence type name = .ok (id, t')) :
    t'.names = t.names ++ [Text.sanitize name] := by
  obtain ⟨hid, hsize⟩ := size_register h
  obtain ⟨hold, needs, hnew⟩ := field_register h
  unfold names
  rw [hsize, List.range_succ, List.map_append, List.map_singleton, ← hid, hnew]
  refine congrArg (· ++ _) (List.map_congr_left fun other hother => ?_)
  rw [hid] at hother
  obtain ⟨needs', hfield⟩ := hold other (List.mem_range.mp hother)
  rw [hfield]

/-- A field is declared if its name is new; otherwise the name is reported as a duplicate. -/
theorem register_cases (t : FieldTable) (c : Catalog) (precedence : Precedence)
    (type : Option TypeId) (name : Text) :
    (Text.sanitize name ∉ t.names ∧ ∃ id t', t.register c precedence type name = .ok (id, t')) ∨
      (Text.sanitize name ∈ t.names ∧ ∃ old new,
        t.register c precedence type name = .error (.duplicateField name old new)) := by
  have hnone : t.find? name = none ↔ Text.sanitize name ∉ t.names := by
    unfold find? names
    rw [byName?_eq_none_iff]
    simp
  unfold register
  split
  · rename_i old hfind
    refine .inr ⟨?_, _, _, rfl⟩
    by_contra hnew
    rw [hnone.mpr hnew] at hfind
    cases hfind
  · rename_i hfind
    exact .inl ⟨hnone.mp hfind, _, _, rfl⟩

/-- Declaring goes on as long as the names made up are new; a name that is not is a duplicate. -/
theorem declareUnnamed_cases (c : Catalog) (elements : List (Text × Option TypeId))
    (t : FieldTable) (ht : t.names.Nodup) :
    let made := ((elements.map (·.1)).zipIdx (t.counter + 1)).map
      fun a => "f_" ++ Text.exported a.1 ++ Text.ofNat a.2
    ((t.names ++ made.map Text.sanitize).Nodup → ∃ u, t.declareUnnamed c elements = .ok u) ∧
      (¬ (t.names ++ made.map Text.sanitize).Nodup →
        ∃ name ∈ made, ∃ old new,
          t.declareUnnamed c elements = .error (.duplicateField name old new)) := by
  induction elements generalizing t with
  | nil => exact ⟨fun _ => ⟨t, rfl⟩, fun h => absurd (by simpa using ht) h⟩
  | cons element rest ih =>
    obtain ⟨tag, type⟩ := element
    intro made
    have hmade : made = (t.nextName tag).1 :: ((rest.map (·.1)).zipIdx (t.counter + 1 + 1)).map
        fun a => "f_" ++ Text.exported a.1 ++ Text.ofNat a.2 := rfl
    rw [declareUnnamed, hmade, List.map_cons]
    rcases (t.nextName tag).2.register_cases c .plain type (t.nextName tag).1 with
      ⟨hnew, id, declared, hregister⟩ | ⟨hold, old, new, hregister⟩
    · have hnames : declared.names = t.names ++ [Text.sanitize (t.nextName tag).1] :=
        names_register (t := (t.nextName tag).2) hregister
      have hcounter : declared.counter = t.counter + 1 := counter_register hregister
      have hnodup : declared.names.Nodup := by
        rw [hnames]
        exact ht.append (List.nodup_singleton _) (List.disjoint_singleton.mpr hnew)
      obtain ⟨hok, herror⟩ := ih declared hnodup
      rw [hnames, hcounter, List.append_assoc] at hok herror
      simp only [hregister]
      refine ⟨hok, fun h => ?_⟩
      obtain ⟨name, hname, hduplicate⟩ := herror h
      exact ⟨name, List.mem_cons_of_mem _ hname, hduplicate⟩
    · simp only [hregister]
      refine ⟨fun h => ?_, fun _ => ⟨_, List.mem_cons_self, old, new, rfl⟩⟩
      exact absurd rfl ((List.nodup_append.mp h).2.2 _ hold _ List.mem_cons_self)

end FieldTable

open Text

/-- Names made up for the tags of one table are distinct identifiers exactly if no two of them
collide, and exactly then a field can be declared under each; otherwise one of them is reported as a
duplicate. Tags that end in no digit never collide. -/
theorem made_up_names_are_distinct_unless_a_tag_ends_in_digits (d : Draft) (c : Catalog)
    (steps : List NamingStep) (elements : List (Text × Option TypeId)) :
    ((({ d with fields := {} }.madeUp steps).map sanitize).Nodup ↔
        Apart (NamingStep.tags steps)) ∧
      ((∃ t, FieldTable.declareUnnamed {} c elements = .ok t) ↔ Apart (elements.map (·.1))) ∧
      ((∃ name old new, FieldTable.declareUnnamed {} c elements =
        .error (.duplicateField name old new)) ↔ ¬ Apart (elements.map (·.1))) ∧
      ∀ tags : List Text, (∀ tag ∈ tags, endsInDigit tag = false) → Apart tags := by
  have hnodup := nodup_madeUp_iff (elements.map (·.1))
  obtain ⟨hok, herror⟩ := FieldTable.declareUnnamed_cases c elements {} List.nodup_nil
  have hdistinct : Apart (elements.map (·.1)) →
      ∃ t, FieldTable.declareUnnamed {} c elements = .ok t := fun h => hok (hnodup.mpr h)
  have hduplicate : ¬ Apart (elements.map (·.1)) → ∃ name old new,
      FieldTable.declareUnnamed {} c elements = .error (.duplicateField name old new) := by
    intro h
    obtain ⟨name, -, hname⟩ := herror (mt hnodup.mp h)
    exact ⟨name, hname⟩
  refine ⟨?_, ⟨?_, hdistinct⟩, ⟨?_, hduplicate⟩, fun tags => apart_of_endsInDigit⟩
  · rw [madeUp_eq]
    exact nodup_madeUp_iff _
  · rintro ⟨t, ht⟩
    by_contra h
    obtain ⟨name, old, new, hname⟩ := hduplicate h
    cases ht.symm.trans hname
  · rintro ⟨name, old, new, hname⟩ h
    obtain ⟨t, ht⟩ := hdistinct h
    cases ht.symm.trans hname

/-- The first name that is made up for these tags comes back as the eleventh, and a field under it is
a duplicate. -/
theorem a_made_up_name_can_come_back :
    let tags : List Text := ["a1", "b", "b", "b", "b", "b", "b", "b", "b", "b", "a"]
    let names := (Draft.blank.madeUp (tags.map .makeUp)).map sanitize
    names[0]? = some (Text.ofString "f_A11") ∧ names[10]? = some (Text.ofString "f_A11") ∧ ¬ names.Nodup ∧
      (match FieldTable.declareUnnamed {} Draft.blank.catalog (tags.map (·, none)) with
        | .error (.duplicateField name _ _) => name == "f_A11"
        | _ => false) = true := by
  decide

end ViewBinder
