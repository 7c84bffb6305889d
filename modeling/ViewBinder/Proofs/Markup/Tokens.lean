-- The tokens of a source. Each leaves a part of what was before it, so a source has only so many,
-- and its opening tags stand in each other as their closing tags say. Names in tags are made of
-- bytes of names, with no colon in an abbreviation, and no value holds a null byte.
import ViewBinder.Markup.Load
import ViewBinder.Proofs.Attribute.Single

namespace ViewBinder.Markup

/-! ## What a token leaves -/

section Rest

variable {source rest : Text}

theorem suffix_skipSpace (source : Text) : skipSpace source <:+ source := List.dropWhile_suffix _

/-- The data that is checked is not looked at again. -/
theorem rest_checkData {data given found : Text} (h : checkData data given = .ok (found, rest)) :
    rest = given := by
  unfold checkData at h
  split at h
  · cases h
  · cases h
    rfl

theorem suffix_scanNameBytes {found : Option Text}
    (h : scanNameBytes source = .ok (found, rest)) : rest <:+ source := by
  unfold scanNameBytes at h
  split at h
  · cases h
  · rename_i b after
    split at h
    · cases h
      exact List.suffix_refl _
    · split at h
      · cases h
      · cases h
        exact List.dropWhile_suffix _

theorem suffix_scanName {found : Option Text} (h : scanName source = .ok (found, rest)) :
    rest <:+ source := by
  unfold scanName at h
  split at h
  · rename_i hbytes
    split at h
    · cases h
      exact suffix_scanNameBytes hbytes
    · cases h
  · exact suffix_scanNameBytes h

theorem suffix_scanRawName {otherwise : ScanCause} {name : RawName}
    (h : scanRawName otherwise source = .ok (name, rest)) : rest <:+ source := by
  unfold scanRawName at h
  split at h
  · cases h
  · cases h
  · rename_i hfound
    split at h
    · cases h
      exact suffix_scanName hfound
    · cases h

theorem suffix_scanData {quote : Option UInt8} {skip : Nat} {b0 b1 : UInt8} {data found : Text}
    (h : scanData quote skip b0 b1 data source = .ok (found, rest)) : rest <:+ source := by
  induction source generalizing skip b0 b1 data with
  | nil =>
    unfold scanData at h
    split at h
    · rename_i hchecked
      split at h
      · cases h
      · cases h
        obtain rfl := rest_checkData hchecked
        exact List.suffix_refl _
    · cases h
  | cons b after ih =>
    cases skip with
    | succ skip => exact (ih h).trans (List.suffix_cons _ _)
    | zero =>
      unfold scanData at h
      split at h
      · cases h
      split at h
      · split at h
        · cases h
        · obtain rfl := rest_checkData h
          exact List.suffix_refl _
      split at h
      · rw [rest_checkData h]
        exact List.suffix_cons _ _
      split at h
      · split at h
        · exact (ih h).trans (List.suffix_cons _ _)
        · cases h
      · exact (ih h).trans (List.suffix_cons _ _)

/-- Data that does not begin with a tag takes its first byte with it. -/
theorem suffix_scanData_of_ne {b : UInt8} {after found : Text} (hb : b ≠ '<'.toUInt8)
    (h : scanData none 0 0 0 [] (b :: after) = .ok (found, rest)) : rest <:+ after := by
  unfold scanData at h
  have hstray : (0 == ']'.toUInt8 : Bool) = false := by decide
  rw [if_neg (by simp [hstray]), if_neg (by simpa using hb), if_neg (by simp)] at h
  split at h
  · split at h
    · exact suffix_scanData h
    · cases h
  · exact suffix_scanData h

theorem suffix_scanCdata {token : Token} (h : scanCdata source = .ok (token, rest)) :
    rest <:+ source := by
  unfold scanCdata at h
  split at h
  · cases h
  · split at h
    · rename_i hchecked
      cases h
      rw [rest_checkData hchecked]
      exact List.drop_suffix _ _
    · cases h

theorem suffix_scanValue {value : Text} (h : scanValue source = .ok (value, rest)) :
    rest <:+ source := by
  unfold scanValue at h
  split at h
  · cases h
  · split at h
    · exact (suffix_scanData h).trans (List.suffix_cons _ _)
    · cases h

theorem suffix_scanAttribute {found : RawName × Text}
    (h : scanAttribute source = .ok (found, rest)) : rest <:+ source := by
  unfold scanAttribute at h
  split at h
  · cases h
  · rename_i name after hname
    split at h
    · cases h
    · rename_i b after' hspace
      have hafter : after' <:+ source :=
        ((List.suffix_cons b after').trans (hspace ▸ suffix_skipSpace after)).trans
          (suffix_scanRawName hname)
      split at h
      · split at h
        · rename_i hvalue
          cases h
          exact ((suffix_scanValue hvalue).trans (suffix_skipSpace _)).trans hafter
        · cases h
      · cases h

theorem suffix_scanTagRest {name : RawName} {fuel : Nat} {read : List (RawName × Text)}
    {token : Token} (h : scanTagRest name fuel read source = .ok (token, rest)) :
    rest <:+ source := by
  induction fuel generalizing read source with
  | zero => cases h
  | succ fuel ih =>
    unfold scanTagRest at h
    split at h
    · cases h
    · rename_i b after hspace
      have hfull : b :: after <:+ source := hspace ▸ suffix_skipSpace source
      have hafter : after <:+ source := (List.suffix_cons b after).trans hfull
      split at h
      · split at h
        · cases h
        · split at h
          · cases h
            exact (List.suffix_cons _ _).trans hafter
          · cases h
      split at h
      · cases h
        exact hafter
      · split at h
        · rename_i hattribute
          exact ((ih h).trans (suffix_scanAttribute hattribute)).trans hfull
        · cases h

theorem suffix_scanStart {token : Token} (h : scanStart source = .ok (token, rest)) :
    rest <:+ source := by
  unfold scanStart at h
  split at h
  · cases h
  · rename_i hname
    exact (suffix_scanTagRest h).trans (suffix_scanRawName hname)

theorem suffix_scanClose {token : Token} (h : scanClose source = .ok (token, rest)) :
    rest <:+ source := by
  unfold scanClose at h
  split at h
  · cases h
  · rename_i name after hname
    split at h
    · cases h
    · rename_i b after' hspace
      split at h
      · cases h
        exact ((List.suffix_cons b rest).trans (hspace ▸ suffix_skipSpace after)).trans
          (suffix_scanRawName hname)
      · cases h

theorem suffix_scanInstruction {token : Token} (h : scanInstruction source = .ok (token, rest)) :
    rest <:+ source := by
  unfold scanInstruction at h
  split at h
  · cases h
  · cases h
  · rename_i target after hname
    have hdrop : ∀ n, (skipSpace after).drop n <:+ source := fun n =>
      ((List.drop_suffix n _).trans (suffix_skipSpace after)).trans (suffix_scanName hname)
    dsimp only at h
    split at h
    · cases h
    · split at h
      · split at h
        · cases h
        split at h
        · cases h
        · cases h
          exact hdrop _
      · cases h
        exact hdrop _

theorem suffix_scanComment {token : Token} (h : scanComment source = .ok (token, rest)) :
    rest <:+ source := by
  unfold scanComment at h
  split at h
  · cases h
  · split at h
    · cases h
    · rename_i b after hdrop
      split at h
      · cases h
        exact (List.suffix_cons b rest).trans (hdrop ▸ List.drop_suffix _ _)
      · cases h

theorem suffix_scanDeclaration {mode : DeclarationMode} {quote : UInt8} {depth : Int} {body : Text}
    {token : Token} (h : scanDeclaration mode quote depth body source = .ok (token, rest)) :
    rest <:+ source := by
  induction source generalizing mode quote depth body with
  | nil =>
    unfold scanDeclaration at h
    cases h
  | cons b after ih =>
    refine List.IsSuffix.trans ?_ (List.suffix_cons b after)
    cases mode with
    | plain =>
      unfold scanDeclaration at h
      split at h
      · cases h
        exact List.suffix_refl _
      · exact ih h
    | opened matched =>
      unfold scanDeclaration at h
      split at h
      · split at h <;> exact ih h
      · exact ih h
    | comment c0 c1 =>
      unfold scanDeclaration at h
      split at h <;> exact ih h

theorem suffix_scanSection {expected : Text} {token : Token}
    (h : scanSection expected source = .ok (token, rest)) : rest <:+ source := by
  induction expected generalizing source with
  | nil =>
    unfold scanSection at h
    exact suffix_scanCdata h
  | cons c more ih =>
    cases source with
    | nil => cases h
    | cons b after =>
      unfold scanSection at h
      split at h
      · exact (ih h).trans (List.suffix_cons _ _)
      · cases h

theorem suffix_scanBang {token : Token} (h : scanBang source = .ok (token, rest)) :
    rest <:+ source := by
  unfold scanBang at h
  split at h
  · cases h
  · rename_i b after
    refine List.IsSuffix.trans ?_ (List.suffix_cons b after)
    split at h
    · split at h
      · cases h
      · split at h
        · exact (suffix_scanComment h).trans (List.suffix_cons _ _)
        · cases h
    split at h
    · exact suffix_scanSection h
    · exact suffix_scanDeclaration h

/-- A token takes at least one byte. -/
theorem length_of_scan {token : Token} (h : Token.scan source = .ok (token, rest)) :
    rest.length < source.length := by
  unfold Token.scan at h
  split at h
  · cases h
  · rename_i b after
    suffices rest <:+ after from Nat.lt_succ_of_le this.length_le
    split at h
    · rename_i hplain
      split at h
      · rename_i hdata
        cases h
        exact suffix_scanData_of_ne (by simpa using hplain) hdata
      · cases h
    · split at h
      · cases h
      · rename_i c beyond
        have hbeyond : beyond <:+ c :: beyond := List.suffix_cons _ _
        split at h
        · exact (suffix_scanClose h).trans hbeyond
        split at h
        · exact (suffix_scanInstruction h).trans hbeyond
        split at h
        · exact (suffix_scanBang h).trans hbeyond
        · exact suffix_scanStart h

end Rest

/-! ## Names in tags -/

/-- A piece between two occurrences of a byte does not hold the byte. -/
theorem notMem_of_mem_splitOn {byte : UInt8} {t piece : Text} (h : piece ∈ Text.splitOn byte t) :
    byte ∉ piece := by
  induction t generalizing piece with
  | nil => simp_all [Text.splitOn]
  | cons b rest ih =>
    unfold Text.splitOn at h
    by_cases hb : b = byte
    · rcases List.mem_cons.mp (by simpa [hb] using h) with rfl | hlater
      · simp
      · exact ih hlater
    · simp only [beq_iff_eq, hb, if_false] at h
      split at h
      · rename_i first others hrest
        rcases List.mem_cons.mp h with rfl | hlater
        · simp [Ne.symm hb, ih (hrest ▸ List.mem_cons_self)]
        · exact ih (hrest ▸ List.mem_cons_of_mem _ hlater)
      · simp_all [Ne.symm hb]

/-- A name as a source can write it: its abbreviation holds no colon, and behind that stand only
bytes that a name goes on with. -/
structure RawName.Spelt (name : RawName) : Prop where
  lead : ':'.toUInt8 ∉ name.lead
  base : ∀ b ∈ name.base, isNameRun b = true

theorem spelt_of_splitName {name : Text} {raw : RawName} (hname : ∀ b ∈ name, isNameRun b = true)
    (h : splitName name = some raw) : raw.Spelt := by
  unfold splitName at h
  split at h
  · rename_i lead base hpieces
    split at h
    · cases h
      exact ⟨List.not_mem_nil, hname⟩
    · cases h
      have hjoin : lead ++ ':'.toUInt8 :: base = name := by
        rw [← Text.join_splitOn ':'.toUInt8 name, hpieces]
        simp [Text.join, List.intercalate]
      refine ⟨notMem_of_mem_splitOn (hpieces ▸ List.mem_cons_self), fun b hb => hname b ?_⟩
      rw [← hjoin]
      exact List.mem_append_right _ (List.mem_cons_of_mem _ hb)
  · cases h
    exact ⟨List.not_mem_nil, hname⟩
  · cases h

theorem isNameRun_of_scanName {source rest name : Text}
    (h : scanName source = .ok (some name, rest)) : ∀ b ∈ name, isNameRun b = true := by
  have hbytes : scanNameBytes source = .ok (some name, rest) := by
    unfold scanName at h
    split at h
    · rename_i hbytes
      split at h
      · cases h
        exact hbytes
      · cases h
    · exact h
  unfold scanNameBytes at hbytes
  split at hbytes
  · cases hbytes
  · split at hbytes
    · cases hbytes
    · split at hbytes
      · cases hbytes
      · cases hbytes
        exact List.all_eq_true.mp List.all_takeWhile

theorem spelt_of_scanRawName {otherwise : ScanCause} {source rest : Text} {raw : RawName}
    (h : scanRawName otherwise source = .ok (raw, rest)) : raw.Spelt := by
  unfold scanRawName at h
  split at h
  · cases h
  · cases h
  · rename_i hname
    split at h
    · rename_i hsplit
      cases h
      exact spelt_of_splitName (isNameRun_of_scanName hname) hsplit
    · cases h

/-- Data that may stand in a document holds no null byte. -/
theorem notMem_of_checkData {data given found rest : Text}
    (h : checkData data given = .ok (found, rest)) : 0 ∉ found := by
  intro hmem
  obtain ⟨front, back, hsplit⟩ := List.append_of_mem hmem
  have hrune : (⟨0, [0]⟩ : Text.Rune) ∈ found.runes := by
    rw [hsplit, Text.runes_append front (by decide), Text.runes_ascii_cons (by decide)]
    exact List.mem_append_right _ List.mem_cons_self
  unfold checkData at h
  split at h
  · cases h
  · rename_i hfit
    cases h
    unfold unfitData? at hfit
    rw [List.findSome?_eq_none_iff] at hfit
    exact absurd (hfit _ hrune) (by decide)

theorem notMem_of_scanData {quote : UInt8} {skip : Nat} {b0 b1 : UInt8}
    {source data found rest : Text}
    (h : scanData (some quote) skip b0 b1 data source = .ok (found, rest)) : 0 ∉ found := by
  induction source generalizing skip b0 b1 data with
  | nil =>
    unfold scanData at h
    split at h
    · cases h
    · cases h
  | cons b after ih =>
    cases skip with
    | succ skip => exact ih h
    | zero =>
      unfold scanData at h
      split at h
      · cases h
      split at h
      · cases h
      split at h
      · exact notMem_of_checkData h
      split at h
      · split at h
        · exact ih h
        · cases h
      · exact ih h

theorem notMem_of_scanValue {source value rest : Text}
    (h : scanValue source = .ok (value, rest)) : 0 ∉ value := by
  unfold scanValue at h
  split at h
  · cases h
  · split at h
    · exact notMem_of_scanData h
    · cases h

theorem spelt_of_scanAttribute {source rest : Text} {found : RawName × Text}
    (h : scanAttribute source = .ok (found, rest)) : found.1.Spelt ∧ 0 ∉ found.2 := by
  unfold scanAttribute at h
  split at h
  · cases h
  · rename_i hname
    split at h
    · cases h
    · split at h
      · split at h
        · rename_i hvalue
          cases h
          exact ⟨spelt_of_scanRawName hname, notMem_of_scanValue hvalue⟩
        · cases h
      · cases h

/-- The names that a token writes in a tag are spelt as names, and its values hold no null byte. -/
def Token.Spelt : Token → Prop
  | .start name attributes _ => name.Spelt ∧ ∀ a ∈ attributes, a.1.Spelt ∧ 0 ∉ a.2
  | _ => True

theorem spelt_of_scanTagRest {name : RawName} (hname : name.Spelt) {fuel : Nat}
    {read : List (RawName × Text)} (hread : ∀ a ∈ read, a.1.Spelt ∧ 0 ∉ a.2) {source rest : Text}
    {token : Token} (h : scanTagRest name fuel read source = .ok (token, rest)) :
    token.Spelt := by
  induction fuel generalizing read source with
  | zero => cases h
  | succ fuel ih =>
    unfold scanTagRest at h
    split at h
    · cases h
    · split at h
      · split at h
        · cases h
        · split at h
          · cases h
            exact ⟨hname, hread⟩
          · cases h
      split at h
      · cases h
        exact ⟨hname, hread⟩
      · split at h
        · rename_i found after hattribute
          refine ih (fun a ha => ?_) h
          rcases List.mem_append.mp ha with hold | hnew
          · exact hread a hold
          · rw [List.mem_singleton.mp hnew]
            exact spelt_of_scanAttribute hattribute
        · cases h

theorem spelt_of_scanDeclaration {mode : DeclarationMode} {quote : UInt8} {depth : Int}
    {source body rest : Text} {token : Token}
    (h : scanDeclaration mode quote depth body source = .ok (token, rest)) :
    token.Spelt := by
  induction source generalizing mode quote depth body with
  | nil =>
    unfold scanDeclaration at h
    cases h
  | cons b after ih =>
    cases mode with
    | plain =>
      unfold scanDeclaration at h
      split at h
      · cases h
        trivial
      · exact ih h
    | opened matched =>
      unfold scanDeclaration at h
      split at h
      · split at h <;> exact ih h
      · exact ih h
    | comment c0 c1 =>
      unfold scanDeclaration at h
      split at h <;> exact ih h

theorem spelt_of_scanCdata {source rest : Text} {token : Token}
    (h : scanCdata source = .ok (token, rest)) : token.Spelt := by
  unfold scanCdata at h
  split at h
  · cases h
  · split at h
    · cases h
      trivial
    · cases h

theorem spelt_of_scanSection {expected source rest : Text} {token : Token}
    (h : scanSection expected source = .ok (token, rest)) : token.Spelt := by
  induction expected generalizing source with
  | nil =>
    unfold scanSection at h
    exact spelt_of_scanCdata h
  | cons c more ih =>
    cases source with
    | nil => cases h
    | cons b after =>
      unfold scanSection at h
      split at h
      · exact ih h
      · cases h

theorem spelt_of_scanStart {source rest : Text} {token : Token}
    (h : scanStart source = .ok (token, rest)) : token.Spelt := by
  unfold scanStart at h
  split at h
  · cases h
  · rename_i hname
    exact spelt_of_scanTagRest (spelt_of_scanRawName hname)
      (fun _ ha => absurd ha List.not_mem_nil) h

theorem spelt_of_scanClose {source rest : Text} {token : Token}
    (h : scanClose source = .ok (token, rest)) : token.Spelt := by
  unfold scanClose at h
  split at h
  · cases h
  · split at h
    · cases h
    · split at h
      · cases h
        trivial
      · cases h

theorem spelt_of_scanInstruction {source rest : Text} {token : Token}
    (h : scanInstruction source = .ok (token, rest)) : token.Spelt := by
  unfold scanInstruction at h
  split at h
  · cases h
  · cases h
  · dsimp only at h
    split at h
    · cases h
    · split at h
      · split at h
        · cases h
        split at h
        · cases h
        · cases h
          trivial
      · cases h
        trivial

theorem spelt_of_scanComment {source rest : Text} {token : Token}
    (h : scanComment source = .ok (token, rest)) : token.Spelt := by
  unfold scanComment at h
  split at h
  · cases h
  · split at h
    · cases h
    · split at h
      · cases h
        trivial
      · cases h

theorem spelt_of_scanBang {source rest : Text} {token : Token}
    (h : scanBang source = .ok (token, rest)) : token.Spelt := by
  unfold scanBang at h
  split at h
  · cases h
  · split at h
    · split at h
      · cases h
      · split at h
        · exact spelt_of_scanComment h
        · cases h
    split at h
    · exact spelt_of_scanSection h
    · exact spelt_of_scanDeclaration h

theorem spelt_of_scan {source rest : Text} {token : Token}
    (h : Token.scan source = .ok (token, rest)) : token.Spelt := by
  unfold Token.scan at h
  split at h
  · cases h
  · split at h
    · split at h
      · cases h
        trivial
      · cases h
    · split at h
      · cases h
      · split at h
        · exact spelt_of_scanClose h
        split at h
        · exact spelt_of_scanInstruction h
        split at h
        · exact spelt_of_scanBang h
        · exact spelt_of_scanStart h

/-! ## The tags of a source -/

/-- The tokens of a source up to where it cannot be read; `fuel` bounds their number. -/
def tokensWithin : Nat → Text → List Token
  | 0, _ => []
  | fuel + 1, source =>
    match Token.scan source with
    | .ok (token, rest) => token :: tokensWithin fuel rest
    | .error _ => []

/-- The tokens of a source up to where it cannot be read. -/
def tokens (source : Text) : List Token := tokensWithin source.length source

/-- A source has no more tokens than bytes, so any larger bound gives the same ones. -/
theorem tokensWithin_congr (fuel fuel' : Nat) {source : Text} (h : source.length ≤ fuel)
    (h' : source.length ≤ fuel') : tokensWithin fuel source = tokensWithin fuel' source := by
  induction fuel generalizing fuel' source with
  | zero =>
    have hempty : source = [] := by simpa using h
    subst hempty
    cases fuel' <;> rfl
  | succ fuel ih =>
    cases fuel' with
    | zero =>
      have hempty : source = [] := by simpa using h'
      subst hempty
      rfl
    | succ fuel' =>
      unfold tokensWithin
      split
      · rename_i hscan
        have hless := length_of_scan hscan
        rw [ih fuel' (by omega) (by omega)]
      · rfl

@[simp] theorem tokens_nil : tokens [] = [] := rfl

theorem tokens_of_scan {source rest : Text} {token : Token}
    (h : Token.scan source = .ok (token, rest)) : tokens source = token :: tokens rest := by
  have hless := length_of_scan h
  unfold tokens
  rw [tokensWithin_congr _ (source.length + 1) le_rfl (by omega), tokensWithin]
  simp only [h]
  rw [tokensWithin_congr _ rest.length (by omega) le_rfl]

theorem spelt_of_mem_tokens {source : Text} {token : Token} (h : token ∈ tokens source) :
    token.Spelt := by
  unfold tokens at h
  generalize source.length = fuel at h
  induction fuel generalizing source with
  | zero => cases h
  | succ fuel ih =>
    unfold tokensWithin at h
    split at h
    · rename_i hscan
      rcases List.mem_cons.mp h with rfl | hlater
      · exact spelt_of_scan hscan
      · exact ih hlater
    · cases h

/-- What an opening tag writes. -/
structure OpeningTag where
  name : RawName
  attributes : List (RawName × Text)
  deriving DecidableEq

/-- An opening tag with the ones it stands in, innermost first. -/
structure PlacedTag where
  tag : OpeningTag
  around : List OpeningTag
  deriving DecidableEq

/-- The opening tag of a token, placed. -/
def tagOf? (around : List OpeningTag) : Token → Option PlacedTag
  | .start name attributes _ => some ⟨⟨name, attributes⟩, around⟩
  | _ => none

/-- The opening tags that are still open behind a token. -/
def openBehind (around : List OpeningTag) : Token → List OpeningTag
  | .start name attributes empty => if empty then around else ⟨name, attributes⟩ :: around
  | .close _ => around.drop 1
  | _ => around

/-- The opening tags among tokens. -/
def tagsAmong (around : List OpeningTag) : List Token → List PlacedTag
  | [] => []
  | token :: rest => (tagOf? around token).toList ++ tagsAmong (openBehind around token) rest

/-- The opening tags of a source in order. -/
def tagsOf (source : Text) : List PlacedTag := tagsAmong [] (tokens source)

theorem exists_start_of_mem_tagsAmong {around : List OpeningTag} {read : List Token}
    {t : PlacedTag} (h : t ∈ tagsAmong around read) :
    ∃ empty, Token.start t.tag.name t.tag.attributes empty ∈ read := by
  induction read generalizing around with
  | nil => cases h
  | cons token rest ih =>
    rcases List.mem_append.mp h with hhere | hlater
    · cases token with
      | start name attributes empty =>
        rw [List.mem_singleton.mp hhere]
        exact ⟨empty, List.mem_cons_self⟩
      | _ => cases hhere
    · obtain ⟨empty, hmem⟩ := ih hlater
      exact ⟨empty, List.mem_cons_of_mem _ hmem⟩

/-- The names in a tag of a source are spelt as names, and the values hold no null byte. -/
theorem spelt_of_mem_tagsOf {source : Text} {t : PlacedTag} (h : t ∈ tagsOf source) :
    t.tag.name.Spelt ∧ ∀ a ∈ t.tag.attributes, a.1.Spelt ∧ 0 ∉ a.2 := by
  obtain ⟨empty, hmem⟩ := exists_start_of_mem_tagsAmong h
  exact spelt_of_mem_tokens hmem

end ViewBinder.Markup
