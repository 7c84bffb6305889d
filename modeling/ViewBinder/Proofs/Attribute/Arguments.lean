-- How many arguments a value becomes. Whatever a parser makes of a value is one argument, and the
-- parsers of pairs make two. Which parser reads a value depends on the keys of the types that are
-- expected, put together; how many types there are does not matter to any parser.
import ViewBinder.Proofs.Attribute.Sound
import ViewBinder.Proofs.Number.Literal
import ViewBinder.Proofs.Program.Arguments
import ViewBinder.Proofs.Program.Imports

namespace ViewBinder

open Code (Closed IsArgument IsPlain Lists)

/-- What the parser writes around a value is plain, and no parser in it reads a pair. -/
def AttributeParser.IsSpelt (c : Catalog) : AttributeParser → Prop
  | .strict _ | .boolean _ | .string _ => True
  | .numeric type => IsPlain (c.decl type).name
  | .boxed inner type => inner.IsSpelt c ∧ inner.readsPair = false ∧
      IsPlain (c.decl type).name ∧ IsPlain (c.simpleName (c.decl type).unboxed)
  | .enumeration type => ∀ k ∈ (c.decl type).constants, IsArgument k.ident
  | .constant _ names => ∀ entry ∈ Attribute.withShortNames names, IsArgument entry.2
  | .intPair inner | .length inner _ | .safeHtml inner _ | .safeUri inner _ =>
    inner.IsSpelt c ∧ inner.readsPair = false

namespace Attribute

/-! ## Work that writes arguments -/

/-- The catalog of a draft, whose packages have names that are words. -/
structure Within (c : Catalog) (d : Draft) : Prop where
  catalog : d.catalog = c
  imports : d.imports.Named

/-- What the work answers, if it succeeds, has the property. -/
structure Gives {α : Type} (c : Catalog) (P : α → Prop) (w : Work Draft α) : Prop where
  answer : ∀ {d a d'}, Within c d → w.runOn d = (.ok a, d') → Within c d' ∧ P a

section Gives

variable {α β : Type} {c : Catalog} {P : α → Prop} {Q : β → Prop} {w : Work Draft α}

theorem Gives.bind {k : α → Work Draft β} (hw : Gives c P w) (hk : ∀ a, P a → Gives c Q (k a)) :
    Gives c Q (w >>= k) where
  answer hd h := by
    obtain ⟨a, d₁, hfirst, hrest⟩ := Work.bind_ok h
    obtain ⟨hd₁, ha⟩ := hw.answer hd hfirst
    exact (hk a ha).answer hd₁ hrest

theorem gives_pure {a : α} (h : P a) : Gives c P (pure a) where
  answer hd hrun := by
    cases hrun
    exact ⟨hd, h⟩

theorem gives_get : Gives c (fun d => d.catalog = c) (get : Work Draft Draft) where
  answer hd hrun := by
    cases hrun
    exact ⟨hd, hd.catalog⟩

theorem gives_failOn (e : Nat) (p : Markup.Document → Problem) :
    Gives c P (Draft.failOn e p) where
  answer _ hrun := by cases hrun

theorem gives_failEmpty (e : Nat) (type : Option TypeId) : Gives c P (failEmpty e type) :=
  gives_get.bind fun _ _ => gives_failOn e _

/-- What is done for all of a list. -/
theorem Gives.mapM {f : α → Work Draft β} (h : ∀ a, Gives c Q (f a)) (as : List α) :
    Gives c (fun bs => (∀ b ∈ bs, Q b) ∧ bs.length = as.length) (as.mapM f) := by
  induction as with
  | nil => exact gives_pure ⟨nofun, rfl⟩
  | cons a as ih =>
    rw [List.mapM_cons]
    refine (h a).bind fun b hb => ih.bind fun bs hbs => gives_pure ?_
    exact ⟨List.forall_mem_cons.mpr ⟨hb, hbs.1⟩, congrArg Nat.succ hbs.2⟩

end Gives

variable {c C : Catalog} {e : Nat} {value : Text}

/-! ## References and names -/

theorem isArgument_marker (n : Nat) : IsArgument (Marker.text n) := by
  have hplain : IsPlain Marker.alphabet := by decide
  exact Code.isArgument_of_isPlain (fun b hb => hplain b (Marker.mem_alphabet hb))
    (Marker.text_ne_nil n)

theorem gives_refer (path : Text) (types : List (Option TypeId)) :
    Gives c IsArgument (Draft.refer e path types) where
  answer hd h := by
    obtain ⟨rfl, rfl⟩ := refer_ok h
    exact ⟨⟨hd.catalog, hd.imports⟩, isArgument_marker _⟩

/-- A word is plain. -/
theorem isPlain_of_isNamePart {t : Text} (h : ∀ b ∈ t, Text.isNamePart b.toNat = true) :
    IsPlain t := by
  have hsigns : ∀ b ∈ Code.signs, Text.isNamePart b.toNat = false := forall_of_all (by decide)
  intro b hb hsign
  exact Bool.false_ne_true ((hsigns b hsign).symm.trans (h b hb))

/-- A name that is one argument is so behind the name of its package. -/
theorem gives_qualify {t : TypeId} {name : Text} (hname : IsArgument name) :
    Gives c IsArgument (Draft.qualify t name) where
  answer {d expr d'} hd h := by
    obtain ⟨rfl, rfl⟩ : expr = (d.imports.qualify (d.catalog.decl t) name).1 ∧
        d' = { d with imports := (d.imports.qualify (d.catalog.decl t) name).2 } := by
      cases h
      exact ⟨rfl, rfl⟩
    have hnamed : (d.imports.qualify (d.catalog.decl t) name).2.Named := hd.imports.add _ _
    refine ⟨⟨hd.catalog, hnamed⟩, ?_⟩
    rcases d.imports.qualify_cases (d.catalog.decl t) name with hsame | ⟨entry, hentry, hqualified⟩
    · rw [hsame]
      exact hname
    · have hpoint : Closed "." := Code.closed_of_isPlain (by decide)
      have hpackage := Code.closed_of_isPlain (isPlain_of_isNamePart (hnamed entry hentry).1)
      rw [hqualified]
      exact hname.prepend (hpackage.append hpoint)

/-! ## Values -/

theorem gives_singleReference {types : List (Option TypeId)} {wrap : Text → Text}
    (hwrap : ∀ marker, IsArgument marker → IsArgument (wrap marker)) :
    Gives c IsArgument (singleReference e value wrap types) where
  answer hd h := by
    have hone := isSingleReference_of_ok h
    unfold singleReference at h
    rw [hone] at h
    unfold Segment.isSingleReference at hone
    split at hone
    · rename_i path hsplit
      obtain ⟨marker, hrefer, rfl⟩ := convert_ok hsplit h
      obtain ⟨hd', hmarker⟩ := (gives_refer path types).answer hd hrefer
      exact ⟨hd', hwrap marker hmarker⟩
    · cases hone

/-- A text with references between is one argument. -/
theorem gives_text (hfull : value.isEmpty = false) (types : List (Option TypeId)) :
    Gives c IsArgument (convert e value types Text.quote pure " + ") := by
  have hsegments : Segment.split value ≠ [] := by
    intro hnil
    have hlength := Segment.splitFrom_eq_nil hnil
    rw [List.isEmpty_eq_false_iff] at hfull
    exact hfull (List.length_eq_zero_iff.mp (Nat.le_zero.mp hlength))
  unfold convert
  refine (Gives.mapM (Q := IsArgument) (fun segment => ?_) _).bind fun parts hparts => gives_pure ?_
  · cases segment with
    | literal t => exact gives_pure (Code.isArgument_quote t)
    | reference path =>
      have hrefer : Gives c IsArgument (Draft.refer e path types >>= pure) :=
        (gives_refer path types).bind fun _ hmarker => gives_pure hmarker
      dsimp only
      split
      · exact (gives_failOn (P := fun _ => True) e _).bind fun _ _ => hrefer
      · exact hrefer
  · obtain ⟨hall, hlength⟩ := hparts
    have hkept : parts.filter (!·.isEmpty) = parts := by
      rw [List.filter_eq_self]
      exact fun a ha => by simpa using (hall a ha).2
    have hne : parts ≠ [] := by
      rintro rfl
      exact hsegments (List.length_eq_zero_iff.mp hlength.symm)
    rw [hkept]
    exact Code.isArgument_join (Code.closed_of_isPlain (by decide)) hne hall

theorem isArgument_literal? {name t : Text} (h : Number.literal? name value = some t) :
    IsArgument t := by
  have hplain : IsPlain Number.numerals := by decide
  obtain ⟨hnumeral, hne⟩ := Number.isNumeral_literal? h
  exact Code.isArgument_of_isPlain (fun b hb => hplain b (hnumeral b hb)) hne

/-- A call of the name of something in a package. -/
theorem gives_call {t : TypeId} {name : Text} (hname : IsArgument name) {w : Work Draft Text}
    (hw : Gives c IsArgument w) :
    Gives c IsArgument (do
      let expr ← w
      return (← Draft.qualify t name) ++ "(" ++ expr ++ ")") :=
  hw.bind fun _ hexpr => (gives_qualify hname).bind fun _ hfunction =>
    gives_pure (Code.isArgument_call hfunction.1 hexpr.1)

/-- What one value becomes is one argument. -/
theorem gives_one {parser : AttributeParser} (h : parser.IsSpelt c)
    (hone : parser.readsPair = false) (e : Nat) (value : Text) :
    Gives c IsArgument (parse parser e value) := by
  have hsame : ∀ types, Gives c IsArgument (singleReference e value id types) := fun types =>
    gives_singleReference fun _ hmarker => hmarker
  induction parser generalizing value with
  | strict types =>
    rw [parse_strict]
    exact hsame types
  | boolean type =>
    have htrue : IsArgument "true" := Code.isArgument_of_isPlain (by decide) (by decide)
    have hfalse : IsArgument "false" := Code.isArgument_of_isPlain (by decide) (by decide)
    unfold parse
    refine gives_get.bind fun _ _ => ?_
    dsimp only
    split
    · rename_i hword
      rw [Bool.or_eq_true, beq_iff_eq, beq_iff_eq] at hword
      rcases hword with hword | hword
      · exact gives_pure (hword ▸ htrue)
      · exact gives_pure (hword ▸ hfalse)
    · split
      · exact gives_failEmpty e type
      · exact hsame _
  | numeric type =>
    unfold parse
    refine gives_get.bind fun d hd => ?_
    dsimp only
    split
    · exact gives_failEmpty e _
    · split
      · exact gives_pure (isArgument_literal? ‹_›)
      · refine gives_singleReference fun marker hmarker => ?_
        rw [hd]
        exact Code.isArgument_call (Code.closed_of_isPlain h) hmarker.1
  | boxed inner type ih =>
    obtain ⟨hinner, hinnerOne, htype, hunboxed⟩ := h
    unfold parse
    refine gives_get.bind fun d hd => ?_
    dsimp only
    split
    · exact hsame _
    · refine (ih hinner hinnerOne value hsame).bind fun expr hexpr => gives_pure ?_
      rw [hd]
      exact Code.isArgument_box (Code.closed_of_isPlain htype)
        (Code.isArgument_call (Code.closed_of_isPlain hunboxed) hexpr.1).1
  | string type =>
    have hempty : IsArgument "\"\"" := Code.isArgument_quote []
    unfold parse
    refine gives_get.bind fun _ _ => ?_
    dsimp only
    split
    · exact gives_pure hempty
    · exact gives_text (Bool.eq_false_iff.mpr ‹_›) [type]
  | intPair inner => cases hone
  | enumeration type =>
    unfold parse
    refine gives_get.bind fun d hd => ?_
    dsimp only
    split
    · exact gives_failEmpty e _
    · split
      · rename_i k hfound
        rw [hd] at hfound
        exact gives_qualify (h k (List.mem_of_find?_eq_some hfound))
      · split
        · exact hsame _
        · exact gives_failOn e _
  | constant type names =>
    unfold parse
    refine gives_get.bind fun _ _ => ?_
    dsimp only
    split
    · exact gives_failEmpty e _
    · split
      · rename_i ident hfound
        obtain ⟨before, after, hentries, -⟩ := List.lookup_eq_some_iff.mp hfound
        have hmem : (Text.trim value, ident) ∈ withShortNames names :=
          hentries ▸ List.mem_append_right _ List.mem_cons_self
        exact gives_qualify (h _ hmem)
      · exact hsame _
  | length number unit => cases hone
  | safeHtml text type ih =>
    have hname : IsArgument "FromTrustedString" :=
      Code.isArgument_of_isPlain (by decide) (by decide)
    unfold parse
    refine gives_get.bind fun _ _ => ?_
    dsimp only
    split
    · exact hsame _
    · exact gives_call hname (ih h.1 h.2 value hsame)
  | safeUri text type ih =>
    have hconstant : IsArgument "URIFromConstant" :=
      Code.isArgument_of_isPlain (by decide) (by decide)
    have hname : IsArgument "URIFromString" :=
      Code.isArgument_of_isPlain (by decide) (by decide)
    unfold parse
    refine gives_get.bind fun _ _ => ?_
    dsimp only
    split
    · exact hsame _
    · split
      · exact (gives_qualify hconstant).bind fun _ hfunction =>
          gives_pure (Code.isArgument_call hfunction.1 (Code.isArgument_quote value).1)
      · exact gives_call hname (ih h.1 h.2 value hsame)

/-- A pair becomes two arguments. -/
theorem gives_two {parser : AttributeParser} (h : parser.IsSpelt c)
    (htwo : parser.readsPair = true) (e : Nat) (value : Text) :
    Gives c (Lists 2) (parse parser e value) := by
  cases parser with
  | intPair inner =>
    have hone := gives_one h.1 h.2 e
    unfold parse
    refine gives_get.bind fun _ _ => ?_
    dsimp only
    split
    · exact (hone _).bind fun _ hx => (hone _).bind fun _ hy => gives_pure (hx.lists_two hy)
    · exact gives_failOn e _
  | length number unit =>
    have hpixels : IsArgument "UnitPX" := Code.isArgument_of_isPlain (by decide) (by decide)
    have hunits : ∀ entry ∈ units, IsPlain entry.2 ∧ entry.2 ≠ [] := by decide
    unfold parse
    refine gives_get.bind fun _ _ => ?_
    dsimp only
    split
    · exact gives_failOn e _
    · refine (gives_one h.1 h.2 e _).bind fun expr hexpr => ?_
      split
      · exact (gives_qualify hpixels).bind fun _ hunit => gives_pure (hexpr.lists_two hunit)
      · split
        · exact (gives_singleReference fun _ hmarker => hmarker).bind fun _ hunit =>
            gives_pure (hexpr.lists_two hunit)
        · split
          · rename_i ident hfound
            obtain ⟨before, after, hentries, -⟩ := List.lookup_eq_some_iff.mp hfound
            obtain ⟨hplain, hne⟩ := hunits _ (hentries ▸ List.mem_append_right _ List.mem_cons_self)
            exact (gives_qualify (Code.isArgument_of_isPlain hplain hne)).bind fun _ hunit =>
              gives_pure (hexpr.lists_two hunit)
          · exact gives_failOn e _
  | _ => cases htwo

/-! ## The parser for some types -/

/-- A type whose key has no point is called by its key. -/
theorem name_of_key {t : TypeDecl} {key : Text} (h : t.key = key) (hpoint : '.'.toUInt8 ∉ key) :
    t.name = key := by
  unfold TypeDecl.key keyOf at h
  split at h
  · exact h
  · refine absurd ?_ hpoint
    rw [← h]
    simp only [List.mem_append]
    exact Or.inl (Or.inr (by decide))

/-- The counterpart of a primitive is boxed, whatever is loaded. -/
theorem boxed_loadings (ms : List Manifest) {name : Text} (hname : name ∈ primitiveNames)
    {t : TypeId}
    (h : (ms.foldl Catalog.loading Catalog.bare).lookup? ("*" ++ name) = some t) :
    ((ms.foldl Catalog.loading Catalog.bare).decl t).kind = .boxed := by
  have hbare : ∀ name ∈ primitiveNames, (Catalog.bare.shared.lookup ("*" ++ name)).any
      (fun t => (Catalog.bare.decl t).kind == .boxed) = true := by
    decide
  obtain ⟨t', hfound, hkind⟩ := Option.any_eq_true .. |>.mp (hbare name hname)
  have hshared := (Catalog.loads_loadings Catalog.bare ms).lookup hfound
  unfold Catalog.lookup? at h
  rw [(Catalog.loaded_loadings ms).generated, hshared] at h
  obtain rfl : t' = t := Option.some.inj h
  have hbasic : Catalog.bare.IsBasic t' := Or.inr (eq_of_beq hkind)
  rw [((Catalog.spares_loadings Catalog.bare ms).same t' (Or.inl hbasic)).kind]
  exact eq_of_beq hkind

section Chosen

variable {ms : List Manifest} {types : List (Option TypeId)}

/-- What a parser of a catalog writes around a value is plain in every catalog that goes on from
it. -/
theorem isSpelt_of (hc : c = ms.foldl Catalog.loading Catalog.bare) (hknown : c.KnownIn C)
    (hextends : c.Extends C) : ∀ entry ∈ Parsers.of c, entry.2.IsSpelt C := by
  have hregular : c.Regular := hc ▸ Catalog.regular_loadings ms
  have hname : ∀ {key t}, c.lookup? key = some t → '.'.toUInt8 ∉ key → (C.decl t).name = key :=
    fun hfound hpoint => name_of_key (hknown _ _ hfound).2 hpoint
  have hprimitives : ∀ name ∈ primitiveNames, IsPlain name ∧ '.'.toUInt8 ∉ name ∧
      IsPlain ("*" ++ name) ∧ '.'.toUInt8 ∉ "*" ++ name := by
    decide
  have hboxed : ∀ name {t}, name ∈ primitiveNames → c.lookup? ("*" ++ name) = some t →
      IsPlain (C.decl t).name ∧ IsPlain (C.simpleName (C.decl t).unboxed) := by
    intro name t hprimitive hfound
    obtain ⟨-, -, hplain, hpoint⟩ := hprimitives name hprimitive
    refine ⟨hname hfound hpoint ▸ hplain, ?_⟩
    have hkind : (c.decl t).kind = .boxed := by
      subst hc
      exact boxed_loadings ms hprimitive hfound
    obtain ⟨p, hp, hunboxed, hbasic⟩ := hregular.boxed t hkind
    rw [hextends.unboxed t (hregular.known hfound).1, hunboxed]
    show IsPlain (C.decl p).name
    rw [hextends.name p hp]
    exact (hprimitives _ (hregular.primitive p hbasic).2).1
  have hnumbers : ∀ name {t}, name ∈ numericNames → c.lookup? name = some t →
      IsPlain (C.decl t).name := by
    intro name t hnumeric hfound
    obtain ⟨hplain, hpoint, -, -⟩ := hprimitives name (List.mem_of_mem_drop hnumeric)
    exact hname hfound hpoint ▸ hplain
  have htables : ∀ table ∈ constantTables, ∀ entry ∈ withShortNames table.2,
      IsPlain entry.2 ∧ entry.2 ≠ [] := by
    decide
  apply forall_mem_of
  · trivial
  · trivial
  · intro name hnumeric plain boxed hplain hbox
    have hnumber := hnumbers name hnumeric hplain
    exact ⟨hnumber, hnumber, rfl, hboxed name (List.mem_of_mem_drop hnumeric) hbox⟩
  · exact fun t ht => ⟨trivial, rfl, hboxed "bool" (by decide) ht⟩
  · exact fun int hint => ⟨hnumbers "int" (by decide) hint, rfl⟩
  · exact fun float unit hfloat _ => ⟨hnumbers "float64" (by decide) hfloat, rfl⟩
  · intro table htable t _ entry hentry
    obtain ⟨hplain, hne⟩ := htables table htable entry hentry
    exact Code.isArgument_of_isPlain hplain hne
  · exact fun t _ => ⟨trivial, rfl⟩
  · exact fun t _ => ⟨trivial, rfl⟩

/-- The key of the types is one under which a pair is read. -/
def IsReadAsPair (c C : Catalog) (types : List (Option TypeId)) : Prop :=
  typesKey C types = "int,int" ∨
    typesKey C types = lengthKey ∧ (c.lookup? (Library.ui "Unit")).isSome

/-- A pair is read under the two keys of pairs only. -/
theorem Parsers.Entry.readsPair_iff {entry : Text × AttributeParser} (h : Parsers.Entry c entry) :
    entry.2.readsPair = true ↔
      entry.1 = "int,int" ∨ entry.1 = lengthKey ∧ (c.lookup? (Library.ui "Unit")).isSome := by
  have hcommas : ','.toUInt8 ∈ Text.ofString "int,int" ∧ ','.toUInt8 ∈ lengthKey := by decide
  have hnumbers : Text.ofString "int,int" ∉ numericNames ∧ lengthKey ∉ numericNames := by decide
  cases h with
  | number hname _ =>
    refine ⟨nofun, ?_⟩
    rintro (rfl | ⟨rfl, -⟩)
    · exact absurd hname hnumbers.1
    · exact absurd hname hnumbers.2
  | @other key parser t hcomma _ _ hwanted _ _ =>
    have hone : parser.readsPair = false := by
      cases parser <;> first | rfl | cases hwanted
    rw [hone]
    refine ⟨nofun, ?_⟩
    rintro (rfl | ⟨rfl, -⟩)
    · exact absurd hcommas.1 hcomma
    · exact absurd hcommas.2 hcomma
  | ints => exact ⟨fun _ => Or.inl rfl, fun _ => rfl⟩
  | length _ hunit => exact ⟨fun _ => Or.inr ⟨rfl, hunit ▸ rfl⟩, fun _ => rfl⟩

theorem readsPair_get (hc : c.Regular) :
    ((Parsers.of c).get C types).readsPair = true ↔ IsReadAsPair c C types := by
  unfold Parsers.get IsReadAsPair
  cases hlookup : (Parsers.of c).lookup (typesKey C types) with
  | some parser =>
    obtain ⟨before, after, hentries, -⟩ := List.lookup_eq_some_iff.mp hlookup
    have hmem : (typesKey C types, parser) ∈ Parsers.of c :=
      hentries ▸ List.mem_append_right _ List.mem_cons_self
    exact (entry_of hc _ hmem).readsPair_iff
  | none =>
    constructor
    · intro htwo
      dsimp only at htwo
      split at htwo
      · split at htwo <;> cases htwo
      · cases htwo
    · intro hpair
      obtain ⟨parser, hmem⟩ := exists_entry hc (Or.inr hpair)
      have hne := List.lookup_eq_none_iff.mp hlookup _ hmem
      simp at hne

/-- The constants of an enumeration are written as names are. -/
theorem isSpelt_get (hc : c = ms.foldl Catalog.loading Catalog.bare) (hknown : c.KnownIn C)
    (hextends : c.Extends C)
    (hconstants : ∀ t, types = [some t] → ∀ k ∈ (C.decl t).constants, IsArgument k.ident) :
    ((Parsers.of c).get C types).IsSpelt C := by
  unfold Parsers.get
  split
  · rename_i parser hlookup
    obtain ⟨before, after, hentries, -⟩ := List.lookup_eq_some_iff.mp hlookup
    exact isSpelt_of hc hknown hextends (typesKey C types, parser)
      (hentries ▸ List.mem_append_right _ List.mem_cons_self)
  · split
    · split
      · exact hconstants _ rfl
      · trivial
    · trivial

end Chosen

end Attribute

end ViewBinder
