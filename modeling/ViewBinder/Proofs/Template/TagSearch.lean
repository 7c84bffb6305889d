-- Dotted tags. The search for the type of an imported element moves the dot between package and name
-- along the tag, but all packages and names that it tries have one key: the search is one lookup.
-- Two types that differ in where the dot stands are never told apart by a tag, and neither those that
-- everybody sees nor those of one unit have a place for both.
import Mathlib.Logic.Relation
import ViewBinder.Proofs.Attribute.Single
import ViewBinder.Proofs.Catalog.Linking
import ViewBinder.Proofs.Text.Word
import ViewBinder.Template.Namespace

namespace ViewBinder

open Work (Leads)

/-! ## One key for all cuts -/

namespace Template

open Markup (Document)

theorem cuts_ne_nil {parts : List Text} (h : parts ≠ []) : cuts parts ≠ [] := by
  cases parts with
  | nil => exact absurd rfl h
  | cons part rest => exact List.cons_ne_nil _ _

/-- A cut loses nothing and leaves something for the name. -/
theorem append_of_mem_cuts {parts : List Text} {cut : List Text × List Text}
    (h : cut ∈ cuts parts) : cut.1 ++ cut.2 = parts ∧ cut.2 ≠ [] := by
  induction parts generalizing cut with
  | nil => cases h
  | cons part rest ih =>
    rcases List.mem_cons.mp h with rfl | h
    · exact ⟨rfl, List.cons_ne_nil _ _⟩
    · obtain ⟨later, hlater, rfl⟩ := List.mem_map.mp h
      obtain ⟨hall, hname⟩ := ih hlater
      exact ⟨congrArg (part :: ·) hall, hname⟩

/-- Text in front of parts goes on as one more part. -/
theorem append_join (front : Text) {glue : Text} {parts : List Text} (h : parts ≠ []) :
    front ++ glue ++ Text.join glue parts = front ++ parts.flatMap (glue ++ ·) := by
  cases parts with
  | nil => exact absurd rfl h
  | cons part rest => rw [Text.join_cons, List.flatMap_cons, List.append_assoc, List.append_assoc]

/-- Wherever the dot stands, the key is the same. -/
theorem keyOf_cut {package name : Text} (hp : package ≠ []) {cut : List Text × List Text}
    (h : cut ∈ cuts (name.splitOn '.'.toUInt8)) :
    keyOf (Text.join "." (package :: cut.1)) (Text.join "." cut.2) = package ++ "." ++ name := by
  obtain ⟨hall, hname⟩ := append_of_mem_cuts h
  have hfront : Text.join "." (package :: cut.1) =
      package ++ cut.1.flatMap (Text.ofString "." ++ ·) := Text.join_cons _ _ _
  have hgiven : (Text.join "." (package :: cut.1)).isEmpty = false := by
    rw [hfront, List.isEmpty_eq_false_iff]
    exact List.append_ne_nil_of_left_ne_nil hp _
  have hwhole : Text.join "." (name.splitOn '.'.toUInt8) = name :=
    Text.join_splitOn '.'.toUInt8 name
  unfold keyOf
  rw [hgiven, if_neg Bool.false_ne_true, append_join _ hname, hfront, List.append_assoc,
    ← List.flatMap_append, hall, ← append_join _ (Text.splitOn_ne_nil _ _), hwhole]

theorem findSome?_constant {α β : Type} {f : α → Option β} {xs : List α} {b : Option β}
    (hxs : xs ≠ []) (h : ∀ x ∈ xs, f x = b) : xs.findSome? f = b := by
  induction xs with
  | nil => exact absurd rfl hxs
  | cons x xs ih =>
    rw [List.findSome?_cons, h x List.mem_cons_self]
    cases b with
    | some b => rfl
    | none =>
      rw [List.findSome?_eq_none_iff]
      exact fun y hy => h y (List.mem_cons_of_mem _ hy)

/-- The search is one lookup. -/
theorem findImported_eq (c : Catalog) {package : Text} (hp : package ≠ []) (name : Text) :
    findImported c package name = c.lookup? (package ++ "." ++ name) :=
  findSome?_constant (cuts_ne_nil (Text.splitOn_ne_nil _ _)) fun _ hcut =>
    congrArg c.lookup? (keyOf_cut hp hcut)

/-- An imported element has the type whose key is its package and its tag. -/
theorem typeOf_imported (c : Catalog) {d : Document} {e : Nat} {package : Text}
    (hp : package ≠ []) (huri : (d.name e).uri = Markup.importScheme ++ package) :
    typeOf c d e = match c.lookup? (package ++ "." ++ (d.name e).base) with
      | some t => .ok (some t)
      | none => .error (.noClass (d.name e).base (d.name e).uri) := by
  have hother : ∀ uri : Text, ¬ Markup.importScheme <+: uri → ((d.name e).uri == uri) = false := by
    intro uri hscheme
    rw [huri, beq_eq_false_iff_ne]
    rintro rfl
    exact hscheme (List.prefix_append _ _)
  have hbinder : d.isBinder e = false := by
    unfold Document.isBinder Markup.isBinderUri
    rw [hother _ (by decide), hother _ (by decide)]
    rfl
  have hmarkup : ((d.name e).uri.isEmpty || (d.name e).uri == Markup.markupUri) = false := by
    rw [hother _ (by decide), huri]
    rfl
  have himported : d.isImported e = true := by
    unfold Document.isImported Text.startsWith
    rw [huri, List.isPrefixOf_iff_prefix]
    exact List.prefix_append _ _
  have hpackage : (d.name e).uri.drop Markup.importScheme.length = package := by
    rw [huri, List.drop_left]
  unfold typeOf
  dsimp only
  rw [hbinder, hmarkup, himported, hpackage, findImported_eq c hp]
  rfl

end Template

namespace Catalog

/-! ## Two types of one key -/

/-- A type is added for one unit where neither the unit nor anybody has its key. -/
theorem generate_eq (c : Catalog) (d : TypeDecl) : c.generate d =
    if (c.generated.lookup d.key).isSome then .error (.generatedTwice d.key)
    else if (c.shared.lookup d.key).isSome then .error (.collides d.key)
    else .ok (c.types.size,
      { (c.push d).2 with generated := c.generated ++ [(d.key, c.types.size)] }) := by
  have hadopt : c.generate d =
      ((c.push d).2.adopt c.types.size).map fun c' => (c.types.size, c') := rfl
  rw [hadopt]
  unfold adopt
  rw [decl_push_size]
  dsimp only
  show Except.map _ (if (c.generated.lookup d.key).isSome then _ else
    if (c.shared.lookup d.key).isSome then _ else _) = _
  split
  · rfl
  · split <;> rfl

theorem generate_ok_iff {c c' : Catalog} {d : TypeDecl} {t : TypeId} :
    c.generate d = .ok (t, c') ↔ c.generated.lookup d.key = none ∧ c.shared.lookup d.key = none ∧
      t = c.types.size ∧
      c' = { (c.push d).2 with generated := c.generated ++ [(d.key, c.types.size)] } := by
  rw [generate_eq]
  cases c.generated.lookup d.key with
  | some s => simp
  | none =>
    cases c.shared.lookup d.key with
    | some s => simp
    | none => simp [eq_comm]

/-- A step that adds types, for everybody or for one unit. -/
inductive Adds (c : Catalog) : Catalog → Prop
  | registered {d : TypeDecl} {t : TypeId} {c' : Catalog} :
      (register d).runOn c = (.ok t, c') → Adds c c'
  | generated {d : TypeDecl} {t : TypeId} {c' : Catalog} : c.generate d = .ok (t, c') → Adds c c'
  | loaded (m : Manifest) : Adds c (c.loading m)

/-- The catalog after any number of such steps. -/
def Later : Catalog → Catalog → Prop := Relation.ReflTransGen Adds

/-- Keys lead where they led, for everybody and for the unit. -/
structure KeepsKeys (c c' : Catalog) : Prop where
  shared : ∀ key t, c.shared.lookup key = some t → c'.shared.lookup key = some t
  generated : ∀ key t, c.generated.lookup key = some t → c'.generated.lookup key = some t

instance : Std.Refl KeepsKeys := ⟨fun _ => ⟨fun _ _ h => h, fun _ _ h => h⟩⟩

instance : IsTrans Catalog KeepsKeys where
  trans _ _ _ h h' := ⟨fun key t hfound => h'.shared key t (h.shared key t hfound),
    fun key t hfound => h'.generated key t (h.generated key t hfound)⟩

theorem lookup_snoc {entries : List (Text × TypeId)} {key : Text} {t : TypeId}
    (h : entries.lookup key = some t) (entry : Text × TypeId) :
    (entries ++ [entry]).lookup key = some t := by
  rw [List.lookup_append, h]
  rfl

theorem lookup_new {entries : List (Text × TypeId)} {key : Text} (h : entries.lookup key = none)
    (t : TypeId) : (entries ++ [(key, t)]).lookup key = some t := by
  rw [List.lookup_append, h, List.lookup_cons_self]
  rfl

theorem keepsKeys_register (d : TypeDecl) : Leads KeepsKeys (register d) :=
  leads_register fun _ _ => ⟨fun _ _ h => lookup_snoc h _, fun _ _ h => h⟩

theorem keepsKeys_loading (c : Catalog) (m : Manifest) : KeepsKeys c (c.loading m) := by
  refine (leads_load (fun t f _ => ⟨fun c => ?_⟩) (fun d _ _ => keepsKeys_register d)
    (fun tag t => ⟨fun c => ?_⟩) m).leads c
  · exact ⟨fun _ _ h => h, fun _ _ h => h⟩
  · show KeepsKeys c (c.setDomTag tag t)
    unfold setDomTag
    split <;> exact ⟨fun _ _ h => h, fun _ _ h => h⟩

theorem Adds.keepsKeys {c c' : Catalog} (h : Adds c c') : KeepsKeys c c' := by
  cases h with
  | @registered d _ _ hrun =>
    have hlead := (keepsKeys_register d).leads c
    rwa [hrun] at hlead
  | generated hgenerate =>
    obtain ⟨-, -, -, rfl⟩ := generate_ok_iff.mp hgenerate
    exact ⟨fun _ _ h => h, fun key t h => lookup_snoc h _⟩
  | loaded m => exact keepsKeys_loading c m

theorem Later.keepsKeys {c c' : Catalog} (h : Later c c') : KeepsKeys c c' := by
  induction h with
  | refl => exact Std.Refl.refl c
  | tail _ hstep ih => exact IsTrans.trans _ _ _ ih hstep.keepsKeys

/-- What everybody has is never taken again, for anybody or for a unit. -/
theorem Later.taken {c c' : Catalog} {d : TypeDecl} {t : TypeId} (h : Later c c')
    (ht : c.shared.lookup d.key = some t) :
    (register d).runOn c' = (.error (CatalogError.registeredTwice d.key).failure, c') ∧
      ∃ error, c'.generate d = .error error := by
  have hlater := h.keepsKeys.shared _ _ ht
  refine ⟨register_taken (by rw [hlater]; exact Option.some_ne_none t), ?_⟩
  rw [generate_eq, hlater]
  split
  · exact ⟨_, rfl⟩
  · exact ⟨_, rfl⟩

/-- What a unit has it never takes again, and finds it whatever everybody has. -/
theorem Later.hidden {c c' : Catalog} {d : TypeDecl} {t : TypeId} (h : Later c c')
    (ht : c.generated.lookup d.key = some t) :
    c'.generate d = .error (.generatedTwice d.key) ∧ c'.lookup? d.key = some t := by
  have hlater := h.keepsKeys.generated _ _ ht
  rw [generate_eq, lookup?, hlater]
  exact ⟨rfl, rfl⟩

theorem resolve_ok_iff {c : Catalog} {key : Text} {t : TypeId} :
    c.resolve key = .ok t ↔ c.lookup? key = some t := by
  unfold resolve
  cases c.lookup? key <;> simp

/-- A type whose name has a dot. -/
def nested : TypeDecl :=
  { package := "example.com/app", packageName := "gen", name := "Outer.Inner", kind := .object }

/-- The type with the dot in its package. -/
def inner : TypeDecl :=
  { package := "example.com/app.Outer", packageName := "gen", name := "Inner", kind := .object }

/-- One type can be added for everybody when a unit has the other one: those who add types for
everybody do not look at what units have. -/
theorem dot_registered_on_both_sides :
    nested.key = inner.key ∧ nested.package ≠ inner.package ∧
      ∃ c₁ c₂, bare.generate nested = .ok (29, c₁) ∧ (register inner).runOn c₁ = (.ok 30, c₂) ∧
        c₂.decl 29 = nested ∧ c₂.generated.lookup nested.key = some 29 ∧
        c₂.decl 30 = inner ∧ c₂.shared.lookup inner.key = some 30 := by
  refine ⟨by decide, by decide, _, _,
    generate_ok_iff.mpr ⟨by decide, by decide, rfl, rfl⟩,
    register_ok_iff.mpr ⟨by decide, rfl, rfl⟩, ?_, ?_, ?_, ?_⟩
  all_goals decide

end Catalog

namespace Template

open Markup (Document)

/-- The type of a dotted tag is what its package and the tag lead to as one key, wherever the dot
between them stands. Of two types of that key everybody can have one only, and so can a unit, and a
unit cannot have one when everybody has the other. When a unit has one, tags find that. -/
theorem dotted_tag_is_one_lookup {c : Catalog} {d : Document} {e : Nat} {package : Text}
    (hp : package ≠ []) (huri : (d.name e).uri = Markup.importScheme ++ package) :
    (∀ t, typeOf c d e = .ok (some t) ↔
        c.resolve (package ++ "." ++ (d.name e).base) = .ok t) ∧
      ((∀ t, c.resolve (package ++ "." ++ (d.name e).base) ≠ .ok t) →
        typeOf c d e = .error (.noClass (d.name e).base (d.name e).uri)) ∧
      (∀ (e' : Nat) (package' : Text), package' ≠ [] → (d.name e').uri = Markup.importScheme ++ package' →
        package' ++ "." ++ (d.name e').base = package ++ "." ++ (d.name e).base →
        (typeOf c d e').toOption = (typeOf c d e).toOption) ∧
      ∀ first second : TypeDecl, first.key = second.key → ∀ t c₁ c₂, Catalog.Later c₁ c₂ →
        ((Catalog.register first).runOn c = (.ok t, c₁) →
          (Catalog.register second).runOn c₂ =
            (.error (CatalogError.registeredTwice second.key).failure, c₂) ∧
          ∃ error, c₂.generate second = .error error) ∧
        (c.generate first = .ok (t, c₁) →
          c₂.generate second = .error (.generatedTwice second.key) ∧
          c₂.lookup? second.key = some t) := by
  have htype := typeOf_imported c hp huri
  refine ⟨fun t => ?_, fun hnone => ?_, fun e' package' hp' huri' hkey => ?_,
    fun first second hkey t c₁ c₂ hlater => ⟨fun hrun => ?_, fun hgenerate => ?_⟩⟩
  · rw [htype, Catalog.resolve_ok_iff]
    cases c.lookup? (package ++ "." ++ (d.name e).base) <;> simp
  · rw [htype]
    cases hfound : c.lookup? (package ++ "." ++ (d.name e).base) with
    | none => rfl
    | some t => exact absurd (Catalog.resolve_ok_iff.mpr hfound) (hnone t)
  · rw [htype, typeOf_imported c hp' huri', hkey]
    cases c.lookup? (package ++ "." ++ (d.name e).base) <;> rfl
  · obtain ⟨hfree, rfl, rfl⟩ := Catalog.register_ok_iff.mp hrun
    refine hlater.taken (t := c.types.size) ?_
    rw [← hkey]
    exact Catalog.lookup_new hfree _
  · obtain ⟨hfree, -, rfl, rfl⟩ := Catalog.generate_ok_iff.mp hgenerate
    refine hlater.hidden ?_
    rw [← hkey]
    exact Catalog.lookup_new hfree _

/-- Two tags of one key, with the dot on either side of the namespace. -/
def crossedTags : Document where
  file := ⟨"", ""⟩
  nodes := #[
    { body := .element ⟨"urn:import:example.com/app", "Outer.Inner", "a"⟩ [] [1], parent := none,
      location := ⟨none, 0, 1, 1⟩ },
    { body := .element ⟨"urn:import:example.com/app.Outer", "Inner", "o"⟩ [] [], parent := some 0,
      location := ⟨none, 15, 1, 16⟩ }]

theorem crossed_tags_are_one_lookup :
    (crossedTags.name 0).uri = Markup.importScheme ++ "example.com/app" ∧
      ∃ c₁ c₂, Catalog.bare.generate Catalog.nested = .ok (29, c₁) ∧
        (Catalog.register Catalog.inner).runOn c₁ = (.ok 30, c₂) ∧
        typeOf c₂ crossedTags 0 = .ok (some 29) ∧
        (typeOf c₂ crossedTags 1).toOption = (typeOf c₂ crossedTags 0).toOption ∧
        c₂.generate Catalog.inner = .error (.generatedTwice Catalog.inner.key) := by
  have hp : Text.ofString "example.com/app" ≠ [] := by decide
  have huri : (crossedTags.name 0).uri = Markup.importScheme ++ "example.com/app" := by decide
  obtain ⟨c₁, hgenerate⟩ : ∃ c₁, Catalog.bare.generate Catalog.nested = .ok (29, c₁) :=
    ⟨_, Catalog.generate_ok_iff.mpr ⟨by decide, by decide, rfl, rfl⟩⟩
  obtain ⟨c₂, hrun⟩ : ∃ c₂, (Catalog.register Catalog.inner).runOn c₁ = (.ok 30, c₂) := by
    obtain ⟨-, -, -, rfl⟩ := Catalog.generate_ok_iff.mp hgenerate
    exact ⟨_, Catalog.register_ok_iff.mpr ⟨by decide, rfl, rfl⟩⟩
  have hlater : Catalog.Later c₁ c₂ := .single (.registered hrun)
  have hkey : Catalog.nested.key = Catalog.inner.key := by decide
  obtain ⟨-, -, -, hdots⟩ := dotted_tag_is_one_lookup (c := Catalog.bare) hp huri
  obtain ⟨htwice, hfound⟩ := (hdots _ _ hkey 29 c₁ c₂ hlater).2 hgenerate
  obtain ⟨hfirst, -, hsame, -⟩ := dotted_tag_is_one_lookup (c := c₂) hp huri
  exact ⟨huri, c₁, c₂, hgenerate, hrun, (hfirst 29).mpr (Catalog.resolve_ok_iff.mpr hfound),
    hsame 1 "example.com/app.Outer" (by decide) (by decide) (by decide), htwice⟩

end Template

end ViewBinder
