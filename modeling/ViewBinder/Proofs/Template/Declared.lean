-- Names at the top of a generated file: the binder, the bundle, a type and a constant for every
-- style, and the messages. All of them are made from the name of the binder, and only methods of one
-- type are kept apart; so a style can take the name of the bundle or of the messages.
import Mathlib.Data.List.Flatten
import ViewBinder.Proofs.Program.Generated
import ViewBinder.Proofs.Resource.Declare
import ViewBinder.Proofs.Template.Phases

namespace ViewBinder

open Markup (Document)
open Session (Run)

/-! ## The bundle and the messages of a session -/

namespace Session

/-- The types that are generated beside the binder. -/
def generated (s : Session) : List GeneratedType :=
  s.bundle.generated s.catalog ++ s.messages.generated

/-- Bundle and messages keep their names, and a tidy bundle stays tidy. -/
structure Retains (s s' : Session) : Prop where
  catalog : s.catalog.Extends s'.catalog
  lead : s'.bundle.lead = s.bundle.lead
  tidy : s.bundle.Tidy s.catalog → s'.bundle.Tidy s'.catalog
  messages : s'.messages.name = s.messages.name

theorem Run.retains {s s' : Session} (h : Run s s') : Retains s s' := by
  induction h with
  | trans _ _ ih ih' =>
    exact ⟨IsTrans.trans _ _ _ ih.catalog ih'.catalog, ih'.lead.trans ih.lead,
      fun htidy => ih'.tidy (ih.tidy htidy), ih'.messages.trans ih.messages⟩
  | draft hcalm =>
    have hextends := hcalm.step.catalog
    refine ⟨hextends, congrArg (·.lead) hcalm.bundle, fun htidy => ?_, ?_⟩
    · exact hcalm.bundle ▸ htidy.extends hextends
    · cases hcalm <;> rfl
  | resource hdeclares =>
    have hextends := hdeclares.run.catalog
    exact ⟨hextends, hdeclares.bundle.lead, hdeclares.bundle.tidy hextends,
      congrArg (·.name) hdeclares.messages⟩
  | attached _ _ ih => exact ⟨ih.catalog, ih.lead, ih.tidy, ih.messages⟩
  | declare _ _ _ _ ih => exact ⟨ih.catalog, ih.lead, ih.tidy, ih.messages⟩
  | use _ _ ih => exact ⟨ih.catalog, ih.lead, ih.tidy, ih.messages⟩
  | _ => exact ⟨Std.Refl.refl _, rfl, id, rfl⟩

end Session

namespace Template

variable {t : Template} {settings : Settings} {c : Catalog} {supply : Nat → Nat}
  {document : Document} {built s : Session} {root : FieldId} {compiled : Compiled}

/-- The bundle is tidy in the end, and is named after the binder as the messages are. -/
theorem Stages.tidy
    (h : Stages t settings (t.start c settings supply document) built s root compiled) :
    s.bundle.Tidy s.catalog ∧ s.bundle.lead = compiled.program.binderName ∧
      s.messages.name = compiled.program.binderName ++ "Messages" := by
  obtain ⟨opened, hopens, hrun⟩ := h.run
  have hretains := hrun.retains
  obtain ⟨type, hbundle⟩ := hopens.bundle
  obtain ⟨type', hmessages⟩ := hopens.messages
  have hempty : opened.bundle.Tidy opened.catalog := by
    rw [hbundle]
    exact ⟨List.nodup_nil, nofun, nofun, nofun, nofun⟩
  rw [h.finishes.bundle, h.finishes.messages, h.assembled.binderName]
  refine ⟨(hretains.tidy hempty).extends h.finishes.catalog, ?_, ?_⟩
  · rw [hretains.lead, hbundle]
    rfl
  · rw [hretains.messages, hmessages]

/-- What is declared beside the binder are the generated types of the session. -/
theorem Stages.written
    (h : Stages t settings (t.start c settings supply document) built s root compiled) :
    List.Forall₂ Toplevel.WrittenAs (s.generated.flatMap (·.declarations))
      compiled.program.extra := by
  obtain ⟨d, d', bundle, hcatalog, hbundle, -, hdeclared, -, hextra⟩ := h.assembled.bundle
  have hwritten := (Draft.bundleDeclarations_ok hdeclared).1
  rw [hbundle, hcatalog] at hwritten
  rw [hextra]
  unfold Session.generated
  rw [List.flatMap_append]
  exact List.rel_append hwritten (written_messages s.messages)

end Template

/-! ## Names that clash -/

/-- The constant for the stylesheet of a style. -/
def Bundle.sheetName (b : Bundle) (field : Text) : Text :=
  Text.uncapitalize (b.styleTypeName field) ++ "CSS"

/-- No style takes a name twice: its type is not that of the binder, of the bundle or of messages,
and its constant is that of no type and of no other style. -/
structure Bundle.Apart (b : Bundle) (ms : Messages) : Prop where
  types : ∀ x ∈ b.styles, Text.exported x.style.field ≠ [] ∧
    Text.exported x.style.field ≠ "Bundle" ∧
    (ms.declared ≠ [] → Text.exported x.style.field ≠ "Messages")
  sheets : (b.styles.map fun x => b.sheetName x.style.field).Nodup
  constants : ∀ x ∈ b.styles, b.sheetName x.style.field ≠ b.lead ∧
    ∀ y ∈ b.styles, b.sheetName x.style.field ≠ b.styleTypeName y.style.field

/-- Texts that end differently differ. -/
theorem Text.append_ne {t u a b : Text} (h : a.getLast? ≠ b.getLast?) (ha : a ≠ []) (hb : b ≠ []) :
    t ++ a ≠ u ++ b := by
  intro heq
  have hlast := congrArg List.getLast? heq
  rw [List.getLast?_append_of_ne_nil _ ha, List.getLast?_append_of_ne_nil _ hb] at hlast
  exact h hlast

namespace Bundle

variable {c : Catalog} {b : Bundle} {ms : Messages}

/-- The types of styles have names of their own, since their methods have. -/
theorem Tidy.nodup_types (h : b.Tidy c) :
    (b.styles.map fun x => b.styleTypeName x.style.field).Nodup := by
  have hmethods : (b.styles.map (·.method)).Nodup := (List.nodup_append.mp h.methods).1
  have hnames : (b.styles.map fun x => b.styleTypeName x.style.field) =
      (b.styles.map (·.method)).map (b.lead ++ ·) := by
    rw [List.map_map]
    refine List.map_congr_left fun x hx => ?_
    rw [Function.comp_apply, h.method x hx]
    rfl
  rw [hnames]
  exact hmethods.map fun _ _ => List.append_cancel_left

theorem Tidy.names (h : b.Tidy c) (hsize : b.size ≠ 0) :
    ((b.generated c).flatMap (·.names)).Perm (b.name ::
      ((b.styles.map fun x => b.styleTypeName x.style.field) ++
        b.styles.map fun x => b.sheetName x.style.field)) := by
  have hstyles : b.styles.flatMap (fun x => (x.generated (c.decl x.type).name).names) =
      b.styles.flatMap fun x =>
        b.styleTypeName x.style.field :: [b.sheetName x.style.field] := by
    refine List.flatMap_congr fun x hx => ?_
    rw [(h.type x hx).2]
    rfl
  unfold generated
  rw [if_neg (by simpa using hsize), List.flatMap_cons, List.flatMap_map, hstyles]
  refine List.Perm.cons _ ?_
  have hsheets : (b.styles.map fun x => b.sheetName x.style.field) =
      b.styles.flatMap fun x => [b.sheetName x.style.field] := List.map_eq_flatMap
  rw [hsheets]
  exact (List.map_append_flatMap_perm ..).symm

theorem lead_ne_append {t : Text} (lead : Text) (h : t ≠ []) : lead ≠ lead ++ t := fun heq =>
  h (List.self_eq_append_right.mp heq)

/-- The names at the top of the file in another order: the binder, the bundle, the types and the
constants of styles, and the messages. -/
def topNames (b : Bundle) (ms : Messages) : List Text :=
  b.lead :: b.name ::
    ((b.styles.map fun x => b.styleTypeName x.style.field) ++
      (b.styles.map fun x => b.sheetName x.style.field) ++
      if ms.declared = [] then [] else [b.lead ++ "Messages"])

/-- If no name is taken twice, styles keep apart from all others. -/
theorem apart_of_nodup (h : (b.topNames ms).Nodup) : b.Apart ms := by
  unfold topNames at h
  rw [List.nodup_cons, List.nodup_cons] at h
  obtain ⟨hlead, hbundle, hrest⟩ := h
  obtain ⟨hstyles, -, hlast⟩ := List.nodup_append.mp hrest
  obtain ⟨-, hsheets, happart⟩ := List.nodup_append.mp hstyles
  simp only [List.mem_cons, List.mem_append, List.mem_map, not_or] at hlead hbundle
  refine ⟨fun x hx => ⟨fun heq => ?_, fun heq => ?_, fun hdeclared heq => ?_⟩, hsheets,
    fun x hx => ⟨fun heq => ?_, fun y hy heq => ?_⟩⟩
  · refine hlead.2.1.1 ⟨x, hx, ?_⟩
    rw [styleTypeName, heq, List.append_nil]
  · refine hbundle.1.1 ⟨x, hx, ?_⟩
    rw [styleTypeName, heq, name]
  · refine hlast (b.styleTypeName x.style.field) ?_ (b.lead ++ "Messages") ?_ ?_
    · exact List.mem_append_left _ (List.mem_map_of_mem hx)
    · rw [if_neg hdeclared]
      exact List.mem_singleton_self _
    · rw [styleTypeName, heq]
  · exact hlead.2.1.2 ⟨x, hx, heq⟩
  · exact happart _ (List.mem_map_of_mem hy) _ (List.mem_map_of_mem hx) heq.symm

/-- Where styles keep apart, no name is taken twice. -/
theorem Apart.nodup (hapart : b.Apart ms) (h : b.Tidy c) : (b.topNames ms).Nodup := by
  have htype : ∀ x ∈ b.styles, ∀ t, Text.exported x.style.field ≠ t →
      b.styleTypeName x.style.field ≠ b.lead ++ t := fun x _ t hne heq =>
    hne (List.append_cancel_left heq)
  have hmessage : ∀ a ∈ (if ms.declared = [] then [] else [b.lead ++ "Messages"] : List Text),
      ms.declared ≠ [] ∧ a = b.lead ++ "Messages" := by
    intro a ha
    split at ha
    · cases ha
    · rename_i hdeclared
      exact ⟨hdeclared, List.mem_singleton.mp ha⟩
  unfold topNames
  rw [List.nodup_cons, List.nodup_cons]
  refine ⟨?_, ?_, List.nodup_append.mpr ⟨List.nodup_append.mpr ⟨h.nodup_types, hapart.sheets,
    ?_⟩, ?_, ?_⟩⟩
  · -- the binder
    rw [List.mem_cons, not_or]
    refine ⟨lead_ne_append b.lead (by decide), fun hmem => ?_⟩
    rcases List.mem_append.mp hmem with hstyle | hlast
    · rcases List.mem_append.mp hstyle with htaken | htaken
      · obtain ⟨x, hx, heq⟩ := List.mem_map.mp htaken
        exact htype x hx [] (hapart.types x hx).1 (heq.trans (List.append_nil _).symm)
      · obtain ⟨x, hx, heq⟩ := List.mem_map.mp htaken
        exact (hapart.constants x hx).1 heq
    · exact lead_ne_append b.lead (by decide) (hmessage _ hlast).2
  · -- the bundle
    intro hmem
    rcases List.mem_append.mp hmem with hstyle | hlast
    · rcases List.mem_append.mp hstyle with htaken | htaken
      · obtain ⟨x, hx, heq⟩ := List.mem_map.mp htaken
        exact htype x hx "Bundle" (hapart.types x hx).2.1 heq
      · obtain ⟨x, hx, heq⟩ := List.mem_map.mp htaken
        exact Text.append_ne (by decide) (by decide) (by decide) heq
    · have heq := List.append_cancel_left (hmessage _ hlast).2
      exact absurd heq (by decide)
  · -- types and constants of styles
    intro _ hfirst _ hsecond heq
    obtain ⟨y, hy, rfl⟩ := List.mem_map.mp hfirst
    obtain ⟨x, hx, rfl⟩ := List.mem_map.mp hsecond
    exact (hapart.constants x hx).2 y hy heq.symm
  · split <;> simp
  · -- the messages
    intro a hstyle m hlast heq
    obtain ⟨hdeclared, rfl⟩ := hmessage m hlast
    rcases List.mem_append.mp hstyle with htaken | htaken
    · obtain ⟨x, hx, rfl⟩ := List.mem_map.mp htaken
      exact htype x hx "Messages" ((hapart.types x hx).2.2 hdeclared) heq
    · obtain ⟨x, hx, rfl⟩ := List.mem_map.mp htaken
      exact Text.append_ne (by decide) (by decide) (by decide) heq

/-- The names at the top of the file are distinct exactly if no style takes one of them. -/
theorem nodup_names_iff (h : b.Tidy c) (hname : ms.name = b.lead ++ "Messages") :
    (b.lead :: (b.generated c ++ ms.generated).flatMap (·.names)).Nodup ↔ b.Apart ms := by
  have hmessages : ms.generated.flatMap (·.names) =
      if ms.declared = [] then [] else [b.lead ++ "Messages"] := by
    unfold Messages.generated
    simp only [List.isEmpty_iff]
    split
    · rfl
    · rw [List.flatMap_singleton, ← hname]
      rfl
  rw [List.flatMap_append, hmessages]
  by_cases hsize : b.size = 0
  · -- without resources there is no style, and no bundle is declared
    have hstyles : b.styles = [] :=
      List.length_eq_zero_iff.mp (Nat.eq_zero_of_add_eq_zero_right hsize)
    have hempty : b.generated c = [] := by
      unfold generated
      rw [if_pos (by simpa using hsize)]
    have hapart : b.Apart ms := by
      refine ⟨?_, ?_, ?_⟩ <;> simp [hstyles]
    refine iff_of_true ?_ hapart
    rw [hempty]
    split
    · simp
    · simpa using lead_ne_append b.lead (by decide)
  · have hperm := ((h.names hsize).append_right
      (if ms.declared = [] then [] else [b.lead ++ "Messages"])).cons b.lead
    rw [hperm.nodup_iff]
    exact ⟨apart_of_nodup, fun hapart => hapart.nodup h⟩

/-! ## Binders with a capital -/

/-- A name that begins with a capital begins with the small letter as a constant. -/
theorem uncapitalize_of_isUpperByte {x : UInt8} (hx : Text.isUpperByte x = true) (rest : Text) :
    Text.uncapitalize (x :: rest) = (x + 32) :: rest := by
  have hbounds : 65 ≤ x.toNat ∧ x.toNat ≤ 90 := by
    simp only [Text.isUpperByte, Bool.and_eq_true, decide_eq_true_eq] at hx
    exact ⟨UInt8.le_iff_toNat_le.mp hx.1, UInt8.le_iff_toNat_le.mp hx.2⟩
  have hascii : x < 0x80 := UInt8.lt_iff_toNat_lt.mpr (Nat.lt_of_le_of_lt hbounds.2 (by decide))
  have hlower : Text.lowerCode x.toNat = x.toNat + 32 := by
    unfold Text.lowerCode
    rw [if_pos (by omega), if_pos (by simpa using hbounds)]
  have hbyte : Text.encodeRune (x.toNat + 32) = [x + 32] := by
    unfold Text.encodeRune
    rw [if_pos (by omega), List.singleton_inj, ← UInt8.toNat_inj]
    rw [Text.toNat_toUInt8 (by omega), UInt8.toNat_add]
    show _ = (x.toNat + 32) % 256
    omega
  unfold Text.uncapitalize
  rw [Text.decodeHead_ascii x rest hascii]
  show Text.encodeRune (Text.lowerCode x.toNat) ++ rest = _
  rw [hlower, hbyte]
  rfl

/-- Where the binder begins with a capital, only types of styles can clash. -/
theorem apart_iff_of_capital (h : b.Tidy c) {x : UInt8} {rest : Text} (hlead : b.lead = x :: rest)
    (hx : Text.isUpperByte x = true) :
    b.Apart ms ↔ ∀ x ∈ b.styles, Text.exported x.style.field ≠ [] ∧
      Text.exported x.style.field ≠ "Bundle" ∧
        (ms.declared ≠ [] → Text.exported x.style.field ≠ "Messages") := by
  have hsheet : ∀ field, b.sheetName field = (x + 32) :: (rest ++ Text.exported field ++ "CSS") := by
    intro field
    unfold sheetName styleTypeName
    rw [hlead, List.cons_append, uncapitalize_of_isUpperByte hx]
    rfl
  have hne : x + 32 ≠ x := by
    intro heq
    have := congrArg UInt8.toNat heq
    rw [UInt8.toNat_add] at this
    have hbound := x.toNat_lt
    change (x.toNat + 32) % 256 = _ at this
    omega
  refine ⟨fun hapart => hapart.types, fun htypes => ⟨htypes, ?_, fun y _ => ⟨?_, fun z _ => ?_⟩⟩⟩
  · have hnames : (b.styles.map fun y => b.sheetName y.style.field) =
        (b.styles.map (·.method)).map fun m => (x + 32) :: (rest ++ m ++ "CSS") := by
      rw [List.map_map]
      refine List.map_congr_left fun y hy => ?_
      rw [hsheet, Function.comp_apply, h.method y hy]
    rw [hnames]
    refine (List.nodup_append.mp h.methods).1.map fun m m' heq => ?_
    exact List.append_cancel_left (List.append_cancel_right (List.cons.inj heq).2)
  · rw [hsheet, hlead]
    exact fun heq => hne (List.cons.inj heq).1
  · rw [hsheet, styleTypeName, hlead]
    exact fun heq => hne (List.cons.inj heq).1

end Bundle

/-! ## The whole file -/

theorem Messages.nodup_methodName (n : Nat) : ((List.range n).map methodName).Nodup := by
  refine List.nodup_range.map fun i j heq => ?_
  have hdigits := congrArg Text.digitsValue (List.append_cancel_left heq)
  rw [Text.digitsValue_ofNat, Text.digitsValue_ofNat] at hdigits
  exact Nat.succ.inj hdigits

namespace Template

/-- Beside the binder a program declares the types of its bundle and of its messages, and the
methods of each are distinct. The binder, the types and the constants have names of their own
exactly if no style takes the name of another. -/
theorem generated_names_clash_iff {t : Template} {c : Catalog} {settings : Settings}
    {supply : Nat → Nat} {document : Document} {compiled : Compiled} {s : Session}
    (hsupply : Function.Injective supply)
    (h : (t.compileDocument settings).runOn (t.start c settings supply document) =
      (.ok compiled, s)) :
    List.Forall₂ Toplevel.WrittenAs (s.generated.flatMap (·.declarations))
        compiled.program.extra ∧
      (∀ g ∈ s.generated, g.methods.Nodup) ∧
      ((compiled.program.binderName :: s.generated.flatMap (·.names)).Nodup ↔
        s.bundle.Apart s.messages) := by
  obtain ⟨built, root, hstages⟩ := compileDocument_stages hsupply h
  obtain ⟨htidy, hlead, hmessages⟩ := hstages.tidy
  refine ⟨hstages.written, fun g hg => ?_, ?_⟩
  · rcases List.mem_append.mp hg with hbundle | hmessage
    · unfold Bundle.generated at hbundle
      split at hbundle
      · cases hbundle
      · rcases List.mem_cons.mp hbundle with rfl | hstyle
        · exact htidy.methods
        · obtain ⟨x, hx, rfl⟩ := List.mem_map.mp hstyle
          exact htidy.classes x hx
    · unfold Messages.generated at hmessage
      split at hmessage
      · cases hmessage
      · rw [List.mem_singleton.mp hmessage]
        exact Messages.nodup_methodName _
  · rw [← hlead] at hmessages ⊢
    exact Bundle.nodup_names_iff htidy hmessages

/-! ## Types of one file and of another -/

/-- The types that the file of a program declares: the binder, and what is generated beside it. -/
def declaredTypes (p : Program) (s : Session) : List Text :=
  p.binderName :: s.generated.map (·.name)

/-- Every type of a file is named after the binder. -/
theorem binderName_prefix {t : Template} {c : Catalog} {settings : Settings}
    {supply : Nat → Nat} {document : Document} {compiled : Compiled} {s : Session}
    (hsupply : Function.Injective supply)
    (h : (t.compileDocument settings).runOn (t.start c settings supply document) =
      (.ok compiled, s)) {name : Text} (hname : name ∈ declaredTypes compiled.program s) :
    compiled.program.binderName <+: name := by
  obtain ⟨built, root, hstages⟩ := compileDocument_stages hsupply h
  obtain ⟨htidy, hlead, hmessages⟩ := hstages.tidy
  rcases List.mem_cons.mp hname with rfl | hbeside
  · exact List.prefix_refl _
  obtain ⟨g, hg, rfl⟩ := List.mem_map.mp hbeside
  rw [← hlead]
  rcases List.mem_append.mp hg with hbundle | hmessage
  · unfold Bundle.generated at hbundle
    split at hbundle
    · cases hbundle
    · rcases List.mem_cons.mp hbundle with rfl | hstyle
      · exact List.prefix_append _ _
      · obtain ⟨x, hx, rfl⟩ := List.mem_map.mp hstyle
        show s.bundle.lead <+: (s.catalog.decl x.type).name
        rw [(htidy.type x hx).2]
        exact List.prefix_append _ _
  · unfold Messages.generated at hmessage
    split at hmessage
    · cases hmessage
    · rw [List.mem_singleton.mp hmessage]
      show s.bundle.lead <+: s.messages.name
      rw [hmessages, hlead]
      exact List.prefix_append _ _

/-! ## A style with the name of the bundle -/

/-- A style whose type is called like the bundle. -/
def bundleStyle : Template :=
  { source := "<ui:UiBinder xmlns:ui=\"urn:ui:uibind\" xmlns:g=\"urn:import:uibind.dev/ui\">" ++
      "<ui:style field=\"bundle\">.a\x7b\x7d</ui:style><g:Label/></ui:UiBinder>",
    url := "View.ui.xml" }

theorem bundleStyle_compiles : ∃ document compiled s,
    Document.load bundleStyle.source bundleStyle.url = .ok document ∧
      (bundleStyle.compileDocument sampleSettings).runOn
        (bundleStyle.start sampleCatalog sampleSettings (· + 1) document) = (.ok compiled, s) ∧
      s.generated.map (·.name) = [Text.ofString "ViewBinderBundle", "ViewBinderBundle"] := by
  have h : bundleStyle.succeeds (fun document =>
      (bundleStyle.compileDocument sampleSettings).runOn
        (bundleStyle.start sampleCatalog sampleSettings (· + 1) document))
      (fun _ _ s => s.generated.map (·.name) ==
        [Text.ofString "ViewBinderBundle", "ViewBinderBundle"]) = true := by
    decide +kernel
  obtain ⟨document, compiled, s, hload, hrun, htest⟩ := exists_of_succeeds h
  exact ⟨document, compiled, s, hload, hrun, beq_iff_eq.mp htest⟩

/-- What is known of the generated types of that program. -/
theorem generated_names_of_bundleStyle : ∃ document compiled s,
    Function.Injective (· + 1 : Nat → Nat) ∧
      (bundleStyle.compileDocument sampleSettings).runOn
        (bundleStyle.start sampleCatalog sampleSettings (· + 1) document) = (.ok compiled, s) ∧
      List.Forall₂ Toplevel.WrittenAs (s.generated.flatMap (·.declarations))
        compiled.program.extra ∧
      (∀ g ∈ s.generated, g.methods.Nodup) ∧
      ((compiled.program.binderName :: s.generated.flatMap (·.names)).Nodup ↔
        s.bundle.Apart s.messages) := by
  obtain ⟨document, compiled, s, -, hrun, -⟩ := bundleStyle_compiles
  have hsupply : Function.Injective (· + 1 : Nat → Nat) := fun _ _ h => Nat.succ.inj h
  exact ⟨document, compiled, s, hsupply, hrun, generated_names_clash_iff hsupply hrun⟩

/-- The file declares the type of the bundle twice. -/
theorem bundleStyle_declares_a_type_twice : ∃ document compiled s,
    Document.load bundleStyle.source bundleStyle.url = .ok document ∧
      (bundleStyle.compileDocument sampleSettings).runOn
        (bundleStyle.start sampleCatalog sampleSettings (· + 1) document) = (.ok compiled, s) ∧
      List.Forall₂ Toplevel.WrittenAs (s.generated.flatMap (·.declarations))
        compiled.program.extra ∧
      ¬ (compiled.program.binderName :: s.generated.flatMap (·.names)).Nodup := by
  obtain ⟨document, compiled, s, hload, hrun, hnames⟩ := bundleStyle_compiles
  have hsupply : Function.Injective (· + 1 : Nat → Nat) := fun _ _ h => Nat.succ.inj h
  obtain ⟨built, root, hstages⟩ := compileDocument_stages hsupply hrun
  refine ⟨document, compiled, s, hload, hrun, hstages.written, fun hnodup => ?_⟩
  have hsub : (s.generated.map (·.name)).Sublist (s.generated.flatMap (·.names)) := by
    rw [List.map_eq_flatMap]
    exact List.Sublist.flatMap_right _ fun g _ => List.singleton_sublist.mpr List.mem_cons_self
  have htwice := hsub.nodup hnodup.of_cons
  rw [hnames] at htwice
  exact absurd htwice (by decide)

end Template

end ViewBinder
