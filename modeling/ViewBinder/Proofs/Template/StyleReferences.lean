-- What stays while a template is read: in the run that builds the fields, when the owner is bound
-- behind that, and up to the settling of references. The types of the catalog are described as they
-- were before. What a style declares stays as well, so a reference that is settled gives the name
-- under which its class stands in the stylesheet.
import ViewBinder.Proofs.Catalog.Closed
import ViewBinder.Proofs.Session.Styles
import ViewBinder.Proofs.Template.Crash
import ViewBinder.Proofs.Template.Stages

namespace ViewBinder

open Markup (Document)
open Work (Keeps)

/-! ## Going on with a template -/

namespace Session

/-- What can happen to a session while its template is read: a run, a field that is marked as read,
statements that bind the owner, and references that are settled. -/
inductive Moves (s : Session) : Session → Prop
  | run {s' : Session} : Run s s' → Moves s s'
  | mark (id : FieldId) : Moves s { s with fields := s.fields.change id ({ · with used := true }) }
  | bind {s' : Session} : Binds s s' → Moves s s'
  | settle {d : Draft} : Draft.Settles s.toDraft d → Moves s { s with toDraft := d }

/-- A session comes after another one while a template is read. -/
def Onward : Session → Session → Prop := Relation.ReflTransGen Moves

theorem Moves.onward {s s' : Session} (h : Moves s s') : Onward s s' :=
  Relation.ReflTransGen.single h

theorem Onward.trans {s s' s'' : Session} (h : Onward s s') (h' : Onward s' s'') : Onward s s'' :=
  Relation.ReflTransGen.trans h h'

theorem Moves.typesStay {s s' : Session} (h : Moves s s') :
    Draft.TypesStay s.toDraft s'.toDraft := by
  cases h with
  | run hrun => exact hrun.typesStay
  | mark _ => exact ⟨Nat.le_refl _, rfl, rfl, fun _ _ _ _ => rfl⟩
  | bind hbinds => exact .of_same hbinds.catalog hbinds.bundle hbinds.messages
  | settle hsettles => exact .of_same hsettles.catalog hsettles.bundle hsettles.messages

/-- Types stay as they are all the while, but for those of the bundle and of the messages. -/
theorem Onward.typesStay {s s' : Session} (h : Onward s s') :
    Draft.TypesStay s.toDraft s'.toDraft := by
  induction h with
  | refl => exact Std.Refl.refl _
  | tail _ hmoves ih => exact IsTrans.trans _ _ _ ih hmoves.typesStay

end Session

namespace Template

/-- The session in which references begin to be settled comes after the one that gathers what the
template declares. -/
theorem gather_onward {root : Nat} {s s' : Session} {f : FieldId}
    (h : (gather root).runOn s = (.ok f, s')) : Session.Onward s s' := by
  obtain ⟨built, ui, hrun, -, hbind⟩ := gather_ok h
  obtain ⟨hbinds, -⟩ := Binding.bindOwner_ok hbind
  exact (Session.Moves.run hrun).onward.trans
    ((Session.Moves.mark f).onward.trans (Session.Moves.bind hbinds).onward)

theorem gather_reaches {root : Nat} {s s' : Session} {f : FieldId}
    (h : (gather root).runOn s = (.ok f, s')) : Session.Reaches s s' := by
  obtain ⟨built, ui, hrun, -, hbind⟩ := gather_ok h
  obtain ⟨hbinds, -⟩ := Binding.bindOwner_ok hbind
  exact hrun.reaches.trans ((Session.reaches_change .use).trans hbinds.reaches)

/-- So does the one in which they are settled. -/
theorem read_onward {root : Nat} {s s' : Session} {f : FieldId} (hsound : s.Sound)
    (h : (read root).runOn s = (.ok f, s')) : Session.Onward s s' := by
  unfold read at h
  obtain ⟨f', gathered, hgather, h⟩ := Work.bind_ok h
  obtain ⟨_, settled, hsettle, h⟩ := Work.bind_ok h
  obtain ⟨_, checked, hfail, h⟩ := Work.bind_ok h
  cases h
  obtain ⟨rfl, -⟩ := failIfReported_ok hfail
  obtain ⟨d, hd, rfl⟩ := Session.lift_ok hsettle
  have hgathered := (gather_reaches hgather).sound hsound
  obtain ⟨hsettles, -⟩ :=
    Draft.settleReferences_ok (hgathered.marked.apart hgathered.supply) hd
  exact (gather_onward hgather).trans (Session.Moves.settle hsettles).onward

/-! ## Descriptors -/

/-- A template adds types of its own; those of the catalog are declared as before. -/
theorem repeated_onward {t : Template} {c : Catalog} {settings : Settings} {supply : Nat → Nat}
    {document : Document} {s : Session}
    (h : Session.Onward (t.opened settings (t.start c settings supply document)) s) :
    c.Repeated s.catalog := by
  have hopened : (t.opened settings (t.start c settings supply document)).bundle.type =
      some c.types.size := rfl
  have hmessages : (t.opened settings (t.start c settings supply document)).messages.type =
      some (c.types.size + 1) := congrArg some (Catalog.size_push c _)
  have hsize : c.types.size ≤
      (t.opened settings (t.start c settings supply document)).catalog.types.size := by
    show _ ≤ ((c.push _).2.push _).2.types.size
    rw [Catalog.size_push, Catalog.size_push]
    omega
  have hstay := h.typesStay
  refine ⟨Nat.le_trans hsize hstay.size, fun type htype => ?_⟩
  rw [hstay.decl type (Nat.lt_of_lt_of_le htype hsize) (fun hsame => ?_) fun hsame => ?_]
  · exact (Catalog.decl_push (Nat.lt_of_lt_of_eq (Nat.lt_succ_of_lt htype)
      (Catalog.size_push c _).symm) _).trans (Catalog.decl_push htype _)
  · rw [hopened, Option.some_inj] at hsame
    omega
  · rw [hmessages, Option.some_inj] at hsame
    omega

end Template

/-! ## References to classes -/

namespace Session

/-- A style that fulfils no interface gives each class of its stylesheet an accessor and a name of
its own, and they agree. As long as the template is read, a reference through the field of the style
to the class leads to the accessor; it may be made in an attribute unless the class starts with a
dash. -/
theorem style_references_give_the_classes {s : Session} {d : Draft} {place : Option Location}
    {style : Style} {type text : TypeId} {method : Text} (hhoused : s.Housed)
    (htext : s.catalog.find? [] "string" = some text) (hplain : style.type = none)
    (h : (Draft.declareStyle place style).runOn s.toDraft = (.ok (type, method), d)) :
    ∃ x css, d.bundle.styles = s.bundle.styles ++ [x] ∧ x.style = style ∧ x.type = type ∧
      s.bundle.styleText style = .ok css ∧ x.sheet = Stylesheet.parse css ∧ x.Agrees ∧
      ('.'.toUInt8 ∉ style.field → ∀ k ∈ x.classes,
        Segment.isLegalPath (style.field ++ "." ++ k.name) =
          (Segment.isLegalPath style.field && !Text.startsWith k.name "-") ∧
        ∀ s' r id, Onward { s with toDraft := d } s' → r.path = style.field ++ "." ++ k.name →
          s'.fields.find? style.field = some id → (s'.fields.field id).type = some type →
            s'.target r = .ok (id, some text,
              (s'.fields.field id).name ++ "." ++ Text.exported k.name ++ "()")) := by
  obtain ⟨css, classes, hread, hclasses, hstyles, hnew, hlt, -, hmethods⟩ :=
    Draft.declareStyle_ok hplain hhoused h
  have hstay : Draft.TypesStay s.toDraft d := Work.Keeps.keeps h
  have hlead := Resource.isNameByte_fingerprint
    (s.bundle.package ++ "." ++ s.bundle.name ++ "." ++ style.field)
  have hagrees := BundledStyle.agrees_of_bundled (x := ⟨style, method, Stylesheet.parse css, classes,
    type⟩) rfl hlead hclasses
  refine ⟨_, css, hstyles, rfl, rfl, hread, rfl, hagrees, fun hfield k hk => ?_⟩
  have hclass : k.name ∈ Stylesheet.classesOf (Stylesheet.stripComments css) := by
    rw [← show _ = Stylesheet.classesOf _ from hagrees.names]
    exact List.mem_map_of_mem hk
  obtain ⟨hne, hname⟩ := Stylesheet.name_of_mem_classesOf hclass
  refine ⟨Segment.isLegalPath_class hfield hne hname, fun s' r id honward hpath hfind htype => ?_⟩
  have hdot : '.'.toUInt8 ∉ k.name := by
    intro hmem
    exact absurd (List.all_eq_true.mp hname _ hmem) (by decide)
  have hdecl : s'.catalog.decl type = d.catalog.decl type := by
    refine honward.typesStay.decl type hlt (fun hsame => ?_) fun hsame => ?_
    · exact absurd (hhoused.bundle _ (hstay.bundle ▸ hsame)) (Nat.not_lt.mpr hnew)
    · exact absurd (hhoused.messages _ (hstay.messages ▸ hsame)) (Nat.not_lt.mpr hnew)
  have hnodup : ((s'.catalog.decl type).methods.map (·.name)).Nodup := by
    rw [hdecl, hmethods]
    exact Draft.nodup_styleMethods (Bundle.bundleClasses_nodup hclasses (by decide))
  have hgetter : s'.catalog.getter? (s'.fields.field id).type k.name =
      some ⟨k.accessor, [], some text, some type⟩ := by
    rw [htype]
    refine Catalog.getter?_of_mem hnodup ?_ (hagrees.accessor k hk) rfl rfl
    rw [hdecl, hmethods]
    unfold Draft.styleMethods
    rw [htext]
    exact List.mem_cons_of_mem _ (List.mem_cons_of_mem _ (List.mem_map.mpr ⟨k, hk, rfl⟩))
  rw [← hagrees.accessor k hk]
  exact Draft.target_getter hfield hdot hpath hfind hgetter

/-! ## A style with odd names -/

/-- A style whose classes are called in different ways. -/
def classyStyle : Style :=
  { field := "style", css := ".my-class, .B2 \x7b\x7d a.my-class:hover \x7b\x7d" }

theorem declares_classyStyle : ∃ type method d,
    (Draft.declareStyle none classyStyle).runOn openSession.toDraft = (.ok (type, method), d) := by
  have h : ((Draft.declareStyle none classyStyle).runOn openSession.toDraft).1.isOk = true := by
    decide
  rcases hrun : (Draft.declareStyle none classyStyle).runOn openSession.toDraft with ⟨_ | ⟨type, method⟩, d⟩
  · rw [hrun] at h
    cases h
  · exact ⟨type, method, d, rfl⟩

/-- What is known of that style. -/
theorem references_to_classyStyle : ∃ type text method d x css,
    openSession.Housed ∧ openSession.catalog.find? [] "string" = some text ∧
      classyStyle.type = none ∧
      (Draft.declareStyle none classyStyle).runOn openSession.toDraft = (.ok (type, method), d) ∧
      d.bundle.styles = openSession.bundle.styles ++ [x] ∧ x.style = classyStyle ∧ x.type = type ∧
      openSession.bundle.styleText classyStyle = .ok css ∧ x.sheet = Stylesheet.parse css ∧
      x.Agrees ∧
      ('.'.toUInt8 ∉ classyStyle.field → ∀ k ∈ x.classes,
        Segment.isLegalPath (classyStyle.field ++ "." ++ k.name) =
          (Segment.isLegalPath classyStyle.field && !Text.startsWith k.name "-") ∧
        ∀ s' r id, Onward { openSession with toDraft := d } s' →
          r.path = classyStyle.field ++ "." ++ k.name →
          s'.fields.find? classyStyle.field = some id → (s'.fields.field id).type = some type →
            s'.target r = .ok (id, some text,
              (s'.fields.field id).name ++ "." ++ Text.exported k.name ++ "()")) := by
  obtain ⟨type, method, d, hrun⟩ := declares_classyStyle
  have htext : openSession.catalog.find? [] "string" = some 2 := by decide
  obtain ⟨x, css, hknown⟩ :=
    style_references_give_the_classes housed_openSession htext rfl hrun
  exact ⟨type, 2, method, d, x, css, housed_openSession, htext, rfl, hrun, hknown⟩

/-- A field with a dot in its name, a class with a dash in front, and a class in an at-rule. -/
def oddStyle : Style := { field := "a.b", css := "@scope (.b) \x7b.b\x7b\x7d .-a\x7b\x7d\x7d" }

/-- What a test finds when the style was declared and its field registered. -/
def oddly (test : Draft → BundledStyle → Bool) : Bool :=
  match (Draft.declareStyle none oddStyle).runOn openSession.toDraft with
  | (.ok (type, _), d) =>
    match d.fields.register d.catalog .style (some type) oddStyle.field, d.bundle.styles with
    | .ok (_, fields), [x] => test { d with fields } x
    | _, _ => false
  | _ => false

theorem exists_of_oddly {test : Draft → BundledStyle → Bool} (h : oddly test = true) :
    ∃ type method d x id fields,
      (Draft.declareStyle none oddStyle).runOn openSession.toDraft = (.ok (type, method), d) ∧
        d.fields.register d.catalog .style (some type) oddStyle.field = .ok (id, fields) ∧
        d.bundle.styles = [x] ∧ test { d with fields } x = true := by
  unfold oddly at h
  split at h
  · rename_i type method d hrun
    split at h
    · rename_i id fields x hregister hstyles
      exact ⟨type, method, d, x, id, fields, hrun, hregister, hstyles, h⟩
    · cases h
  · cases h

/-- The style is declared with two classes. A reference through its field leads nowhere, one to the
class with the dash cannot even be made, and in the at-rule the class keeps its name. -/
theorem oddStyle_is_not_referred_to : ∃ type method d x id fields,
    (Draft.declareStyle none oddStyle).runOn openSession.toDraft = (.ok (type, method), d) ∧
      d.fields.register d.catalog .style (some type) oddStyle.field = .ok (id, fields) ∧
      d.bundle.styles = [x] ∧ x.sheet.classes = [Text.ofString "b", "-a"] ∧
      (Draft.target { d with fields } ⟨0, "a.b.b", [], []⟩).toOption = none ∧
      ((Attribute.parse (.strict []) 0 "\x7ba.b.-a\x7d").runOn
        { d with fields }).1.toOption = none ∧
      x.css = "@scope (.b) \x7b.G199BGZW-b\x7b\x7d .G199BGZW--a\x7b\x7d\x7d" := by
  have h : oddly (fun d x => x.sheet.classes == [Text.ofString "b", "-a"] &&
      (d.target ⟨0, "a.b.b", [], []⟩).toOption == none &&
      ((Attribute.parse (.strict []) 0 "\x7ba.b.-a\x7d").runOn d).1.toOption == none &&
      x.css == "@scope (.b) \x7b.G199BGZW-b\x7b\x7d .G199BGZW--a\x7b\x7d\x7d") = true := by
    decide +kernel
  obtain ⟨type, method, d, x, id, fields, hrun, hregister, hstyles, htest⟩ := exists_of_oddly h
  simp only [Bool.and_eq_true, beq_iff_eq] at htest
  obtain ⟨⟨⟨hclasses, htarget⟩, hparse⟩, hcss⟩ := htest
  exact ⟨type, method, d, x, id, fields, hrun, hregister, hstyles, hclasses, htarget, hparse, hcss⟩

end Session

end ViewBinder
