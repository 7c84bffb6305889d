-- Templates and the numbers of markers: compiling a template follows the numbers, from its
-- directives to the text of the program. What comes out depends on the numbers its own markers
-- were given and on nothing else that other templates have a part in.
import ViewBinder.Compile
import ViewBinder.Proofs.Numbering.Element
import ViewBinder.Proofs.Template.Crash
import ViewBinder.Proofs.Template.Directives

namespace ViewBinder

open Markup (Document)
open Session
open Work (Follows FollowsAt Keeps Leads)

/-! ## Directives -/

namespace Directive

instance (e : Nat) (precedence : Precedence) (type : TypeId) (name : Text) :
    Follows (declareField e precedence type name) := by
  have hfree : Follows (do
      let s ← get
      match s.fields.find? name with
      | some old =>
        let first := s.catalog.key (s.fields.field old).type
        failOn e fun _ => .duplicateField name first (s.catalog.key type)
      | none => Draft.register precedence type name : Work Session FieldId) := by
    refine Follows.reading (fun _ _ => rfl) fun s => ?_
    split <;> infer_instance
  unfold declareField
  infer_instance

instance (e : Nat) (name : Text) (problem : Text → Text → Problem) :
    Follows (resolveType e name problem) := by
  unfold resolveType
  refine Follows.bind' inferInstance fun c => ?_
  split <;> infer_instance

instance (e : Nat) (found : Option Nat) (children : List Nat) :
    Follows (attributesElement e found children) := by
  induction children generalizing found with
  | nil =>
    unfold attributesElement
    infer_instance
  | cons child rest ih =>
    unfold attributesElement
    infer_instance

instance (e : Nat) : Follows (withValue e) := by
  unfold withValue
  refine Follows.bind' inferInstance fun name => Follows.bind' inferInstance fun typeName => ?_
  refine Follows.bind' inferInstance fun type => Follows.bind' inferInstance fun f => ?_
  infer_instance

instance (e : Nat) : Follows (importConstants e) := by
  unfold importConstants
  refine Follows.bind' inferInstance fun spec => ?_
  split
  · infer_instance
  · refine Follows.bind' inferInstance fun type => Follows.bind' inferInstance fun c => ?_
    infer_instance

/-! ## Resources -/

open ViewBinder.Bundle (Agree)
open Markup.Document (Spares)

variable {excuse : Prop} {s : Session} {around : Surroundings}

/-- A style is declared in the same way where its sources read the same. -/
theorem followsAt_style {e : Nat}
    (h : ∀ path ∈ ((s.document.peek e "src").getD []).words,
      Agree excuse s.bundle.files around.files path) :
    FollowsAt excuse (style e) s around := by
  unfold style
  refine (FollowsAt.of_follows inferInstance excuse s around).bind fun name s₁ hname => ?_
  refine (FollowsAt.of_follows inferInstance excuse s₁ around).bind fun sources s₂ hsources => ?_
  refine (FollowsAt.of_follows inferInstance excuse s₂ around).bind fun typeName s₃ htype => ?_
  refine (FollowsAt.of_follows inferInstance excuse s₃ around).bind fun css s₄ hcss => ?_
  have hfiles : s₄.bundle.files = s.bundle.files := by
    calc s₄.bundle.files
      _ = s₃.bundle.files := Follows.origin_ok inferInstance hcss
      _ = s₂.bundle.files := Follows.origin_ok inferInstance htype
      _ = s₁.bundle.files := Follows.origin_ok inferInstance hsources
      _ = s.bundle.files := Follows.origin_ok inferInstance hname
  have hvalue : sources = (s.document.peek e "src").getD [] := by
    have : Leads (Spares e "src") (Document.takeRaw e "field") :=
      Document.leads_takeRaw_ne (by decide)
    have hspares : Spares e "src" s.document s₁.document := Keeps.keeps (document_ok hname)
    rw [Document.takeDefault_value (document_ok hsources), Document.peek_of_spares hspares]
  rw [← hvalue, ← hfiles] at h
  have hdeclare : ∀ typed : Work Session (Option TypeId), Follows typed → FollowsAt excuse (do
      let declared ← typed
      let bundle ← resourceBundle
      let made ← Draft.declareStyle ((← getDocument).location e)
        { field := name, sources := sources.words, type := declared, css }
      let f ← declareField e .style made.1 name
      Draft.addNeed f bundle
      Draft.setInitializer f (bundle ++ "." ++ made.2 ++ "()")
      call f "EnsureInjected" [] : Work Session Unit) s₄ around := by
    intro typed htyped
    refine (FollowsAt.of_follows htyped excuse s₄ around).bind fun declared s₅ hdeclared => ?_
    refine (FollowsAt.of_follows inferInstance excuse s₅ around).bind fun bundle s₆ hbundle => ?_
    refine (FollowsAt.of_follows inferInstance excuse s₆ around).bind fun document s₇ hget => ?_
    cases hget
    rw [← show s₅.bundle.files = s₄.bundle.files from Follows.origin_ok htyped hdeclared,
      ← show s₆.bundle.files = s₅.bundle.files from Follows.origin_ok inferInstance hbundle] at h
    refine (Draft.followsAt_declareStyle h).lift.bind fun made s₈ hstyle => ?_
    exact .of_follows inferInstance _ _ _
  refine .reading rfl ?_
  dsimp only
  split
  · exact (FollowsAt.of_follows inferInstance excuse s₄ around).bind fun _ _ hfails => by cases hfails
  · split
    · exact hdeclare _ inferInstance
    · exact hdeclare _ inferInstance

theorem followsAt_resource {e : Nat} {name typeName : Text} {declare : Work Draft Text}
    (h : ∀ d : Draft, d.bundle.files = s.bundle.files → FollowsAt excuse declare d around) :
    FollowsAt excuse (resource e name typeName declare) s around := by
  unfold resource
  refine .reading rfl ?_
  dsimp only
  split
  · exact .of_follows inferInstance _ _ _
  · split
    · exact (FollowsAt.of_follows inferInstance excuse s around).bind fun _ _ hfails => by cases hfails
    · refine (FollowsAt.of_follows inferInstance excuse s around).bind fun bundle s₁ hbundle => ?_
      refine (h s₁.toDraft (Follows.origin_ok inferInstance hbundle)).lift.bind fun _ _ _ => ?_
      exact .of_follows inferInstance _ _ _

/-- An image is declared in the same way where the paths it is looked for at mean the same. -/
theorem followsAt_image {e : Nat}
    (h : ∀ path ∈ Bundle.imagePlaces s.bundle.files
        { field := (s.document.peek e "field").getD [],
          source := (s.document.peek e "src").getD [] },
      Agree excuse s.bundle.files around.files path) :
    FollowsAt excuse (image e) s around := by
  unfold image
  refine (FollowsAt.of_follows inferInstance excuse s around).bind fun field s₁ hfield => ?_
  refine (FollowsAt.of_follows inferInstance excuse s₁ around).bind fun flip s₂ hflip => ?_
  refine (FollowsAt.of_follows inferInstance excuse s₂ around).bind fun source s₃ hsource => ?_
  refine (FollowsAt.of_follows inferInstance excuse s₃ around).bind fun repetition s₄ hrepeat => ?_
  refine (FollowsAt.of_follows inferInstance excuse s₄ around).bind fun document s₅ hget => ?_
  cases hget
  have hfiles : s₄.bundle.files = s.bundle.files := by
    calc s₄.bundle.files
      _ = s₃.bundle.files := Follows.origin_ok inferInstance hrepeat
      _ = s₂.bundle.files := Follows.origin_ok inferInstance hsource
      _ = s₁.bundle.files := Follows.origin_ok inferInstance hflip
      _ = s.bundle.files := Follows.origin_ok inferInstance hfield
  have hvalue : source = (s.document.peek e "src").getD [] := by
    have : Leads (Spares e "src") (Document.takeRaw e "field") :=
      Document.leads_takeRaw_ne (by decide)
    have : Leads (Spares e "src") (Document.takeRaw e "flipRtl") :=
      Document.leads_takeRaw_ne (by decide)
    have hspares : Spares e "src" s.document s₁.document := Keeps.keeps (document_ok hfield)
    have hspares' : Spares e "src" s₁.document s₂.document := Keeps.keeps (document_ok hflip)
    rw [Document.takeDefault_value (document_ok hsource), Document.peek_of_spares hspares',
      Document.peek_of_spares hspares]
  have hname : (s.document.peek e "field").getD [] = field := by
    rw [Document.takeRequired_value (document_ok hfield)]
    rfl
  rw [← hvalue, hname] at h
  refine followsAt_resource fun d hd => Draft.followsAt_declareImage ?_
  rw [hd, hfiles]
  exact h

/-- A data file is declared in the same way where it reads the same. -/
theorem followsAt_data {e : Nat}
    (h : Agree excuse s.bundle.files around.files ((s.document.peek e "src").getD [])) :
    FollowsAt excuse (data e) s around := by
  unfold data
  refine (FollowsAt.of_follows inferInstance excuse s around).bind fun field s₁ hfield => ?_
  refine (FollowsAt.of_follows inferInstance excuse s₁ around).bind fun source s₂ hsource => ?_
  refine (FollowsAt.of_follows inferInstance excuse s₂ around).bind fun mediaType s₃ htype => ?_
  refine (FollowsAt.of_follows inferInstance excuse s₃ around).bind fun document s₄ hget => ?_
  cases hget
  have hfiles : s₃.bundle.files = s.bundle.files := by
    calc s₃.bundle.files
      _ = s₂.bundle.files := Follows.origin_ok inferInstance htype
      _ = s₁.bundle.files := Follows.origin_ok inferInstance hsource
      _ = s.bundle.files := Follows.origin_ok inferInstance hfield
  have hvalue : (s.document.peek e "src").getD [] = source := by
    have : Leads (Spares e "src") (Document.takeRaw e "field") :=
      Document.leads_takeRaw_ne (by decide)
    have hspares : Spares e "src" s.document s₁.document := Keeps.keeps (document_ok hfield)
    rw [← Document.peek_of_spares hspares, Document.takeRequired_value (document_ok hsource)]
    rfl
  rw [hvalue] at h
  refine followsAt_resource fun d hd => Draft.followsAt_declareData ?_
  rw [hd, hfiles]
  exact h

/-- A directive is followed in the same way where the paths it seeks mean the same. -/
theorem followsAt_follow {e : Nat}
    (h : ∀ path ∈ sought s.bundle.files s.document e, Agree excuse s.bundle.files around.files path) :
    FollowsAt excuse (follow e) s around := by
  unfold follow
  refine (FollowsAt.of_follows inferInstance excuse s around).bind fun document s₁ hget => ?_
  cases hget
  dsimp only
  unfold sought at h
  dsimp only at h
  split
  · exact .of_follows inferInstance _ _ _
  · split
    · exact .of_follows inferInstance _ _ _
    · split
      · rename_i hstyle
        rw [if_pos hstyle] at h
        exact (followsAt_style h).bind fun _ _ _ => .of_follows inferInstance _ _ _
      · rename_i hstyle
        rw [if_neg hstyle] at h
        split
        · rename_i himage
          rw [if_pos himage] at h
          exact (followsAt_image h).bind fun _ _ _ => .of_follows inferInstance _ _ _
        · rename_i himage
          rw [if_neg himage] at h
          split
          · rename_i hdata
            rw [if_pos hdata] at h
            refine (followsAt_data (h _ (List.mem_singleton_self _))).bind fun _ _ _ => ?_
            exact .of_follows inferInstance _ _ _
          · exact .of_follows inferInstance _ _ _

/-- Directives are followed in the same way where the paths they seek mean the same: what one of them
seeks is not changed by those before it. -/
theorem followsAt_followAll {directives : List Nat} (hnodup : directives.Nodup)
    (h : ∀ e ∈ directives, ∀ path ∈ sought s.bundle.files s.document e,
      Agree excuse s.bundle.files around.files path) :
    FollowsAt excuse (followAll directives) s around := by
  unfold followAll
  refine FollowsAt.bind ?_ fun _ _ _ => .of_follows inferInstance _ _ _
  induction directives generalizing s with
  | nil => exact .of_follows (Follows.pure PUnit.unit) _ _ _
  | cons e rest ih =>
    obtain ⟨hnew, hrest⟩ := List.nodup_cons.mp hnodup
    obtain ⟨hhere, hlater⟩ := List.forall_mem_cons.mp h
    show FollowsAt excuse (follow e >>= fun _ => rest.forM follow) s around
    refine (followsAt_follow hhere).bind fun _ s' hfollow => ih hrest fun e' he' => ?_
    have hfiles : s'.bundle.files = s.bundle.files := by
      have hstays := (followsAt_follow hhere).stays
      rw [hfollow] at hstays
      exact hstays
    have hne : e ≠ e' := fun hsame => hnew (hsame ▸ he')
    rw [hfiles, sought_follow hne hfollow]
    exact hlater e' he'

end Directive

/-! ## Bindings -/

namespace Binding

instance (statement : Text) : Follows (addTrailing statement) :=
  Follows.changing (fun _ => rfl) fun _ _ => rfl

instance (f : FieldId) (ui : Nat) : Follows (placeOf f ui) := by
  unfold placeOf
  exact Follows.reading (fun _ _ => rfl) fun _ => inferInstance

instance (ui : Nat) (ownerName : Text) (u : UiField) : Follows (bindField ui ownerName u) := by
  unfold bindField
  refine Follows.reading (fun _ _ => rfl) fun s => ?_
  split <;> infer_instance

instance (ui : Nat) (h : Handler) (method : Method) (name : Text) :
    Follows (bindHandlerTo ui h method name) := by
  unfold bindHandlerTo
  refine Follows.reading (fun _ _ => rfl) fun s => ?_
  repeat' (first | infer_instance | split | dsimp only)

instance (ui : Nat) (owner : TypeId) (h : Handler) : Follows (bindHandler ui owner h) := by
  unfold bindHandler
  refine Follows.reading (fun _ _ => rfl) fun s => ?_
  dsimp only
  split <;> infer_instance

instance (ui : Nat) : Follows (bindOwner ui) := by
  unfold bindOwner
  refine Follows.reading (fun _ _ => rfl) fun s => ?_
  split <;> infer_instance

end Binding

/-! ## The program -/

namespace Assembly

instance (f : Field) : Follows (fieldType f) := by
  unfold fieldType
  repeat' (first | infer_instance | split)

instance (fields : List Field) : Follows (checkNames fields) := by
  unfold checkNames
  refine Follows.reading (fun _ _ => rfl) fun s => ?_
  refine Follows.bind' (Follows.forIn' fun f _ => ?_) fun _ => Element.follows_failure
  split <;> infer_instance

instance (settings : Settings) (url binderName : Text) (root : FieldId) :
    Follows (assemble settings url binderName root) := by
  unfold assemble
  refine Follows.reading (fun _ _ => rfl) fun s => ?_
  refine Follows.bind' inferInstance fun order => Follows.bind' inferInstance fun rootType => ?_
  refine Follows.reading (fun _ _ => rfl) fun s => ?_
  dsimp only
  -- the same steps follow with an owner and without, and with sections and without
  split
  all_goals
    refine Follows.bind' inferInstance fun ownerType => Follows.bind' inferInstance fun decls => ?_
    refine Follows.reading (fun _ _ => rfl) fun s => ?_
    split
    all_goals
      repeat refine Follows.bind' inferInstance fun _ => ?_
      exact Follows.reading (fun _ _ => rfl) fun _ => inferInstance

end Assembly

/-! ## Whole templates -/

namespace Template

instance (root : Nat) (children : List Nat) (ui : Option Nat) :
    Follows (interface root children ui) := by
  induction children generalizing ui with
  | nil => cases ui <;> (unfold interface; infer_instance)
  | cons child rest ih =>
    unfold interface
    refine Follows.bind' inferInstance fun d => ?_
    repeat' (first | infer_instance | split)

instance : Follows failIfReported := by
  unfold failIfReported
  exact Element.follows_failure

/-- A template is gathered in the same way where the paths that its directives seek mean the same. -/
theorem followsAt_gather {excuse : Prop} {s : Session} {around : Surroundings}
    (hnodup : (s.document.node 0).children.Nodup) (hroot : 0 ∉ (s.document.node 0).children)
    (h : ∀ path ∈ sought s.bundle.files s.document,
      Bundle.Agree excuse s.bundle.files around.files path) :
    FollowsAt excuse (gather 0) s around := by
  unfold gather
  refine (FollowsAt.of_follows inferInstance excuse s around).bind fun _ s₁ hgenerator => ?_
  refine (FollowsAt.of_follows inferInstance excuse s₁ around).bind fun _ s₂ hattributes => ?_
  refine (FollowsAt.of_follows inferInstance excuse s₂ around).bind fun _ s₃ htext => ?_
  refine (FollowsAt.of_follows inferInstance excuse s₃ around).bind fun document s₄ hget => ?_
  cases hget
  refine (FollowsAt.of_follows inferInstance excuse s₃ around).bind fun ui s₄ hui => ?_
  refine (FollowsAt.of_follows inferInstance excuse s₄ around).bind fun directives s₅ htake => ?_
  have hfiles : s₅.bundle.files = s.bundle.files := by
    calc s₅.bundle.files
      _ = s₄.bundle.files := Follows.origin_ok inferInstance htake
      _ = s₃.bundle.files := Follows.origin_ok inferInstance hui
      _ = s₂.bundle.files := Follows.origin_ok inferInstance htext
      _ = s₁.bundle.files := Follows.origin_ok inferInstance hattributes
      _ = s.bundle.files := Follows.origin_ok inferInstance hgenerator
  have hsame : s₄.document = s₃.document := Keeps.keeps (R := SameDocument) hui
  have htakes : s.document.Takes s₃.document := IsTrans.trans (r := Session.Takes) _ _ _
    (Keeps.keeps hgenerator) (IsTrans.trans _ _ _ (Keeps.keeps hattributes) (Keeps.keeps htext))
  have hdirectives : directives = Template.directives s₃.document := by
    rw [(Document.takeChildrenWhere_ok (document_ok htake)).1, hsame]
    rfl
  have hmember : ∀ e ∈ directives, e ∈ Template.directives s.document := fun e he =>
    mem_directives_of_takes htakes (hdirectives ▸ he)
  refine (Directive.followsAt_followAll ?_ fun e he path hpath => ?_).bind fun _ s₆ _ =>
    .of_follows ?_ _ _ _
  · rw [hdirectives]
    refine nodup_directives ?_
    rw [htakes.shape.children]
    exact hnodup
  · -- nothing of a directive was used so far
    have : Fact (0 ≠ e) := ⟨fun hzero => hroot
      (hzero ▸ mem_children_of_directives (hmember e he))⟩
    have hspares : Session.SparesAll e s s₅ := IsTrans.trans _ _ _ (Keeps.keeps hgenerator) <|
      IsTrans.trans _ _ _ (Keeps.keeps hattributes) <| IsTrans.trans _ _ _ (Keeps.keeps htext) <|
      IsTrans.trans _ _ _ (Keeps.keeps hui) (Keeps.keeps htake)
    rw [hfiles, Directive.sought_of_sparesAll hspares] at hpath
    rw [hfiles]
    exact h path (List.mem_flatMap.mpr ⟨e, hmember e he, hpath⟩)
  · infer_instance

theorem followsAt_read {excuse : Prop} {s : Session} {around : Surroundings}
    (h : FollowsAt excuse (gather 0) s around) : FollowsAt excuse (read 0) s around := by
  unfold read
  exact h.bind fun _ _ _ => .of_follows inferInstance _ _ _

instance (p : Program) : Follows (weave p) := by
  unfold weave
  refine Follows.bind' inferInstance fun answer => ?_
  split
  · infer_instance
  · split
    · refine Follows.reading (fun _ _ => rfl) fun s => ?_
      dsimp only
      infer_instance
    · infer_instance

instance (t : Template) (settings : Settings) (f : FieldId) : Follows (t.finish settings f) := by
  unfold finish
  refine Follows.bind' inferInstance fun program => Follows.bind' inferInstance fun text => ?_
  exact Follows.reading (fun _ _ => rfl) fun _ => inferInstance

end Template

end ViewBinder
