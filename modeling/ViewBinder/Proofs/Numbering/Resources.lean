-- Resources and the place that files are read from: a resource is declared in the same way wherever
-- the paths that it is looked for at mean the same.
import ViewBinder.Proofs.Numbering.Session

namespace ViewBinder

open Surrounded (surround)
open Work (Follows FollowsAt)

/-! ## Paths that mean the same -/

namespace Bundle

variable {excuse : Prop} {here there : Option FileSource} {path : Text}

/-- The content of a file that is read from some place. -/
def contentIn (files : Option FileSource) (path : Text) : Except Problem Text :=
  ({ files } : Bundle).read path

/-- A path means the same in two places: it is found in both or in none, and what is read there is
the same. If `excuse`, what cannot be read in the first one may be anything in the other. -/
structure Agree (excuse : Prop) (here there : Option FileSource) (path : Text) : Prop where
  found : there.any (·.has path) = here.any (·.has path)
  content : contentIn there path = contentIn here path ∨
    excuse ∧ ∃ p, contentIn here path = .error p

theorem Agree.refl (excuse : Prop) (here : Option FileSource) (path : Text) :
    Agree excuse here here path := ⟨rfl, .inl rfl⟩

/-- The paths that an image is looked for at, up to the one where it is. -/
def imagePlaces (files : Option FileSource) (i : Image) : List Text :=
  if !i.source.isEmpty then [i.source]
  else
    let paths := imageExtensions.map (i.field ++ ·)
    paths.takeWhile (fun path => !files.any (·.has path)) ++
      (paths.find? fun path => files.any (·.has path)).toList

/-- A search looks no further than to what it finds. -/
theorem find?_congr_until {α : Type} {p q : α → Bool} {xs : List α}
    (h : ∀ x ∈ xs.takeWhile (fun x => !p x) ++ (xs.find? p).toList, q x = p x) :
    xs.find? q = xs.find? p := by
  induction xs with
  | nil => rfl
  | cons x xs ih =>
    rcases hx : p x with _ | _
    · rw [List.takeWhile_cons_of_pos (by simp [hx]), List.find?_cons_of_neg (by simp [hx]),
        List.cons_append] at h
      obtain ⟨hhere, hlater⟩ := List.forall_mem_cons.mp h
      have hnot : ¬q x = true := by
        rw [hhere, hx]
        exact Bool.false_ne_true
      rw [List.find?_cons_of_neg hnot, List.find?_cons_of_neg (by simp [hx]), ih hlater]
    · have hhere : q x = p x := h x (by simp [hx])
      rw [List.find?_cons_of_pos hx, List.find?_cons_of_pos (hhere.trans hx)]

theorem imageSource_eq (b : Bundle) (i : Image) : b.imageSource i =
    if !i.source.isEmpty then .ok i.source
    else match (imageExtensions.map (i.field ++ ·)).find? fun path =>
        b.files.any (·.has path) with
      | some source => .ok source
      | none => .error (.noImageSource i.field) := by
  unfold imageSource
  rcases b.files with _ | files
  · have hnone : (imageExtensions.map (i.field ++ ·)).find?
        (fun path => (none : Option FileSource).any (·.has path)) = none :=
      List.find?_eq_none.mpr fun _ _ => Bool.false_ne_true
    rw [hnone]
    rfl
  · rfl

theorem mem_imagePlaces {b : Bundle} {i : Image} {source : Text}
    (h : b.imageSource i = .ok source) : source ∈ imagePlaces b.files i := by
  rw [imageSource_eq] at h
  unfold imagePlaces
  split at h
  · rename_i hgiven
    cases h
    rw [if_pos hgiven]
    exact List.mem_singleton_self _
  · rename_i hgiven
    split at h
    · rename_i hfound
      cases h
      rw [if_neg hgiven]
      dsimp only
      rw [hfound]
      exact List.mem_append_right _ (List.mem_singleton_self _)
    · cases h

theorem imageSource_agree {b b' : Bundle} {i : Image}
    (h : ∀ path ∈ imagePlaces b.files i, Agree excuse b.files b'.files path) :
    b'.imageSource i = b.imageSource i := by
  rw [imageSource_eq, imageSource_eq]
  split
  · rfl
  · rename_i hgiven
    rw [imagePlaces, if_neg hgiven] at h
    rw [find?_congr_until fun path hpath => (h path hpath).found]

/-- What is read in turn is the same, unless something cannot be read. -/
theorem styleText_agree {b b' : Bundle} {s : Style}
    (h : ∀ path ∈ s.sources, Agree excuse b.files b'.files path) :
    b'.styleText s = b.styleText s ∨ excuse ∧ ∃ p, b.styleText s = .error p := by
  have hreads : s.sources.mapM b'.read = s.sources.mapM b.read ∨
      excuse ∧ ∃ p, s.sources.mapM b.read = .error p := by
    generalize s.sources = sources at h ⊢
    induction sources with
    | nil => exact .inl rfl
    | cons path rest ih =>
      obtain ⟨hfirst, hrest⟩ := List.forall_mem_cons.mp h
      rw [List.mapM_cons, List.mapM_cons]
      have hcontent : b'.read path = b.read path ∨ excuse ∧ ∃ p, b.read path = .error p :=
        hfirst.content
      rcases hcontent with hsame | ⟨hexcuse, p, hfails⟩
      · rw [hsame]
        rcases ih hrest with hsame' | ⟨hexcuse, p, hfails⟩
        · exact .inl (by rw [hsame'])
        · rcases b.read path with p' | content
          · exact .inl rfl
          · exact .inr ⟨hexcuse, p, by rw [hfails]; rfl⟩
      · exact .inr ⟨hexcuse, p, by rw [hfails]; rfl⟩
  unfold styleText
  rcases hreads with hsame | ⟨hexcuse, p, hfails⟩
  · exact .inl (by rw [hsame])
  · exact .inr ⟨hexcuse, p, by rw [hfails]; rfl⟩

end Bundle

/-! ## Declaring resources -/

namespace Draft

open ViewBinder.Bundle (Agree)

variable {excuse : Prop} {d : Draft} {around : Surroundings}

/-- Work on what the draft answers, where the answer is the same in other surroundings. -/
theorem followsAt_ask {place : Option Location} {f : Draft → Except Problem α}
    {k : Draft → α → Work Draft β}
    (hf : f (surround around d) = f d ∨ excuse ∧ ∃ p, f d = .error p)
    (hsame : ∀ a, k (surround around d) a = k d a)
    (hk : ∀ a, f d = .ok a → FollowsAt excuse (k d a) d around) :
    FollowsAt excuse (get >>= fun d => orFailAt place (f d) >>= k d) d around := by
  rcases hanswer : f d with p | a
  · have hrun : (get >>= fun d => orFailAt place (f d) >>= k d).runOn d =
        (.error (p.failure place), d) := by
      rw [Work.runOn_bind, Work.runOn_get]
      dsimp only
      rw [hanswer]
      rfl
    refine ⟨by rw [hrun], by rw [hrun], by rw [hrun], fun _ => ?_⟩
    rw [hrun]
    rcases hf with hf | ⟨hexcuse, -⟩
    · left
      rw [Work.runOn_bind, Work.runOn_get]
      dsimp only
      rw [hf, hanswer]
      rfl
    · exact .inr ⟨hexcuse, _, rfl⟩
  · have hrun : (get >>= fun d => orFailAt place (f d) >>= k d).runOn d = (k d a).runOn d := by
      rw [Work.runOn_bind, Work.runOn_get]
      dsimp only
      rw [hanswer]
      rfl
    have hf' : f (surround around d) = .ok a := by
      rcases hf with hf | ⟨-, p, hfails⟩
      · exact hf.trans hanswer
      · rw [hfails] at hanswer
        cases hanswer
    have hrun' : (get >>= fun d => orFailAt place (f d) >>= k d).runOn (surround around d) =
        (k d a).runOn (surround around d) := by
      rw [Work.runOn_bind, Work.runOn_get]
      dsimp only
      rw [hf']
      exact congrArg (fun w => Work.runOn w (surround around d)) (hsame a)
    obtain ⟨hsupply, hstays, hgrows, hfollows⟩ := hk a hanswer
    refine ⟨by rw [hrun]; exact hsupply, by rw [hrun]; exact hstays, by rw [hrun]; exact hgrows, ?_⟩
    rw [hrun, hrun']
    exact hfollows

/-- A style is declared in the same way where its sources read the same. -/
theorem followsAt_declareStyle {place : Option Location} {s : Style}
    (h : ∀ path ∈ s.sources, Agree excuse d.bundle.files around.files path) :
    FollowsAt excuse (declareStyle place s) d around := by
  have hrest : ∀ classes resource method sheet, Follows (do
      let type ← generateStyleType s.field (resource :: s.type.toList) classes
      modify fun d =>
        { d with bundle.styles := d.bundle.styles ++ [⟨s, method, sheet, classes, type⟩] }
      let fieldType := s.type.getD type
      addBundleMethod method fieldType
      return (fieldType, method) : Work Draft (TypeId × Text)) := by
    intro classes resource method sheet
    refine Follows.bind' inferInstance fun type => ?_
    exact Follows.bind' (Follows.changing (fun _ => rfl) fun _ _ => rfl) fun _ => inferInstance
  unfold declareStyle
  refine (FollowsAt.of_follows inferInstance excuse d around).bind fun method d' hclaim => ?_
  have hfiles : d'.bundle.files = d.bundle.files := Follows.origin_ok inferInstance hclaim
  refine followsAt_ask (f := fun d => d.bundle.styleText s) ?_ (fun _ => rfl) fun css _ => ?_
  · rw [← hfiles] at h
    have hfiles' : around.files = (surround around d').bundle.files := rfl
    rw [hfiles'] at h
    exact Bundle.styleText_agree h
  · refine .of_follows (Follows.bind' inferInstance fun classes => ?_) _ _ _
    refine Follows.bind' inferInstance fun resource => ?_
    split
    · refine Follows.reading (fun _ _ => rfl) fun d => Follows.bind' inferInstance fun _ => ?_
      exact hrest _ _ _ _
    · exact hrest _ _ _ _

/-- An image is declared in the same way where the paths it is looked for at mean the same. -/
theorem followsAt_declareImage {place : Option Location} {i : Image}
    (h : ∀ path ∈ Bundle.imagePlaces d.bundle.files i,
      Agree excuse d.bundle.files around.files path) :
    FollowsAt excuse (declareImage place i) d around := by
  unfold declareImage
  refine followsAt_ask (f := fun d => d.bundle.imageSource i) ?_ (fun _ => rfl)
    fun source hsource => ?_
  · have hfiles : around.files = (surround around d).bundle.files := rfl
    rw [hfiles] at h
    exact .inl (Bundle.imageSource_agree h)
  · have hagree := h source (Bundle.mem_imagePlaces hsource)
    refine (FollowsAt.of_follows inferInstance excuse d around).bind fun repetition d₁ hchecked => ?_
    refine (FollowsAt.of_follows inferInstance excuse d₁ around).bind fun method d₂ hclaim => ?_
    rw [← show d₁.bundle.files = d.bundle.files from Follows.origin_ok inferInstance hchecked,
      ← show d₂.bundle.files = d₁.bundle.files from Follows.origin_ok inferInstance hclaim]
      at hagree
    refine followsAt_ask (f := fun d => d.bundle.read source) hagree.content (fun _ => rfl)
      fun content _ => ?_
    exact .of_follows inferInstance _ _ _

/-- A data file is declared in the same way where it reads the same. -/
theorem followsAt_declareData {place : Option Location} {f : DataFile}
    (h : Agree excuse d.bundle.files around.files f.source) :
    FollowsAt excuse (declareData place f) d around := by
  have hdeclare : FollowsAt excuse (do
      let method ← claimMethod place f.field
      let content ← orFailAt place ((← get).bundle.read f.source)
      let package ← importPackage Library.resourcesPackage "resources"
      addFile "DataResource" method (Bundle.dataExpr package f content)
      return method) d around := by
    refine (FollowsAt.of_follows inferInstance excuse d around).bind fun method d' hclaim => ?_
    rw [← show d'.bundle.files = d.bundle.files from Follows.origin_ok inferInstance hclaim] at h
    refine followsAt_ask (f := fun d => d.bundle.read f.source) h.content (fun _ => rfl)
      fun content _ => ?_
    exact .of_follows inferInstance _ _ _
  unfold declareData
  split
  · exact (FollowsAt.of_follows inferInstance excuse d around).bind fun _ _ hfails => by cases hfails
  · exact hdeclare

end Draft

end ViewBinder
