-- Methods made for resources. What is accepted by a bundle, however many resources were refused before
-- it, gets the method its field gives, and each class of a style the accessor its name gives. Nothing
-- looks at these names: they are methods other packages can call exactly if the names give such.
import ViewBinder.Proofs.Session.Styles
import ViewBinder.Proofs.Text.Exported

namespace ViewBinder

open Work (Leads)

/-! ## Names of classes -/

namespace Text

/-- The name of a class is made of dashes and characters of identifiers. -/
theorem isDashed_of_isNameByte {t : Text} (h : t.all Stylesheet.isNameByte = true) : IsDashed t := by
  have hbyte : ∀ b : UInt8, Stylesheet.isNameByte b = true →
      b = '-'.toUInt8 ∨ (isLetter b.toNat || b.toNat == 95 || isDigit b.toNat) = true := by
    refine forall_byte ?_
    decide +kernel
  have hname : ∀ b ∈ t, Stylesheet.isNameByte b = true := List.all_eq_true.mp h
  intro r hr
  rw [runes_ascii t fun b hb => isNameByte_ascii (hname b hb)] at hr
  obtain ⟨b, hb, rfl⟩ := List.mem_map.mp hr
  exact (hbyte b (hname b hb)).imp_left fun hdash => congrArg (fun b => [b]) hdash

end Text

namespace BundledStyle

/-- The classes are those of the stylesheet, each with the accessor its name gives. -/
structure Follows (x : BundledStyle) : Prop where
  parsed : ∃ css, x.sheet = Stylesheet.parse css
  classes : x.classes.map (fun k => (k.name, k.accessor)) =
    x.sheet.classes.map fun name => (name, Text.exported name)

theorem follows_of_bundled {s : Style} {method css lead field : Text} {classes : List StyleClass}
    {type : TypeId}
    (h : Bundle.bundleClasses lead field [] (Stylesheet.parse css).classes = .ok classes) :
    Follows ⟨s, method, Stylesheet.parse css, classes, type⟩ := by
  refine ⟨⟨css, rfl⟩, ?_⟩
  dsimp only
  rw [Bundle.bundleClasses_ok h, List.nil_append, List.map_map]
  rfl

/-- An accessor is a method that other packages can call by what the name of its class begins with and
by its dashes. -/
theorem Follows.callable {x : BundledStyle} (h : x.Follows) {k : StyleClass} (hk : k ∈ x.classes) :
    Text.isMethodName k.accessor = true ↔
      (∃ b ∈ (k.name.dropWhile (· == '-'.toUInt8)).head?, Text.isLetterByte b = true) ∧
        Text.DashesLead k.name := by
  obtain ⟨css, hsheet⟩ := h.parsed
  have hpair : (k.name, k.accessor) ∈ x.sheet.classes.map fun name => (name, Text.exported name) := by
    rw [← h.classes]
    exact List.mem_map.mpr ⟨k, hk, rfl⟩
  obtain ⟨name, hname, heq⟩ := List.mem_map.mp hpair
  obtain ⟨rfl, haccessor⟩ := Prod.mk.inj heq
  rw [hsheet] at hname
  have hdashed := Text.isDashed_of_isNameByte (Stylesheet.name_of_mem_classesOf hname).2
  rw [← haccessor, Text.isMethodName_exported]
  exact ⟨fun hgives => ⟨hgives.first, hgives.dashes⟩, fun ⟨hfirst, hdashes⟩ =>
    ⟨hfirst, hdashes, hdashed⟩⟩

end BundledStyle

/-! ## Declaring one resource -/

/-- A resource as a template declares it. -/
inductive Resource.Declared where
  | style (s : Style)
  | image (i : Image)
  | data (f : DataFile)

/-- The field of a resource. -/
def Resource.Declared.field : Resource.Declared → Text
  | style s => s.field
  | image i => i.field
  | data f => f.field

namespace Draft

open Resource (Declared)

/-- Declares a resource and gives the method of the bundle. -/
def declare (place : Option Location) : Declared → Work Draft Text
  | .style s => Prod.snd <$> declareStyle place s
  | .image i => declareImage place i
  | .data f => declareData place f

/-- The same resources are in the bundle. -/
structure SameBundled (d d' : Draft) : Prop where
  styles : d'.bundle.styles = d.bundle.styles
  others : d'.bundle.others = d.bundle.others

instance : Std.Refl SameBundled := ⟨fun _ => ⟨rfl, rfl⟩⟩

instance : IsTrans Draft SameBundled where
  trans _ _ _ h h' := ⟨h'.styles.trans h.styles, h'.others.trans h.others⟩

instance {α : Type} (w : Work Draft α) [Leads Beside w] : Leads SameBundled w where
  leads d := by
    have hbundle := (Leads.leads (R := Beside) (w := w) d).bundle
    exact ⟨congrArg Bundle.styles hbundle, congrArg Bundle.others hbundle⟩

instance (place : Option Location) (field : Text) :
    Leads SameBundled (claimMethod place field) where
  leads d := by
    rw [runOn_claimMethod]
    split
    · rename_i method b hfound
      obtain ⟨-, -, rfl⟩ := Bundle.claim_ok hfound
      exact ⟨rfl, rfl⟩
    · exact Std.Refl.refl d

/-- What is in the bundle once a resource is accepted under a method. -/
def Accepts (r : Declared) (d : Draft) (method : Text) (d' : Draft) : Prop :=
  method = Text.exported r.field ∧
    match r with
    | .style s => ∃ x : BundledStyle, x.style = s ∧ x.method = method ∧ x.Follows ∧
        d'.bundle.styles = d.bundle.styles ++ [x] ∧ d'.bundle.others = d.bundle.others
    | _ => ∃ f : BundledFile, f.method = method ∧
        d'.bundle.styles = d.bundle.styles ∧ d'.bundle.others = d.bundle.others ++ [f]

variable {r : Declared} {α β : Type}

theorem Accepts.after {d d' d'' : Draft} {method : Text} (h : Accepts r d' method d'')
    (hsame : SameBundled d d') : Accepts r d method d'' := by
  obtain ⟨hmethod, h⟩ := h
  refine ⟨hmethod, ?_⟩
  cases r with
  | style s =>
    obtain ⟨x, hstyle, hx, hfollows, hstyles, hothers⟩ := h
    exact ⟨x, hstyle, hx, hfollows, hsame.styles ▸ hstyles, hothers.trans hsame.others⟩
  | _ =>
    obtain ⟨f, hf, hstyles, hothers⟩ := h
    exact ⟨f, hf, hstyles.trans hsame.styles, hsame.others ▸ hothers⟩

/-- Work that ends with the resource accepted under a method that the answer tells, or fails and
leaves the bundled ones alone. -/
def Bundles (r : Declared) (method : α → Text) (w : Work Draft α) : Prop :=
  ∀ d, match w.runOn d with
    | (.ok a, d') => Accepts r d (method a) d'
    | (.error _, d') => SameBundled d d'

/-- Work that leaves the bundled resources alone may come first; what follows may rely on its
answer. -/
theorem bundles_bind {method : α → Text} {w : Work Draft β} [Leads SameBundled w]
    {k : β → Work Draft α} (h : ∀ {d b d'}, w.runOn d = (.ok b, d') → Bundles r method (k b)) :
    Bundles r method (w >>= k) := by
  intro d
  have hsame := Leads.leads (R := SameBundled) (w := w) d
  rw [Work.runOn_bind]
  rcases hrun : w.runOn d with ⟨_ | b, d'⟩
  · rw [hrun] at hsame
    exact hsame
  · rw [hrun] at hsame
    have hrest := h hrun d'
    dsimp only
    split
    · rename_i hk
      rw [hk] at hrest
      exact Accepts.after hrest hsame
    · rename_i hk
      rw [hk] at hrest
      exact IsTrans.trans _ _ _ hsame hrest

/-- A style is bundled where its classes have what their names give. -/
theorem bundles_style (s : Style) {method : Text} (hmethod : method = Text.exported s.field)
    {css lead field : Text} {classes : List StyleClass}
    (hclasses : Bundle.bundleClasses lead field [] (Stylesheet.parse css).classes = .ok classes)
    (interfaces : List TypeId) :
    Bundles (.style s) Prod.snd (do
      let type ← generateStyleType s.field interfaces classes
      modify fun d =>
        { d with bundle.styles :=
          d.bundle.styles ++ [⟨s, method, Stylesheet.parse css, classes, type⟩] }
      let fieldType := s.type.getD type
      addBundleMethod method fieldType
      return (fieldType, method) : Work Draft (TypeId × Text)) := by
  intro d
  rw [Work.runOn_bind]
  rcases htype : (generateStyleType s.field interfaces classes).runOn d with ⟨_ | type, d'⟩
  · cases htype
  · obtain ⟨hbeside, -, -⟩ := generateStyleType_ok htype
    simp only [Work.runOn_bind, Work.runOn_modify]
    unfold addBundleMethod
    simp only [Work.runOn_modify, Work.runOn_pure]
    refine ⟨hmethod, ⟨s, method, Stylesheet.parse css, classes, type⟩, rfl, rfl,
      BundledStyle.follows_of_bundled hclasses, ?_, ?_⟩
    · rw [← hbeside.bundle]
      split <;> rfl
    · rw [← hbeside.bundle]
      split <;> rfl

theorem bundles_declareStyle (place : Option Location) (s : Style) :
    Bundles (.style s) Prod.snd (declareStyle place s) := by
  unfold declareStyle
  refine bundles_bind fun hclaim => ?_
  obtain ⟨hmethod, -, -⟩ := claimMethod_ok hclaim
  refine bundles_bind fun _ => bundles_bind fun _ => bundles_bind fun hbundled => ?_
  obtain ⟨hclasses, -⟩ := orFailAt_ok hbundled
  refine bundles_bind fun _ => ?_
  dsimp only
  split
  · refine bundles_bind fun _ => bundles_bind fun _ => ?_
    exact bundles_style s hmethod hclasses _
  · exact bundles_style s hmethod hclasses _

/-- A file is bundled under the method of its field. -/
theorem bundles_addFile (hfile : ∀ s, r ≠ .style s) {method : Text}
    (hmethod : method = Text.exported r.field) (typeName expr : Text) :
    Bundles r id (do
      addFile typeName method expr
      return method) := by
  intro d
  rw [Work.runOn_bind]
  rcases hadd : (addFile typeName method expr).runOn d with ⟨_ | a, d'⟩
  · unfold addFile addBundleMethod typeRef resourceType at hadd
    simp at hadd
  · obtain ⟨f, hf, -, -, hbundle⟩ := addFile_ok hadd
    refine ⟨hmethod, ?_⟩
    cases r with
    | style s => exact absurd rfl (hfile s)
    | _ => exact ⟨f, hf, by rw [hbundle], by rw [hbundle]⟩

theorem bundles_declareImage (place : Option Location) (i : Image) :
    Bundles (.image i) id (declareImage place i) := by
  unfold declareImage
  refine bundles_bind fun _ => bundles_bind fun _ => bundles_bind fun _ => ?_
  refine bundles_bind fun hclaim => ?_
  obtain ⟨hmethod, -, -⟩ := claimMethod_ok hclaim
  refine bundles_bind fun _ => bundles_bind fun _ => bundles_bind fun _ => bundles_bind fun _ => ?_
  exact bundles_addFile (fun _ h => by cases h) hmethod _ _

theorem bundles_declareData (place : Option Location) (f : DataFile) :
    Bundles (.data f) id (declareData place f) := by
  unfold declareData
  split
  · exact fun d => Std.Refl.refl d
  · refine bundles_bind fun hclaim => ?_
    obtain ⟨hmethod, -, -⟩ := claimMethod_ok hclaim
    refine bundles_bind fun _ => bundles_bind fun _ => bundles_bind fun _ => ?_
    exact bundles_addFile (fun _ h => by cases h) hmethod _ _

/-- Whatever resource is declared, it is accepted under the method its field gives, or refused and the
others stay as they are. -/
theorem bundles_declare (place : Option Location) (r : Declared) :
    Bundles r id (declare place r) := by
  cases r with
  | style s =>
    intro d
    have hstyle := bundles_declareStyle place s d
    unfold declare
    rw [Work.runOn_map]
    rcases hrun : (declareStyle place s).runOn d with ⟨_ | a, d'⟩
    · rwa [hrun] at hstyle
    · rwa [hrun] at hstyle
  | image i => exact bundles_declareImage place i
  | data f => exact bundles_declareData place f

/-! ## Declaring resources one after the other -/

/-- Declares resources one after the other, also behind those that are refused, and gives the accepted
ones with their methods. -/
def declareAll (d : Draft) : List (Option Location × Declared) → List (Declared × Text) × Draft
  | [] => ([], d)
  | (place, r) :: rest =>
    match (declare place r).runOn d with
    | (.ok method, d') => ((r, method) :: (declareAll d' rest).1, (declareAll d' rest).2)
    | (.error _, d') => declareAll d' rest

/-- The styles among accepted resources. -/
def stylesOf (accepted : List (Declared × Text)) : List (Style × Text) :=
  accepted.filterMap fun a =>
    match a.1 with
    | .style s => some (s, a.2)
    | _ => none

/-- The methods of the images and data files among accepted resources. -/
def filesOf (accepted : List (Declared × Text)) : List Text :=
  accepted.filterMap fun a =>
    match a.1 with
    | .style _ => none
    | _ => some a.2

/-- Behind what was bundled before stand the accepted resources in their order, each under the method
its field gives, and the classes of each style follow its stylesheet. -/
theorem declareAll_bundle (rs : List (Option Location × Declared)) (d : Draft) :
    ∃ styles files,
      (declareAll d rs).2.bundle.styles = d.bundle.styles ++ styles ∧
      (declareAll d rs).2.bundle.others = d.bundle.others ++ files ∧
      styles.map (fun x => (x.style, x.method)) = stylesOf (declareAll d rs).1 ∧
      files.map (·.method) = filesOf (declareAll d rs).1 ∧
      (∀ x ∈ styles, x.Follows) ∧
      ∀ a ∈ (declareAll d rs).1, a.2 = Text.exported a.1.field := by
  induction rs generalizing d with
  | nil => exact ⟨[], [], by simp [declareAll, stylesOf, filesOf]⟩
  | cons first rest ih =>
    obtain ⟨place, r⟩ := first
    have hfirst := bundles_declare place r d
    rw [declareAll]
    rcases hrun : (declare place r).runOn d with ⟨_ | method, d'⟩
    · rw [hrun] at hfirst
      obtain ⟨hstyles, hothers⟩ : SameBundled d d' := hfirst
      simpa only [hstyles, hothers] using ih d'
    · rw [hrun] at hfirst
      obtain ⟨hmethod, haccepted⟩ : Accepts r d method d' := hfirst
      obtain ⟨styles, files, hstyles, hothers, hmapped, hmethods, hfollows, hall⟩ := ih d'
      have hgiven : ∀ a ∈ (r, method) :: (declareAll d' rest).1, a.2 = Text.exported a.1.field :=
        List.forall_mem_cons.mpr ⟨hmethod, hall⟩
      cases r with
      | style s =>
        obtain ⟨x, rfl, rfl, hx, hadded, hkept⟩ := haccepted
        refine ⟨x :: styles, files, ?_, ?_, ?_, ?_, List.forall_mem_cons.mpr ⟨hx, hfollows⟩, hgiven⟩
        · simpa [hadded] using hstyles
        · simpa [hkept] using hothers
        · simpa [stylesOf] using hmapped
        · simpa [filesOf] using hmethods
      | _ =>
        obtain ⟨f, rfl, hkept, hadded⟩ := haccepted
        refine ⟨styles, f :: files, ?_, ?_, ?_, ?_, hfollows, hgiven⟩
        · simpa [hkept] using hstyles
        · simpa [hadded] using hothers
        · simpa [stylesOf] using hmapped
        · simpa [filesOf] using hmethods

/-- Resources are accepted under methods that other packages can call exactly where their fields give
such methods, and the classes of accepted styles have accessors that other packages can call exactly
where, behind dashes in front, their names begin with a letter and all dashes are resolved. -/
theorem generated_methods_are_callable_where_names_give_methods (d : Draft)
    (rs : List (Option Location × Declared)) :
    let start := { d with bundle.styles := [], bundle.others := [] }
    let accepted := (declareAll start rs).1
    let bundle := (declareAll start rs).2.bundle
    bundle.styles.map (fun x => (x.style, x.method)) = stylesOf accepted ∧
      bundle.others.map (·.method) = filesOf accepted ∧
      (∀ a ∈ accepted, a.2 = Text.exported a.1.field ∧
        (Text.isMethodName a.2 = true ↔ Text.GivesMethod a.1.field)) ∧
      ∀ x ∈ bundle.styles, x.Follows ∧ ∀ k ∈ x.classes,
        (Text.isMethodName k.accessor = true ↔
          (∃ b ∈ (k.name.dropWhile (· == '-'.toUInt8)).head?, Text.isLetterByte b = true) ∧
            Text.DashesLead k.name) := by
  intro start accepted bundle
  obtain ⟨styles, files, hstyles, hothers, hmapped, hmethods, hfollows, hall⟩ :=
    declareAll_bundle rs start
  have hstyles : bundle.styles = styles := hstyles
  have hothers : bundle.others = files := hothers
  rw [hstyles, hothers]
  refine ⟨hmapped, hmethods, fun a ha => ⟨hall a ha, ?_⟩, fun x hx => ⟨hfollows x hx, ?_⟩⟩
  · rw [hall a ha]
    exact Text.isMethodName_exported _
  · exact fun k hk => (hfollows x hx).callable hk

end Draft

/-- A dash in front of a capital stays in the accessor, and a digit at the front in the method, where no
method can have them; both styles are accepted. -/
theorem a_dash_or_digit_can_stay_in_a_method :
    let (accepted, d) := Draft.declareAll Session.openSession.toDraft
      [(none, .style { field := "style", css := ".a-B \x7b\x7d" }), (none, .style { field := "1x" })]
    accepted.map (·.2) = ["Style", "1x"] ∧ Text.isMethodName "1x" = false ∧
      d.bundle.styles.map (fun x => x.classes.map (·.accessor)) = [[Text.ofString "A-B"], []] ∧
      Text.isMethodName "A-B" = false := by
  decide +kernel

end ViewBinder
