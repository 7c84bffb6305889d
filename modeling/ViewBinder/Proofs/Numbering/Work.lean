-- Work and its surroundings: the numbers that markers are handed, and the place that files are read
-- from. Work follows the numbers: with other numbers for markers it does not make, it does just the
-- same. It does so as well when files are read from elsewhere, unless it reads some.
import ViewBinder.Proofs.Work
import ViewBinder.Session

namespace ViewBinder

open Markup (Document)

/-! ## Surroundings -/

/-- What a state is handed from outside. -/
structure Surroundings where
  /-- The numbers of the markers. -/
  supply : Nat → Nat
  /-- Where files are read from. -/
  files : Option FileSource

/-- A state that work finds in some surroundings. -/
class Surrounded (σ : Type) where
  /-- The markers of the state. -/
  markers : σ → Markers
  /-- Where files are read from. -/
  origin : σ → Option FileSource
  /-- The state in other surroundings. -/
  surround : Surroundings → σ → σ

instance : Surrounded Markers :=
  ⟨id, fun _ => none, fun around m => { m with supply := around.supply }⟩

instance : Surrounded Draft :=
  ⟨Draft.markers, fun d => d.bundle.files, fun around d =>
    { d with
      markers := { d.markers with supply := around.supply }
      bundle := { d.bundle with files := around.files } }⟩

instance : Surrounded Session :=
  ⟨fun s => s.markers, fun s => s.bundle.files, fun around s =>
    { s with
      markers := { s.markers with supply := around.supply }
      bundle := { s.bundle with files := around.files } }⟩

namespace Work

open Surrounded (markers origin surround)

variable {σ α β : Type} [Surrounded σ]

/-- In some surroundings, the work does what it does from a state, and the markers grow. Only the
numbers of the markers it makes must be the same. `excuse` is what may keep it from that, and it
fails then. -/
structure FollowsAt (excuse : Prop) (w : Work σ α) (s : σ) (around : Surroundings) : Prop where
  supply : (markers (w.runOn s).2).supply = (markers s).supply
  stays : origin (w.runOn s).2 = origin s
  grows : (markers s).size ≤ (markers (w.runOn s).2).size
  follows : (∀ k, (markers s).size ≤ k → k < (markers (w.runOn s).2).size →
      around.supply k = (markers s).supply k) →
    w.runOn (surround around s) = ((w.runOn s).1, surround around (w.runOn s).2) ∨
      excuse ∧ ∃ failure, (w.runOn s).1 = .error failure

/-- However the work ends, it does the same in all surroundings. -/
class Follows (w : Work σ α) : Prop where
  supply : ∀ s, (markers (w.runOn s).2).supply = (markers s).supply
  stays : ∀ s, origin (w.runOn s).2 = origin s
  grows : ∀ s, (markers s).size ≤ (markers (w.runOn s).2).size
  follows : ∀ s around,
    (∀ k, (markers s).size ≤ k → k < (markers (w.runOn s).2).size →
      around.supply k = (markers s).supply k) →
    w.runOn (surround around s) = ((w.runOn s).1, surround around (w.runOn s).2)

namespace FollowsAt

variable {excuse : Prop} {w : Work σ α} {k : α → Work σ β} {s : σ} {around : Surroundings}

theorem of_follows (hw : Follows w) (excuse : Prop) (s : σ) (around : Surroundings) :
    FollowsAt excuse w s around :=
  ⟨hw.supply s, hw.stays s, hw.grows s, fun hagree => .inl (hw.follows s around hagree)⟩

theorem bind (hw : FollowsAt excuse w s around)
    (hk : ∀ a s', w.runOn s = (.ok a, s') → FollowsAt excuse (k a) s' around) :
    FollowsAt excuse (w >>= k) s around := by
  rcases hrun : w.runOn s with ⟨failure | a, s'⟩
  · have hbind : (w >>= k).runOn s = (.error failure, s') := by rw [runOn_bind, hrun]
    obtain ⟨hsupply, hstays, hgrown, hfirst⟩ := hw
    rw [hrun] at hsupply hstays hgrown hfirst
    refine ⟨hbind ▸ hsupply, hbind ▸ hstays, hbind ▸ hgrown, ?_⟩
    rw [hbind]
    intro hagree
    rcases hfirst hagree with hsame | hexcuse
    · left
      rw [runOn_bind, hsame]
    · exact .inr ⟨hexcuse.1, failure, rfl⟩
  · have hbind : (w >>= k).runOn s = (k a).runOn s' := by rw [runOn_bind, hrun]
    obtain ⟨hsupply, hstays, hgrown, hfirst⟩ := hw
    obtain ⟨hsupply', hstays', hgrown', hrest⟩ := hk a s' hrun
    rw [hrun] at hsupply hstays hgrown hfirst
    refine ⟨hbind ▸ hsupply'.trans hsupply, hbind ▸ hstays'.trans hstays,
      hbind ▸ Nat.le_trans hgrown hgrown', ?_⟩
    rw [hbind]
    intro hagree
    -- the first piece of work makes the markers up to `s'`, the second the others
    rcases hfirst fun k hk hlt => hagree k hk (Nat.lt_of_lt_of_le hlt hgrown') with hsame | hexcuse
    · rw [runOn_bind, hsame]
      refine hrest fun k hk hlt => ?_
      rw [hsupply]
      exact hagree k (Nat.le_trans hgrown hk) hlt
    · obtain ⟨-, _, hfails⟩ := hexcuse
      cases hfails

/-- Work on the state as it is, but for its surroundings. -/
theorem reading {k : σ → Work σ α} (hsame : k (surround around s) = k s)
    (hk : FollowsAt excuse (k s) s around) : FollowsAt excuse (get >>= k) s around where
  supply := hk.supply
  stays := hk.stays
  grows := hk.grows
  follows hagree := by
    rw [runOn_bind, runOn_bind, runOn_get, runOn_get]
    simp only [hsame]
    exact hk.follows hagree

end FollowsAt

namespace Follows

theorem of_at {w : Work σ α} (h : ∀ s around, FollowsAt False w s around) : Follows w where
  supply s := (h s ⟨(markers s).supply, origin s⟩).supply
  stays s := (h s ⟨(markers s).supply, origin s⟩).stays
  grows s := (h s ⟨(markers s).supply, origin s⟩).grows
  follows s around hagree := ((h s around).follows hagree).resolve_right fun hno => hno.1

theorem origin_ok {w : Work σ α} {s s' : σ} {a : α} (hw : Follows w)
    (h : w.runOn s = (.ok a, s')) : origin s' = origin s := by
  have hstays := hw.stays s
  rwa [h] at hstays

/-- Work that makes no markers. -/
theorem quiet {w : Work σ α}
    (hsame : ∀ s, (markers (w.runOn s).2, origin (w.runOn s).2) = (markers s, origin s))
    (h : ∀ s around, w.runOn (surround around s) =
      ((w.runOn s).1, surround around (w.runOn s).2)) : Follows w where
  supply s := congrArg Markers.supply (Prod.mk.inj (hsame s)).1
  stays s := (Prod.mk.inj (hsame s)).2
  grows s := Nat.le_of_eq (congrArg Markers.size (Prod.mk.inj (hsame s)).1).symm
  follows s around _ := h s around

/-- A change that leaves the markers alone. -/
theorem changing {f : σ → σ}
    (hsame : ∀ s, (markers (f s), origin (f s)) = (markers s, origin s))
    (h : ∀ s around, f (surround around s) = surround around (f s)) :
    Follows (modify f : Work σ Unit) :=
  quiet hsame fun s around => by rw [runOn_modify, runOn_modify, h]

/-- A change that leaves the markers alone and gives something. -/
theorem changingTo {f : σ → α × σ}
    (hsame : ∀ s, (markers (f s).2, origin (f s).2) = (markers s, origin s))
    (h : ∀ s around, f (surround around s) = ((f s).1, surround around (f s).2)) :
    Follows (modifyGet f : Work σ α) :=
  quiet hsame fun s around => by rw [runOn_modifyGet, runOn_modifyGet, h]

instance pure (a : α) : Follows (pure a : Work σ α) := quiet (fun _ => rfl) fun _ _ => rfl

instance throw (e : Failure) : Follows (throw e : Work σ α) := quiet (fun _ => rfl) fun _ _ => rfl

instance failAt (place : Option Location) (p : Problem) :
    Follows (failAt place p : Work σ α) := quiet (fun _ => rfl) fun _ _ => rfl

theorem bind' {w : Work σ α} {k : α → Work σ β} (hw : Follows w) (hk : ∀ a, Follows (k a)) :
    Follows (w >>= k) :=
  .of_at fun s around =>
    (FollowsAt.of_follows hw False s around).bind fun a s' _ => .of_follows (hk a) False s' around

instance bind {w : Work σ α} {k : α → Work σ β} [hw : Follows w] [hk : ∀ a, Follows (k a)] :
    Follows (w >>= k) := bind' hw hk

/-- Work on the state as it is, but for its surroundings. -/
theorem reading {k : σ → Work σ α} (hsame : ∀ s around, k (surround around s) = k s)
    (hk : ∀ s, Follows (k s)) : Follows (get >>= k) where
  supply s := (hk s).supply s
  stays s := (hk s).stays s
  grows s := (hk s).grows s
  follows s around hagree := by
    rw [runOn_bind, runOn_bind, runOn_get, runOn_get]
    simp only [hsame]
    exact (hk s).follows s around hagree

instance map {f : α → β} {w : Work σ α} [hw : Follows w] : Follows (f <$> w) := by
  rw [map_eq_pure_bind]
  infer_instance

instance discarded {w : Work σ α} [Follows w] : Follows (discard w : Work σ Unit) := map

instance ite {p : Prop} [Decidable p] {w v : Work σ α} [hw : Follows w] [hv : Follows v] :
    Follows (if p then w else v) := by
  split
  · exact hw
  · exact hv

theorem forIn' {f : α → β → Work σ (ForInStep β)} {xs : List α} {b : β}
    (h : ∀ a b, Follows (f a b)) : Follows (ForIn.forIn xs b f) := by
  induction xs generalizing b with
  | nil => exact pure b
  | cons x xs ih =>
    rw [List.forIn_cons]
    refine bind' (h x b) fun step => ?_
    cases step with
    | done b => exact pure b
    | yield b => exact ih

instance forIn {f : α → β → Work σ (ForInStep β)} {xs : List α} {b : β}
    [h : ∀ a b, Follows (f a b)] : Follows (ForIn.forIn xs b f) := forIn' h

theorem mapM' {f : α → Work σ β} {xs : List α} (h : ∀ a, Follows (f a)) :
    Follows (xs.mapM f) := by
  induction xs with
  | nil =>
    rw [List.mapM_nil]
    infer_instance
  | cons x xs ih =>
    rw [List.mapM_cons]
    exact bind' (h x) fun _ => bind' ih fun _ => inferInstance

instance mapM {f : α → Work σ β} {xs : List α} [h : ∀ a, Follows (f a)] : Follows (xs.mapM f) :=
  mapM' h

instance forM {f : α → Work σ PUnit} {xs : List α} [h : ∀ a, Follows (f a)] :
    Follows (xs.forM f) := by
  induction xs with
  | nil => exact pure _
  | cons x xs ih =>
    show Follows (f x >>= fun _ => xs.forM f)
    exact bind' (h x) fun _ => ih

instance attempt {w : Work σ α} [hw : Follows w] : Follows w.attempt where
  supply s := hw.supply s
  stays s := hw.stays s
  grows s := hw.grows s
  follows s around hagree := by
    rw [runOn_attempt, runOn_attempt, hw.follows s around hagree]

/-- Work between two changes that leave the markers alone. -/
theorem between {w : Work σ α} (hw : Follows w) {first last : σ → σ}
    (hfirst : ∀ s, (markers (first s), origin (first s)) = (markers s, origin s))
    (hlast : ∀ s, (markers (last s), origin (last s)) = (markers s, origin s))
    (hfirst' : ∀ s around, first (surround around s) = surround around (first s))
    (hlast' : ∀ s around, last (surround around s) = surround around (last s)) :
    Follows (modify first >>= fun _ => w.andThenAlways last) := by
  have hmarkers : ∀ s, markers (last s) = markers s := fun s => (Prod.mk.inj (hlast s)).1
  refine bind' (changing hfirst hfirst') fun _ =>
    ⟨fun s => ?_, fun s => ?_, fun s => ?_, fun s around h => ?_⟩
  · rw [runOn_andThenAlways, hmarkers]
    exact hw.supply s
  · rw [runOn_andThenAlways]
    exact (Prod.mk.inj (hlast _)).2.trans (hw.stays s)
  · rw [runOn_andThenAlways, hmarkers]
    exact hw.grows s
  · rw [runOn_andThenAlways, hmarkers] at h
    rw [runOn_andThenAlways, runOn_andThenAlways, hw.follows s around h, hlast']

end Follows

/-! ## Work on parts -/

instance (w : Work Document α) : Follows (liftM w : Work Draft α) :=
  Follows.quiet (fun _ => rfl) fun _ _ => rfl

instance (w : Work Document α) : Follows (liftM w : Work Session α) :=
  Follows.quiet (fun _ => rfl) fun _ _ => rfl

instance {w : Work Markers α} [h : Follows w] : Follows (liftM w : Work Draft α) where
  supply d := h.supply d.markers
  stays _ := rfl
  grows d := h.grows d.markers
  follows d around hagree := by
    have hmarkers := h.follows d.markers around hagree
    show ((w.runOn (surround around d.markers)).1,
      { surround around d with markers := (w.runOn (surround around d.markers)).2 }) = _
    rw [hmarkers]
    rfl

instance {w : Work Draft α} [h : Follows w] : Follows (liftM w : Work Session α) where
  supply s := h.supply s.toDraft
  stays s := h.stays s.toDraft
  grows s := h.grows s.toDraft
  follows s around hagree := by
    have hdraft := h.follows s.toDraft around hagree
    show ((w.runOn (surround around s.toDraft)).1,
      { surround around s with toDraft := (w.runOn (surround around s.toDraft)).2 }) = _
    rw [hdraft]
    rfl

theorem FollowsAt.lift {excuse : Prop} {w : Work Draft α} {s : Session} {around : Surroundings}
    (h : FollowsAt excuse w s.toDraft around) :
    FollowsAt excuse (liftM w : Work Session α) s around where
  supply := h.supply
  stays := h.stays
  grows := h.grows
  follows hagree := by
    rcases h.follows hagree with hsame | hexcuse
    · left
      show ((w.runOn (surround around s.toDraft)).1,
        { surround around s with toDraft := (w.runOn (surround around s.toDraft)).2 }) = _
      rw [hsame]
      rfl
    · exact .inr hexcuse

instance {w : Work Markers α} [h : Follows w] : Follows (liftM w : Work Session α) where
  supply s := h.supply s.markers
  stays _ := rfl
  grows s := h.grows s.markers
  follows s around hagree := by
    have hmarkers := h.follows s.markers around hagree
    show ((w.runOn (surround around s.markers)).1,
      { surround around s with markers := (w.runOn (surround around s.markers)).2 }) = _
    rw [hmarkers]
    rfl

end Work

end ViewBinder
