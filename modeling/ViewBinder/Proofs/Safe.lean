-- Work that does not crash. Work is safe under an invariant if it keeps the invariant however it
-- ends, and crashes only in states that are known as bad. That is shown once for each function, from
-- what it is put together from.
import ViewBinder.Proofs.Work

namespace ViewBinder.Work

variable {σ α β γ : Type} {I B : σ → Prop}

/-- However the work ends from a state the invariant holds, and if it crashes the state is bad. -/
def SafeAt (I B : σ → Prop) (w : Work σ α) (s : σ) : Prop :=
  I (w.runOn s).2 ∧ ((w.runOn s).1 = .error .crash → B (w.runOn s).2)

/-- The work is safe from every state of which the invariant holds. -/
class Safe (I B : σ → Prop) (w : Work σ α) : Prop where
  safe : ∀ s, I s → SafeAt I B w s

theorem SafeAt.bind {w : Work σ α} {k : α → Work σ β} {s : σ} (hw : SafeAt I B w s)
    (hk : ∀ {a s'}, w.runOn s = (.ok a, s') → SafeAt I B (k a) s') : SafeAt I B (w >>= k) s := by
  unfold SafeAt at hw ⊢
  rw [runOn_bind]
  rcases hrun : w.runOn s with ⟨_ | a, s'⟩
  · rw [hrun] at hw
    exact ⟨hw.1, fun hcrash => hw.2 (congrArg Except.error (Except.error.inj hcrash))⟩
  · exact hk hrun

namespace Safe

theorem keeps {w : Work σ α} (hw : Safe I B w) {s s' : σ} {answer : Except Failure α} (hs : I s)
    (h : w.runOn s = (answer, s')) : I s' := by
  have := (hw.safe s hs).1
  rwa [h] at this

/-- Work that succeeds is safe if it keeps the invariant. -/
theorem of_ok {w : Work σ α} (h : ∀ s, I s → ∃ a, (w.runOn s).1 = .ok a ∧ I (w.runOn s).2) :
    Safe I B w where
  safe s hs := by
    obtain ⟨a, hanswer, hkept⟩ := h s hs
    refine ⟨hkept, fun hcrash => ?_⟩
    rw [hanswer] at hcrash
    cases hcrash

theorem modify {f : σ → σ} (h : ∀ s, I s → I (f s)) : Safe I B (modify f : Work σ PUnit) :=
  of_ok fun s hs => ⟨⟨⟩, rfl, h s hs⟩

theorem modifyGet {f : σ → α × σ} (h : ∀ s, I s → I (f s).2) :
    Safe I B (modifyGet f : Work σ α) :=
  of_ok fun s hs => ⟨(f s).1, rfl, h s hs⟩

instance pure (a : α) : Safe I B (pure a : Work σ α) := of_ok fun _ hs => ⟨a, rfl, hs⟩

instance get : Safe I B (get : Work σ σ) := of_ok fun s hs => ⟨s, rfl, hs⟩

theorem throw {f : Failure} (hf : f ≠ .crash) : Safe I B (throw f : Work σ α) where
  safe _ hs := ⟨hs, fun hcrash => absurd (Except.error.inj hcrash) hf⟩

instance failAt (place : Option Location) (p : Problem) : Safe I B (failAt place p : Work σ α) :=
  throw fun h => by cases h

/-- What follows is safe for the answers that the first piece of work gives. -/
theorem after {Q : α → Prop} {w : Work σ α} {k : α → Work σ β} (hw : Safe I B w)
    (hQ : ∀ {s a s'}, I s → w.runOn s = (.ok a, s') → Q a) (hk : ∀ a, Q a → Safe I B (k a)) :
    Safe I B (w >>= k) where
  safe s hs := (hw.safe s hs).bind fun hrun => (hk _ (hQ hs hrun)).safe _ (hw.keeps hs hrun)

theorem bind' {w : Work σ α} {k : α → Work σ β} (hw : Safe I B w) (hk : ∀ a, Safe I B (k a)) :
    Safe I B (w >>= k) := hw.after (Q := fun _ => True) (fun _ _ => trivial) fun a _ => hk a

instance bind {w : Work σ α} {k : α → Work σ β} [hw : Safe I B w] [hk : ∀ a, Safe I B (k a)] :
    Safe I B (w >>= k) := bind' hw hk

/-- What is read of the state is as the invariant has it. -/
theorem read {k : σ → Work σ α} (hk : ∀ s, I s → Safe I B (k s)) :
    Safe I B (MonadState.get >>= k) where
  safe s hs := (hk s hs).safe s hs

theorem map' {f : α → β} {w : Work σ α} (hw : Safe I B w) : Safe I B (f <$> w) := by
  rw [map_eq_pure_bind]
  exact bind' hw fun _ => inferInstance

instance map {f : α → β} {w : Work σ α} [hw : Safe I B w] : Safe I B (f <$> w) := map' hw

instance discarded {w : Work σ α} [hw : Safe I B w] : Safe I B (discard w : Work σ Unit) := map' hw

instance ite {p : Prop} [Decidable p] {w v : Work σ α} [hw : Safe I B w] [hv : Safe I B v] :
    Safe I B (if p then w else v) := by
  split
  · exact hw
  · exact hv

/-- A check that comes first. -/
theorem checked {p : Prop} [Decidable p] {check : Work σ Unit} {k : Unit → Work σ α}
    (hcheck : Safe I B check) (hk : ∀ b, Safe I B (k b)) :
    Safe I B (if p then check >>= k else k ()) := by
  split
  · exact bind' hcheck hk
  · exact hk ()

/-- Work after which the state is put right. -/
theorem andThenAlways {w : Work σ α} {after : σ → σ} (hw : Safe I B w)
    (hkept : ∀ s, I s → I (after s)) (hbad : ∀ s, B s → B (after s)) :
    Safe I B (w.andThenAlways after) where
  safe s hs := ⟨hkept _ (hw.safe s hs).1, fun hcrash => hbad _ ((hw.safe s hs).2 hcrash)⟩

/-- A failure that is looked at is no crash. -/
theorem attempted {w : Work σ α} {k : Except Failure α → Work σ β}
    (hw : Safe I (fun _ => False) w)
    (hk : ∀ answer, answer ≠ .error .crash → Safe I B (k answer)) :
    Safe I B (w.attempt >>= k) := by
  have hattempt : Safe I B w.attempt := of_ok fun s hs => ⟨_, rfl, (hw.safe s hs).1⟩
  refine hattempt.after (fun {s answer s'} hs hrun => ?_) hk
  rw [runOn_attempt] at hrun
  cases hrun
  exact (hw.safe s hs).2

/-- Work that fails with what was reported, if anything was. -/
theorem failing {log : σ → Log} : Safe I B (do
    match (log (← MonadState.get)).failure? with
    | some failure => MonadExcept.throw failure
    | none => Pure.pure PUnit.unit : Work σ PUnit) := by
  refine read fun s _ => ?_
  unfold Log.failure?
  split
  · rename_i failure hfailure
    refine throw ?_
    intro hcrash
    split at hfailure <;> cases hfailure <;> cases hcrash
  · exact pure PUnit.unit

/-! ## Work on a list -/

theorem forInMem {f : α → β → Work σ (ForInStep β)} {xs : List α} {b : β}
    (h : ∀ a ∈ xs, ∀ b, Safe I B (f a b)) : Safe I B (ForIn.forIn xs b f) := by
  induction xs generalizing b with
  | nil => exact pure b
  | cons x xs ih =>
    rw [List.forIn_cons]
    refine bind' (h x List.mem_cons_self b) fun step => ?_
    cases step with
    | done b => exact pure b
    | yield b => exact ih fun a ha => h a (List.mem_cons_of_mem _ ha)

instance forIn {f : α → β → Work σ (ForInStep β)} {xs : List α} {b : β}
    [h : ∀ a b, Safe I B (f a b)] : Safe I B (ForIn.forIn xs b f) := forInMem fun a _ => h a

theorem mapMMem {f : α → Work σ β} {xs : List α} (h : ∀ a ∈ xs, Safe I B (f a)) :
    Safe I B (xs.mapM f) := by
  induction xs with
  | nil =>
    rw [List.mapM_nil]
    infer_instance
  | cons x xs ih =>
    rw [List.mapM_cons]
    refine bind' (h x List.mem_cons_self) fun _ => bind' ?_ fun _ => inferInstance
    exact ih fun a ha => h a (List.mem_cons_of_mem _ ha)

instance mapM {f : α → Work σ β} {xs : List α} [h : ∀ a, Safe I B (f a)] :
    Safe I B (xs.mapM f) := mapMMem fun a _ => h a

theorem forMMem {f : α → Work σ PUnit} {xs : List α} (h : ∀ a ∈ xs, Safe I B (f a)) :
    Safe I B (xs.forM f) := by
  induction xs with
  | nil => exact pure PUnit.unit
  | cons x xs ih =>
    show Safe I B (f x >>= fun _ => xs.forM f)
    exact bind' (h x List.mem_cons_self) fun _ => ih fun a ha => h a (List.mem_cons_of_mem _ ha)

instance forM {f : α → Work σ PUnit} {xs : List α} [h : ∀ a, Safe I B (f a)] :
    Safe I B (xs.forM f) := forMMem fun a _ => h a

end Safe

end ViewBinder.Work
