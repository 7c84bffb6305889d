-- What work does, step by step: how each way of putting work together runs on a state. The laws
-- below follow a run without looking into the monad. Work keeps a relation between states if it
-- leads from a state only to states in relation to it. That is shown once for each function, from
-- what it is put together from.
import Mathlib.Data.List.Forall2
import Mathlib.Order.Defs.Unbundled
import ViewBinder.Diagnostic.Problem

namespace ViewBinder

/-- An answer that can be read off is the answer; problems need not be compared. -/
theorem ok_of_toOption {ε α : Type} {answer : Except ε α} {a : α}
    (h : answer.toOption = some a) : answer = .ok a := by
  cases answer with
  | error e => cases h
  | ok b => exact congrArg _ (Option.some.inj h)

/-- An answer that takes two steps takes each. -/
theorem answer_bind {ε α β : Type} {answer : Except ε α} {k : α → Except ε β} {b : β}
    (h : answer >>= k = .ok b) : ∃ a, answer = .ok a ∧ k a = .ok b := by
  cases answer with
  | error e => cases h
  | ok a => exact ⟨a, rfl, h⟩

/-- An answer in two steps, neither of which fails that way. -/
theorem bind_ne_error {ε α β : Type} {e : ε} {answer : Except ε α} {k : α → Except ε β}
    (h : answer ≠ .error e) (hk : ∀ a, k a ≠ .error e) : answer >>= k ≠ .error e := by
  cases answer with
  | error e' => exact fun hsame => h (congrArg Except.error (Except.error.inj hsame))
  | ok a => exact hk a

namespace Work

variable {σ τ α β : Type}

@[simp] theorem runOn_pure (a : α) (s : σ) : (pure a : Work σ α).runOn s = (.ok a, s) := rfl

@[simp] theorem runOn_bind (w : Work σ α) (k : α → Work σ β) (s : σ) :
    (w >>= k).runOn s = match w.runOn s with
      | (.ok a, s') => (k a).runOn s'
      | (.error e, s') => (.error e, s') := by
  show StateT.bind w (ExceptT.bindCont k) s = _
  unfold StateT.bind runOn
  rcases w s with ⟨_ | _, _⟩ <;> rfl

@[simp] theorem runOn_map (f : α → β) (w : Work σ α) (s : σ) :
    (f <$> w).runOn s = ((w.runOn s).1.map f, (w.runOn s).2) := by
  rw [map_eq_pure_bind, runOn_bind]
  rcases w.runOn s with ⟨_ | _, _⟩ <;> rfl

@[simp] theorem runOn_get (s : σ) : (get : Work σ σ).runOn s = (.ok s, s) := rfl

@[simp] theorem runOn_set (s s' : σ) : (set s' : Work σ PUnit).runOn s = (.ok ⟨⟩, s') := rfl

@[simp] theorem runOn_modify (f : σ → σ) (s : σ) :
    (modify f : Work σ PUnit).runOn s = (.ok ⟨⟩, f s) := rfl

@[simp] theorem runOn_modifyGet (f : σ → α × σ) (s : σ) :
    (modifyGet f : Work σ α).runOn s = (.ok (f s).1, (f s).2) := rfl

@[simp] theorem runOn_throw (e : Failure) (s : σ) :
    (throw e : Work σ α).runOn s = (.error e, s) := rfl

@[simp] theorem runOn_failAt (place : Option Location) (p : Problem) (s : σ) :
    (failAt place p : Work σ α).runOn s = (.error (p.failure place), s) := rfl

@[simp] theorem runOn_onPart (part : τ → σ) (put : σ → τ → τ) (w : Work σ α) (s : τ) :
    (onPart part put w).runOn s = ((w.runOn (part s)).1, put (w.runOn (part s)).2 s) := rfl

@[simp] theorem runOn_andThenAlways (w : Work σ α) (after : σ → σ) (s : σ) :
    (w.andThenAlways after).runOn s = ((w.runOn s).1, after (w.runOn s).2) := rfl

@[simp] theorem runOn_attempt (w : Work σ α) (s : σ) :
    w.attempt.runOn s = (.ok (w.runOn s).1, (w.runOn s).2) := rfl

/-- Work that succeeds in two steps succeeds in each. -/
theorem bind_ok {w : Work σ α} {k : α → Work σ β} {s s'' : σ} {b : β}
    (h : (w >>= k).runOn s = (.ok b, s'')) :
    ∃ a s', w.runOn s = (.ok a, s') ∧ (k a).runOn s' = (.ok b, s'') := by
  rw [runOn_bind] at h
  split at h
  · rename_i a s' hw
    exact ⟨a, s', hw, h⟩
  · cases h

/-- Work whose answer is changed succeeds as it is. -/
theorem map_ok {f : α → β} {w : Work σ α} {s s' : σ} {b : β}
    (h : (f <$> w).runOn s = (.ok b, s')) : ∃ a, w.runOn s = (.ok a, s') ∧ b = f a := by
  rw [runOn_map] at h
  rcases hrun : w.runOn s with ⟨_ | a, s''⟩
  · rw [hrun] at h
    cases h
  · rw [hrun] at h
    cases h
    exact ⟨a, rfl, rfl⟩

/-! ## Relations between states -/

variable {R : σ → σ → Prop}

/-- Where the work succeeds, it leads to a state in relation to the first. -/
class Keeps (R : σ → σ → Prop) (w : Work σ α) : Prop where
  keeps : ∀ {s a s'}, w.runOn s = (.ok a, s') → R s s'

/-- However the work ends, it leads to a state in relation to the first. -/
class Leads (R : σ → σ → Prop) (w : Work σ α) : Prop where
  leads : ∀ s, R s (w.runOn s).2

instance (priority := low) Leads.keeps {w : Work σ α} [Leads R w] : Keeps R w where
  keeps {s _ _} h := by
    have := Leads.leads (R := R) (w := w) s
    rwa [h] at this

/-! ## Work that succeeds -/

namespace Keeps

theorem bind' [IsTrans σ R] {w : Work σ α} {k : α → Work σ β} (hw : Keeps R w)
    (hk : ∀ a, Keeps R (k a)) : Keeps R (w >>= k) where
  keeps h := by
    obtain ⟨a, s', hfirst, hrest⟩ := bind_ok h
    exact IsTrans.trans _ _ _ (hw.keeps hfirst) ((hk a).keeps hrest)

instance bind [IsTrans σ R] {w : Work σ α} {k : α → Work σ β} [hw : Keeps R w]
    [hk : ∀ a, Keeps R (k a)] : Keeps R (w >>= k) := bind' hw hk

theorem map' {f : α → β} {w : Work σ α} (hw : Keeps R w) : Keeps R (f <$> w) where
  keeps {s b s'} h := by
    rw [runOn_map] at h
    rcases hrun : w.runOn s with ⟨_ | a, s''⟩
    · rw [hrun] at h
      cases h
    · rw [hrun] at h
      cases h
      exact hw.keeps hrun

instance map {f : α → β} {w : Work σ α} [hw : Keeps R w] : Keeps R (f <$> w) := map' hw

instance discarded {w : Work σ α} [Keeps R w] : Keeps R (discard w : Work σ Unit) := map

instance ite {p : Prop} [Decidable p] {w v : Work σ α} [hw : Keeps R w] [hv : Keeps R v] :
    Keeps R (if p then w else v) := by
  split
  · exact hw
  · exact hv

variable [Std.Refl R] [IsTrans σ R]

theorem forInMem {f : α → β → Work σ (ForInStep β)} {xs : List α} {b : β}
    (h : ∀ a ∈ xs, ∀ b, Keeps R (f a b)) : Keeps R (ForIn.forIn xs b f) := by
  induction xs generalizing b with
  | nil => exact ⟨fun h => by cases h; exact Std.Refl.refl _⟩
  | cons x xs ih =>
    rw [List.forIn_cons]
    refine bind' (h x List.mem_cons_self b) fun step => ?_
    cases step with
    | done b => exact ⟨fun h => by cases h; exact Std.Refl.refl _⟩
    | yield b => exact ih fun a ha => h a (List.mem_cons_of_mem _ ha)

theorem forIn' {f : α → β → Work σ (ForInStep β)} {xs : List α} {b : β}
    (h : ∀ a b, Keeps R (f a b)) : Keeps R (ForIn.forIn xs b f) := forInMem fun a _ => h a

instance forIn {f : α → β → Work σ (ForInStep β)} {xs : List α} {b : β}
    [h : ∀ a b, Keeps R (f a b)] : Keeps R (ForIn.forIn xs b f) := forIn' h

theorem mapM' {f : α → Work σ β} {xs : List α} (h : ∀ a, Keeps R (f a)) : Keeps R (xs.mapM f) := by
  induction xs with
  | nil =>
    rw [List.mapM_nil]
    exact ⟨fun h => by cases h; exact Std.Refl.refl _⟩
  | cons x xs ih =>
    rw [List.mapM_cons]
    refine bind' (h x) fun _ => bind' ih fun _ => ?_
    exact ⟨fun h => by cases h; exact Std.Refl.refl _⟩

instance mapM {f : α → Work σ β} {xs : List α} [h : ∀ a, Keeps R (f a)] : Keeps R (xs.mapM f) :=
  mapM' h

instance forM {f : α → Work σ PUnit} {xs : List α} [h : ∀ a, Keeps R (f a)] :
    Keeps R (xs.forM f) := by
  induction xs with
  | nil => exact ⟨fun h => by cases h; exact Std.Refl.refl _⟩
  | cons x xs ih =>
    show Keeps R (f x >>= fun _ => xs.forM f)
    exact bind' (h x) fun _ => ih

end Keeps

/-! ## Work however it ends -/

namespace Leads

theorem bind' [IsTrans σ R] {w : Work σ α} {k : α → Work σ β} (hw : Leads R w)
    (hk : ∀ a, Leads R (k a)) : Leads R (w >>= k) where
  leads s := by
    rw [runOn_bind]
    have hfirst := hw.leads s
    rcases hrun : w.runOn s with ⟨_ | a, s'⟩
    · rw [hrun] at hfirst
      exact hfirst
    · rw [hrun] at hfirst
      exact IsTrans.trans _ _ _ hfirst ((hk a).leads s')

instance bind [IsTrans σ R] {w : Work σ α} {k : α → Work σ β} [hw : Leads R w]
    [hk : ∀ a, Leads R (k a)] : Leads R (w >>= k) := bind' hw hk

instance map {f : α → β} {w : Work σ α} [hw : Leads R w] : Leads R (f <$> w) where
  leads s := by
    rw [runOn_map]
    exact hw.leads s

instance discarded {w : Work σ α} [Leads R w] : Leads R (discard w : Work σ Unit) := map

instance ite {p : Prop} [Decidable p] {w v : Work σ α} [hw : Leads R w] [hv : Leads R v] :
    Leads R (if p then w else v) := by
  split
  · exact hw
  · exact hv

instance attempt {w : Work σ α} [hw : Leads R w] : Leads R w.attempt where
  leads s := hw.leads s

variable [Std.Refl R]

instance pure (a : α) : Leads R (pure a : Work σ α) := ⟨fun _ => Std.Refl.refl _⟩

instance get : Leads R (get : Work σ σ) := ⟨fun _ => Std.Refl.refl _⟩

instance throw (e : Failure) : Leads R (throw e : Work σ α) := ⟨fun _ => Std.Refl.refl _⟩

instance failAt (place : Option Location) (p : Problem) :
    Leads R (failAt place p : Work σ α) := ⟨fun _ => Std.Refl.refl _⟩

variable [IsTrans σ R]

theorem forInMem {f : α → β → Work σ (ForInStep β)} {xs : List α} {b : β}
    (h : ∀ a ∈ xs, ∀ b, Leads R (f a b)) : Leads R (ForIn.forIn xs b f) := by
  induction xs generalizing b with
  | nil => exact pure b
  | cons x xs ih =>
    rw [List.forIn_cons]
    refine bind' (h x List.mem_cons_self b) fun step => ?_
    cases step with
    | done b => exact pure b
    | yield b => exact ih fun a ha => h a (List.mem_cons_of_mem _ ha)

theorem forIn' {f : α → β → Work σ (ForInStep β)} {xs : List α} {b : β}
    (h : ∀ a b, Leads R (f a b)) : Leads R (ForIn.forIn xs b f) := forInMem fun a _ => h a

instance forIn {f : α → β → Work σ (ForInStep β)} {xs : List α} {b : β}
    [h : ∀ a b, Leads R (f a b)] : Leads R (ForIn.forIn xs b f) := forIn' h

theorem mapM' {f : α → Work σ β} {xs : List α} (h : ∀ a, Leads R (f a)) : Leads R (xs.mapM f) := by
  induction xs with
  | nil =>
    rw [List.mapM_nil]
    infer_instance
  | cons x xs ih =>
    rw [List.mapM_cons]
    exact bind' (h x) fun _ => bind' ih fun _ => inferInstance

instance mapM {f : α → Work σ β} {xs : List α} [h : ∀ a, Leads R (f a)] : Leads R (xs.mapM f) :=
  mapM' h

instance forM {f : α → Work σ PUnit} {xs : List α} [h : ∀ a, Leads R (f a)] :
    Leads R (xs.forM f) := by
  induction xs with
  | nil => exact pure _
  | cons x xs ih =>
    show Leads R (f x >>= fun _ => xs.forM f)
    exact bind' (h x) fun _ => ih

end Leads

/-! ## Work on a list -/

/-- What holds of the state through work on all values, and what their answers are like. -/
theorem mapM_ok {P : σ → Prop} {Q : α → β → Prop} {f : α → Work σ β} {xs : List α}
    (h : ∀ a ∈ xs, ∀ s b s', P s → (f a).runOn s = (.ok b, s') → P s' ∧ Q a b)
    {s s' : σ} {bs : List β} (hs : P s) (hrun : (xs.mapM f).runOn s = (.ok bs, s')) :
    P s' ∧ List.Forall₂ Q xs bs := by
  induction xs generalizing s bs with
  | nil =>
    rw [List.mapM_nil] at hrun
    cases hrun
    exact ⟨hs, .nil⟩
  | cons x xs ih =>
    rw [List.mapM_cons] at hrun
    obtain ⟨b, s₁, hfirst, hrun⟩ := bind_ok hrun
    obtain ⟨bs', s₂, hothers, hrun⟩ := bind_ok hrun
    cases hrun
    obtain ⟨hs₁, hb⟩ := h x List.mem_cons_self s b s₁ hs hfirst
    obtain ⟨hs', hbs⟩ := ih (fun a ha => h a (List.mem_cons_of_mem _ ha)) hs₁ hothers
    exact ⟨hs', .cons hb hbs⟩

end Work

end ViewBinder
