-- Batches: templates that are compiled together. Some workers take them up in order, and the steps
-- of different templates may come in any order. What the templates share is the counter that numbers
-- their markers and the descriptors of types that were worked out before.
import ViewBinder.Compile

namespace ViewBinder

/-- Templates that are compiled together. -/
structure Batch where
  catalog : Catalog
  settings : Settings
  /-- How many of them are compiled at once; at least one is. -/
  workers : Nat
  templates : List Template

namespace Batch

/-- The most templates that are compiled at once. -/
def limit (b : Batch) : Nat := max b.workers 1

/-! ## Steps -/

/-- How far a template is. -/
inductive Stage where
  | waiting
  /-- It is being compiled, and its markers were handed these numbers. -/
  | running (ids : List Nat)
  /-- It was compiled, its markers being handed these numbers. -/
  | done (ids : List Nat) (outcome : Outcome)

namespace Stage

/-- The numbers that were handed out for a template. -/
def ids : Stage → List Nat
  | waiting => []
  | running ids => ids
  | done ids _ => ids

/-- The template was not taken up. -/
def isWaiting : Stage → Bool
  | waiting => true
  | _ => false

/-- The template is being compiled. -/
def isRunning : Stage → Bool
  | running _ => true
  | _ => false

/-- What became of the template. -/
def outcome? : Stage → Option Outcome
  | done _ outcome => some outcome
  | _ => none

end Stage

/-- How far a batch is. -/
structure State where
  /-- The number that was handed out last. -/
  counter : Nat
  /-- The descriptors that were worked out so far. -/
  kept : DescriptorCache
  /-- The templates in their order, and how far they are. -/
  units : List (Template × Stage)

/-- A batch before its first template is taken up; `used` numbers were handed out before. -/
def opening (b : Batch) (used : Nat) (kept : DescriptorCache) : State :=
  ⟨used, kept, b.templates.map fun t => (t, .waiting)⟩

/-- The numbers handed out for a template, in the order in which it makes markers. -/
def handing (ids : List Nat) (k : Nat) : Nat := ids.getD k 0

/-- What a template gives when its markers are handed some numbers. -/
def compiled (b : Batch) (ids : List Nat) (t : Template) : Outcome :=
  t.compileWith (handing ids) b.catalog b.settings

/-- What can happen next. A descriptor that two templates work out at the same time counts as kept by
the first of them; the other one finds it. -/
inductive Step (b : Batch) (s : State) : State → Prop
  /-- The next template is taken up. -/
  | start (past : List (Template × Stage)) {future : List (Template × Stage)} {t : Template}
      (hunits : s.units = past ++ (t, .waiting) :: future)
      (hpast : ∀ u ∈ past, u.2.isWaiting = false)
      (hfree : s.units.countP (·.2.isRunning) < b.limit) :
      Step b s { s with units := past ++ (t, .running []) :: future }
  /-- A template makes a marker, which is handed the next number. -/
  | number (past : List (Template × Stage)) {future : List (Template × Stage)} {t : Template}
      {ids : List Nat} (hunits : s.units = past ++ (t, .running ids) :: future)
      (hasks : ids.length < (b.compiled ids t).markers) :
      Step b s { s with counter := s.counter + 1,
                        units := past ++ (t, .running (ids ++ [s.counter + 1])) :: future }
  /-- A template asks for the descriptor of a type that everybody sees. -/
  | describe (past : List (Template × Stage)) {future : List (Template × Stage)} {t : Template}
      {ids : List Nat} {type : TypeId} (hunits : s.units = past ++ (t, .running ids) :: future)
      (hshared : b.catalog.shared.lookup (b.catalog.decl type).key = some type) :
      Step b s { s with kept := (s.kept.get b.catalog type).2 }
  /-- A template makes no more markers and comes to its end. -/
  | finish (past : List (Template × Stage)) {future : List (Template × Stage)} {t : Template}
      {ids : List Nat} (hunits : s.units = past ++ (t, .running ids) :: future)
      (hends : (b.compiled ids t).markers ≤ ids.length) :
      Step b s { s with units := past ++ (t, .done ids (b.compiled ids t)) :: future }

/-! ## One way to go -/

/-- The order in which templates end when each is compiled in one go: the last of those that start
together goes first, then the ones that take its place, and then those that started before it. -/
def takenUp {α : Type} (b : Batch) (xs : List α) : List α :=
  let waiting := min b.limit xs.length - 1
  xs.drop waiting ++ xs.take waiting

/-- What was taken up, in its order again. -/
def putBack {α : Type} (b : Batch) (xs : List α) : List α :=
  let waiting := min b.limit xs.length - 1
  xs.drop (xs.length - waiting) ++ xs.take (xs.length - waiting)

/-- What the templates give when each is compiled in one go; `used` numbers were handed out before.
There are other ways to go from step to step, but this one is always open. -/
def outcomes (b : Batch) (used : Nat) : List Outcome :=
  b.putBack (Template.compileFrom b.catalog b.settings used (b.takenUp b.templates))

end Batch

namespace Template

/-- Compiles templates that do not know of each other. -/
def compileAll (c : Catalog) (settings : Settings) (ts : List Template) : List Outcome :=
  Batch.outcomes ⟨c, settings, settings.workers.getD 1, ts⟩ 0

end Template

end ViewBinder
