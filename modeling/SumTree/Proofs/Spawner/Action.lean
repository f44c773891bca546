import SumTree.Spawner.Action

/-!
# What actions do

What the actions do to a state and its journal, one equation for each way to build one. An action on a
state with additional parts projects to an action on the state without them when both give the same
value, leave the same records, and change what they share in the same way (`Action.Projects`); this is
kept by every way to build actions, so that what is merely remembered about a run has no influence on
it.

## Main Definitions

* `Logged.map` — a state with its journal, seen through a projection.
* `Action.Projects` — an action that does not use what a projection drops.
-/

namespace SumTree

variable {σ τ α β : Type}

/-- A state with its journal, seen through a projection. -/
def Logged.map (f : τ → σ) (w : Logged τ) : Logged σ :=
  ⟨f w.state, w.journal⟩

namespace Action

/-! ### Equations -/

@[simp] theorem perform_pure (a : α) (w : Logged σ) :
    (pure a : Action σ α).perform w = (.ok a, w) := rfl

@[simp] theorem perform_fail (failure : Failure) (w : Logged σ) :
    (fail failure : Action σ α).perform w = (.error failure, w) := rfl

@[simp] theorem perform_state (w : Logged σ) :
    (state : Action σ σ).perform w = (.ok w.state, w) := rfl

@[simp] theorem perform_change (f : σ → σ) (w : Logged σ) :
    (change f).perform w = (.ok (), ⟨f w.state, w.journal⟩) := rfl

@[simp] theorem perform_log (level : LogLevel) (text : String) (w : Logged σ) :
    (log level text).perform w = (.ok (), ⟨w.state, w.journal ++ [⟨level, text⟩]⟩) := rfl

@[simp] theorem perform_attempt (a : Action σ α) (w : Logged σ) :
    (attempt a).perform w = (.ok (a.perform w).1, (a.perform w).2) := rfl

theorem perform_onPart (part : σ → τ) (put : σ → τ → σ) (a : Action τ α) (w : Logged σ) :
    (onPart part put a).perform w =
      ((a.perform (w.map part)).1,
        ⟨put w.state (a.perform (w.map part)).2.state, (a.perform (w.map part)).2.journal⟩) := rfl

theorem perform_bind (a : Action σ α) (f : α → Action σ β) (w : Logged σ) :
    (a >>= f).perform w =
      match a.perform w with
      | (.ok x, after) => (f x).perform after
      | (.error failure, after) => (.error failure, after) := by
  have hbind : (a >>= f).perform w =
      ExceptT.bindCont f (a.perform w).1 (a.perform w).2 := rfl
  rw [hbind]
  cases a.perform w with
  | mk result after =>
      cases result with
      | ok x => rfl
      | error failure => rfl

theorem perform_bind_ok {a : Action σ α} {f : α → Action σ β} {w after : Logged σ} {x : α}
    (h : a.perform w = (.ok x, after)) : (a >>= f).perform w = (f x).perform after := by
  rw [perform_bind, h]

theorem perform_bind_error {a : Action σ α} {f : α → Action σ β} {w after : Logged σ}
    {failure : Failure} (h : a.perform w = (.error failure, after)) :
    (a >>= f).perform w = (.error failure, after) := by
  rw [perform_bind, h]

/-- What comes of two actions one after the other comes of both of them. -/
theorem exists_of_perform_bind {a : Action σ α} {f : α → Action σ β} {w after : Logged σ} {y : β}
    (h : (a >>= f).perform w = (.ok y, after)) :
    ∃ x between, a.perform w = (.ok x, between) ∧ (f x).perform between = (.ok y, after) := by
  rw [perform_bind] at h
  split at h
  · exact ⟨_, _, ‹_›, h⟩
  · cases h

theorem of_perform_attempt {a : Action σ α} {w after : Logged σ} {result : Except Failure α}
    (h : (attempt a).perform w = (.ok result, after)) : a.perform w = (result, after) := by
  rw [perform_attempt] at h
  cases h
  rfl

/-! ### Projections -/

/-- The one action is the other one seen through a projection of the states. -/
def Projects (f : τ → σ) (a : Action τ α) (b : Action σ α) : Prop :=
  ∀ w, b.perform (w.map f) = ((a.perform w).1, (a.perform w).2.map f)

namespace Projects

variable {f : τ → σ}

theorem pure (x : α) : Projects f (Pure.pure x : Action τ α) (Pure.pure x) :=
  fun _ => rfl

theorem fail (failure : Failure) : Projects f (Action.fail failure : Action τ α) (Action.fail failure) :=
  fun _ => rfl

theorem log (level : LogLevel) (text : String) :
    Projects f (Action.log level text : Action τ Unit) (Action.log level text) :=
  fun _ => rfl

theorem change {g : τ → τ} {g' : σ → σ} (h : ∀ s, g' (f s) = f (g s)) :
    Projects f (Action.change g) (Action.change g') := by
  intro w
  rw [perform_change, perform_change]
  show (Except.ok (), (⟨g' (f w.state), w.journal⟩ : Logged σ)) = _
  rw [h]
  rfl

theorem attempt {a : Action τ α} {b : Action σ α} (h : Projects f a b) :
    Projects f (Action.attempt a) (Action.attempt b) := by
  intro w
  rw [perform_attempt, perform_attempt, h w]

theorem bind {a : Action τ α} {b : Action σ α} {k : α → Action τ β} {k' : α → Action σ β}
    (h : Projects f a b) (hk : ∀ x, Projects f (k x) (k' x)) :
    Projects f (a >>= k) (b >>= k') := by
  intro w
  rw [perform_bind, perform_bind, h w]
  cases a.perform w with
  | mk result after =>
      cases result with
      | ok x => exact hk x after
      | error failure => rfl

/-- An action on a part of a state, where the part is seen through a projection of its own. -/
theorem onPart {σ' τ' : Type} {g : τ' → σ'} {part : τ → τ'} {part' : σ → σ'} {put : τ → τ' → τ}
    {put' : σ → σ' → σ} {a : Action τ' α} {b : Action σ' α} (hpart : ∀ s, part' (f s) = g (part s))
    (hput : ∀ s t, put' (f s) (g t) = f (put s t)) (h : Projects g a b) :
    Projects f (Action.onPart part put a) (Action.onPart part' put' b) := by
  intro w
  have hmap : (w.map f).map part' = (w.map part).map g :=
    congrArg (Logged.mk · w.journal) (hpart w.state)
  rw [perform_onPart, perform_onPart, hmap, h (w.map part)]
  exact congrArg (fun s => (_, Logged.mk s _)) (hput w.state _)

/-- An action that looks at its state looks at the shared part of it alone. -/
theorem state_bind {k : τ → Action τ β} {k' : σ → Action σ β}
    (hk : ∀ s, Projects f (k s) (k' (f s))) :
    Projects f (Action.state >>= k) (Action.state >>= k') := by
  intro w
  rw [perform_bind, perform_bind, perform_state, perform_state]
  exact hk w.state w

end Projects

end Action

end SumTree
