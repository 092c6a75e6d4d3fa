import Mathlib.Data.List.Basic

/-!
# Actions that may raise

An action reads and changes a state and returns a value or raises an exception;
what it did to the state before it raised stays done.  `Keeps` says that an
action keeps a property of the state, however it ends.  The rules follow the way
actions are put together, so an action keeps what its parts keep.  `Runs` says
how an action ends as well, with rules of the same shape.
-/

universe u

/-- An action on a state that may raise. -/
abbrev Fallible (ε σ : Type u) := ExceptT ε (StateM σ)

namespace Fallible

variable {ε σ α β : Type u}

/-- The state an action leaves, however it ends. -/
def after (action : Fallible ε σ α) (s : σ) : σ := (action.run.run s).2

/-- The action keeps a property of the state. -/
def Keeps (Inv : σ → Prop) (action : Fallible ε σ α) : Prop :=
  ∀ s, Inv s → Inv (action.after s)

variable {Inv : σ → Prop} {action : Fallible ε σ α} {next : α → Fallible ε σ β} {s : σ}

/-! ## What is left behind -/

/-- Reading the state. -/
@[simp] theorem after_get_bind (next : σ → Fallible ε σ β) (s : σ) :
    (get >>= next).after s = (next s).after s := rfl

@[simp] theorem after_modify_bind (f : σ → σ) (next : PUnit → Fallible ε σ β) (s : σ) :
    (modify f >>= next).after s = (next ⟨⟩).after (f s) := rfl

/-- The second action starts where the first one ended, or does not start. -/
theorem after_bind (action : Fallible ε σ α) (next : α → Fallible ε σ β) (s : σ) :
    (∃ a, (action >>= next).after s = (next a).after (action.after s)) ∨
      (action >>= next).after s = action.after s := by
  unfold after
  rw [ExceptT.run_bind, StateT.run_bind]
  rcases action.run.run s with ⟨result, s'⟩
  cases result with
  | ok a => exact .inl ⟨a, rfl⟩
  | error e => exact .inr rfl

/-- The handler starts where the action was interrupted, or does not start. -/
theorem after_tryCatch (action : Fallible ε σ α) (handler : ε → Fallible ε σ α) (s : σ) :
    (∃ e, (tryCatch action handler).after s = (handler e).after (action.after s)) ∨
      (tryCatch action handler).after s = action.after s := by
  unfold after
  rw [ExceptT.run_tryCatch, StateT.run_bind]
  rcases action.run.run s with ⟨result, s'⟩
  cases result with
  | ok a => exact .inr rfl
  | error e => exact .inl ⟨e, rfl⟩

/-! ## Rules -/

theorem keeps_pure (a : α) : Keeps Inv (pure a : Fallible ε σ α) := fun _ inv => inv

theorem keeps_throw (e : ε) : Keeps Inv (throw e : Fallible ε σ α) := fun _ inv => inv

theorem keeps_modify {f : σ → σ} (keeps : ∀ s, Inv s → Inv (f s)) :
    Keeps Inv (modify f : Fallible ε σ PUnit) := keeps

theorem keeps_get_bind {next : σ → Fallible ε σ β} (keeps : ∀ s, Keeps Inv (next s)) :
    Keeps Inv (get >>= next) := fun s inv => keeps s s inv

/-- What holds after an action holds after a sequence of actions that keep it. -/
theorem inv_bind (inv : Inv (action.after s)) (keeps : ∀ a, Keeps Inv (next a)) :
    Inv ((action >>= next).after s) := by
  rcases after_bind action next s with ⟨a, same⟩ | same
  · rw [same]
    exact keeps a _ inv
  · rwa [same]

theorem keeps_bind (first : Keeps Inv action) (keeps : ∀ a, Keeps Inv (next a)) :
    Keeps Inv (action >>= next) := fun s inv => inv_bind (first s inv) keeps

theorem inv_tryCatch {handler : ε → Fallible ε σ α} (inv : Inv (action.after s))
    (keeps : ∀ e, Keeps Inv (handler e)) : Inv ((tryCatch action handler).after s) := by
  rcases after_tryCatch action handler s with ⟨e, same⟩ | same
  · rw [same]
    exact keeps e _ inv
  · rwa [same]

/-- A loop keeps what its body keeps. -/
theorem keeps_forM {body : α → Fallible ε σ PUnit} (keeps : ∀ a, Keeps Inv (body a))
    (items : List α) : Keeps Inv (items.forM body) := by
  induction items with
  | nil => exact keeps_pure _
  | cons item items ih => exact keeps_bind (keeps item) fun _ => ih

/-! ## How an action ends -/

/-- From `s` the action ends with a result in the state `t`. -/
def Runs (action : Fallible ε σ α) (s : σ) (result : Except ε α) (t : σ) : Prop :=
  action.run.run s = (result, t)

section Runs

variable {result : Except ε β} {a : α} {e : ε} {t u : σ}

theorem Runs.after {result : Except ε α} (ran : Runs action s result t) : action.after s = t :=
  congrArg Prod.snd ran

theorem runs_pure (a : α) (s : σ) : Runs (pure a : Fallible ε σ α) s (.ok a) s := rfl

theorem runs_throw (e : ε) (s : σ) : Runs (throw e : Fallible ε σ α) s (.error e) s := rfl

theorem runs_modify (f : σ → σ) (s : σ) :
    Runs (modify f : Fallible ε σ PUnit) s (.ok ⟨⟩) (f s) := rfl

theorem runs_get_bind {next : σ → Fallible ε σ β} (ran : Runs (next s) s result t) :
    Runs (get >>= next) s result t := ran

theorem Runs.bind (first : Runs action s (.ok a) t) (second : Runs (next a) t result u) :
    Runs (action >>= next) s result u := by
  unfold Runs at *
  rw [ExceptT.run_bind, StateT.run_bind, first]
  exact second

theorem Runs.after_bind (first : Runs action s (.ok a) t) :
    (action >>= next).after s = (next a).after t := by
  unfold Runs at first
  unfold Fallible.after
  rw [ExceptT.run_bind, StateT.run_bind, first]
  rfl

/-- An exception skips the second action. -/
theorem Runs.bind_error (raised : Runs action s (.error e) t) :
    Runs (action >>= next) s (.error e) t := by
  unfold Runs at *
  rw [ExceptT.run_bind, StateT.run_bind, raised]
  rfl

variable {handler : ε → Fallible ε σ β} {caught : Fallible ε σ β} {b : β}

theorem Runs.tryCatch_ok (ran : Runs caught s (.ok b) t) :
    Runs (tryCatch caught handler) s (.ok b) t := by
  unfold Runs at *
  rw [ExceptT.run_tryCatch, StateT.run_bind, ran]
  rfl

/-- An exception is handled in the state it left. -/
theorem Runs.tryCatch_error (raised : Runs caught s (.error e) t)
    (handled : Runs (handler e) t result u) : Runs (tryCatch caught handler) s result u := by
  unfold Runs at *
  rw [ExceptT.run_tryCatch, StateT.run_bind, raised]
  exact handled

end Runs

end Fallible
