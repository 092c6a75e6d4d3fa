import RoqKraken.Machine

/-!
# Simulations between machines

A machine that is part of another one sees some of its events.  `Simulates` says
so step by step: through a relation between the states, every step of the whole
is matched by the steps of the part that `trace` reads off the log entry.  Then
every run of the whole contains a run of the part, `Simulates.run`, and what is
known of all runs of the part is known of it there.
-/

universe u v w u' v' w'

namespace Step

variable {σ : Type u} {ε : Type v} {ο : Type w} {step : Step σ ε ο} {s t : σ} {es fs : List ε}
  {log : List (ε × ο)}

/-- Runs one after the other are a run. -/
theorem run_append {m : σ} {past later : List (ε × ο)} (first : run step s es = some (m, past))
    (second : run step m fs = some (t, later)) :
    run step s (es ++ fs) = some (t, past ++ later) := by
  induction es generalizing s past with
  | nil =>
    obtain ⟨rfl, rfl⟩ := run_nil.mp first
    exact second
  | cons e es ih =>
    obtain ⟨s₁, o, rest, here, tail, rfl⟩ := run_cons.mp first
    exact run_cons.mpr ⟨s₁, o, rest ++ later, here, ih tail, rfl⟩

variable {τ : Type u'} {α : Type v'} {β : Type w'}

/-- Every step of the whole does to the part what `trace` says. -/
def Simulates (whole : Step σ ε ο) (part : Step τ α β) (R : σ → τ → Prop)
    (trace : ε × ο → List (α × β)) : Prop :=
  ∀ s e s' o t, R s t → whole s e = some (s', o) →
    ∃ t', run part t ((trace (e, o)).map Prod.fst) = some (t', trace (e, o)) ∧ R s' t'

/-- **Simulation rule.**  The run of the part in a run of the whole. -/
theorem Simulates.run {whole : Step σ ε ο} {part : Step τ α β} {R : σ → τ → Prop}
    {trace : ε × ο → List (α × β)} (simulates : Simulates whole part R trace) {s s' : σ} {t : τ}
    (related : R s t) (ran : run whole s es = some (s', log)) :
    ∃ t', Step.run part t ((log.flatMap trace).map Prod.fst) = some (t', log.flatMap trace) ∧
      R s' t' := by
  induction es generalizing s t log with
  | nil =>
    obtain ⟨rfl, rfl⟩ := run_nil.mp ran
    exact ⟨t, rfl, related⟩
  | cons e es ih =>
    obtain ⟨s₁, o, rest, here, tail, rfl⟩ := run_cons.mp ran
    obtain ⟨t₁, first, next⟩ := simulates s e s₁ o t related here
    obtain ⟨t', second, done⟩ := ih next tail
    refine ⟨t', ?_, done⟩
    rw [List.flatMap_cons, List.map_append]
    exact run_append first second

end Step
