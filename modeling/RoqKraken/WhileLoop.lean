import Mathlib.Logic.Basic

/-!
# While loops

`While continues body start final` says that the loop with this test and this
body, entered in the state `start`, is left in the state `final`.  A loop that
never ends is left in no state, so to find a final state is to prove that the
loop terminates; `While.of_rounds` does so by the number of rounds.
-/

universe u

inductive While {σ : Type u} (continues : σ → Prop) (body : σ → σ) : σ → σ → Prop
  | exit {state : σ} : ¬ continues state → While continues body state state
  | round {state final : σ} :
    continues state → While continues body (body state) final → While continues body state final

namespace While

variable {σ : Type u} {continues : σ → Prop} {body : σ → σ} {start final other : σ}

/-- A loop is left where its test fails. -/
theorem not_continues (loop : While continues body start final) : ¬ continues final := by
  induction loop with
  | exit stops => exact stops
  | round goes rest ih => exact ih

/-- A loop is left in one state only. -/
theorem unique (loop : While continues body start final)
    (loop' : While continues body start other) : final = other := by
  induction loop with
  | exit stops =>
    cases loop' with
    | exit => rfl
    | round goes => exact absurd goes stops
  | round goes rest ih =>
    cases loop' with
    | exit stops => exact absurd goes stops
    | round goes' rest' => exact ih rest'

/-- **Loop rule.**  What every round keeps holds where the loop is left. -/
theorem invariant {Inv : σ → Prop} (loop : While continues body start final)
    (keeps : ∀ state, continues state → Inv state → Inv (body state)) (holds : Inv start) :
    Inv final := by
  induction loop with
  | exit stops => exact holds
  | round goes rest ih => exact ih (keeps _ goes holds)

/-- A loop whose test fails for the first time after `count` rounds. -/
theorem of_rounds {count : Nat} (goes : ∀ round < count, continues (round.repeat body start))
    (stops : ¬ continues (count.repeat body start)) :
    While continues body start (count.repeat body start) := by
  have from_round : ∀ left round, round + left = count →
      While continues body (round.repeat body start) (count.repeat body start) := by
    intro left
    induction left with
    | zero =>
      rintro round rfl
      exact .exit stops
    | succ left ih =>
      intro round total
      exact .round (goes round (by omega)) (ih (round + 1) (by omega))
  exact from_round count 0 (Nat.zero_add count)

end While
