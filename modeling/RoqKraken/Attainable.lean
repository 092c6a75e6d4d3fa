import RoqKraken.Simulation

/-!
# What a machine can be brought to

Safety says where the runs of a machine do not go; that they can still go somewhere is
another matter.  `Attains` says that some events out of those `Allowed` take the machine
from a state to a goal.  Ways to a goal are put together step by step, one after the
other, `Attains.trans`, and party by party, `attains_all`: each party is brought to its
own goal without taking back what others have reached.
-/

universe u v w x

namespace Step

variable {σ : Type u} {ε : Type v} {ο : Type w} {step : Step σ ε ο} {Allowed : ε → Prop}
  {Middle Goal Goal' Inv : σ → Prop} {s t : σ} {e : ε} {o : ο}

/-- Allowed events lead from the state to the goal. -/
def Attains (step : Step σ ε ο) (Allowed : ε → Prop) (s : σ) (Goal : σ → Prop) : Prop :=
  ∃ es t log, (∀ e ∈ es, Allowed e) ∧ step.run s es = some (t, log) ∧ Goal t

theorem attains_refl (goal : Goal s) : Attains step Allowed s Goal :=
  ⟨[], s, [], fun _ member => absurd member List.not_mem_nil, rfl, goal⟩

theorem attains_cons (allowed : Allowed e) (stepped : step s e = some (t, o))
    (later : Attains step Allowed t Goal) : Attains step Allowed s Goal := by
  obtain ⟨es, t', log, all, ran, goal⟩ := later
  refine ⟨e :: es, t', (e, o) :: log, ?_, run_cons.mpr ⟨t, o, log, stepped, ran, rfl⟩, goal⟩
  exact List.forall_mem_cons.mpr ⟨allowed, all⟩

theorem Attains.imp (attains : Attains step Allowed s Goal) (imp : ∀ t, Goal t → Goal' t) :
    Attains step Allowed s Goal' := by
  obtain ⟨es, t, log, all, ran, goal⟩ := attains
  exact ⟨es, t, log, all, ran, imp t goal⟩

/-- **Composition.**  From everywhere in the middle the goal can be reached. -/
theorem Attains.trans (first : Attains step Allowed s Middle)
    (second : ∀ t, Middle t → Attains step Allowed t Goal) : Attains step Allowed s Goal := by
  obtain ⟨es, t, log, all, ran, middle⟩ := first
  obtain ⟨fs, t', log', all', ran', goal⟩ := second t middle
  refine ⟨es ++ fs, t', log ++ log', fun e member => ?_, run_append ran ran', goal⟩
  rcases List.mem_append.mp member with early | late
  · exact all e early
  · exact all' e late

/-- **All parties.**  Where each party can be brought to its own goal without taking back
what the others have reached, all of them can. -/
theorem attains_all {ι : Type x} {parties : List ι} {Good : ι → σ → Prop}
    (each : ∀ party ∈ parties, ∀ s, Inv s → Attains step Allowed s fun t =>
      Inv t ∧ Good party t ∧ ∀ other, Good other s → Good other t) (inv : Inv s) :
    Attains step Allowed s fun t =>
      Inv t ∧ (∀ party ∈ parties, Good party t) ∧ ∀ other, Good other s → Good other t := by
  induction parties generalizing s with
  | nil => exact attains_refl ⟨inv, by simp, fun _ good => good⟩
  | cons party parties ih =>
    obtain ⟨here, others⟩ := List.forall_mem_cons.mp each
    refine (here s inv).trans fun t ⟨inv, good, stays⟩ => ?_
    refine (ih others inv).imp fun u ⟨inv, all, stays'⟩ => ⟨inv, ?_, ?_⟩
    · exact List.forall_mem_cons.mpr ⟨stays' party good, all⟩
    · exact fun other reached => stays' other (stays other reached)

end Step
