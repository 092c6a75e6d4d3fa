import RoqKraken.Machine
import Mathlib.Order.MinMax

/-!
# The highest mark since a reset

A level that some entries of a log raise to a mark, and others take back to where it
began.  `IsPeak` says what it is then, however it was kept: the highest mark since the
last reset.  `IsPeak.reset`, `IsPeak.raise` and `IsPeak.keep` carry that along a log, and
`IsPeak.lt_iff` reads it: the level is above a value exactly if some mark since the last
reset is.
-/

universe u v

variable {α : Type u} {β : Type v} [LinearOrder β] {base level mark value : β}
  {resets : α → Prop} {marks : α → Option β} {xs : List α} {x : α}

/-- The level is the highest mark since the last reset, or the base. -/
structure IsPeak (base : β) (resets : α → Prop) (marks : α → Option β) (xs : List α)
    (level : β) : Prop where
  le : ∀ mark, Since resets (fun x => marks x = some mark) xs → mark ≤ level
  attained : level = base ∨ Since resets (fun x => marks x = some level) xs

namespace IsPeak

theorem nil : IsPeak base resets marks [] base := by
  refine ⟨fun mark since => ?_, .inl rfl⟩
  obtain ⟨_, member, -⟩ := since.exists_mem
  cases member

theorem reset (resetting : resets x) (unmarked : marks x = none) :
    IsPeak base resets marks (xs ++ [x]) base := by
  refine ⟨fun mark since => ?_, .inl rfl⟩
  rcases since.of_concat with here | ⟨-, still⟩
  · rw [unmarked] at here
    cases here
  · exact absurd resetting still

theorem raise (peak : IsPeak base resets marks xs level) (stays : ¬ resets x)
    (marked : marks x = some mark) :
    IsPeak base resets marks (xs ++ [x]) (max level mark) := by
  refine ⟨fun other since => ?_, ?_⟩
  · rcases since.of_concat with here | ⟨before, -⟩
    · rw [marked, Option.some_inj] at here
      rw [← here]
      exact le_max_right level mark
    · exact (peak.le other before).trans (le_max_left level mark)
  · rcases max_cases level mark with ⟨same, -⟩ | ⟨same, -⟩
    · rw [same]
      exact peak.attained.imp_right fun since => since.concat stays
    · rw [same]
      exact .inr (since_concat_of_last marked)

theorem keep (peak : IsPeak base resets marks xs level) (stays : ¬ resets x)
    (unmarked : marks x = none) : IsPeak base resets marks (xs ++ [x]) level := by
  refine ⟨fun other since => ?_, peak.attained.imp_right fun since => since.concat stays⟩
  rcases since.of_concat with here | ⟨before, -⟩
  · rw [unmarked] at here
    cases here
  · exact peak.le other before

/-- **Reading a peak.** -/
theorem lt_iff (peak : IsPeak base resets marks xs level) (above : base ≤ value) :
    value < level ↔ Since resets (fun x => ∃ mark ∈ marks x, value < mark) xs := by
  constructor
  · intro higher
    rcases peak.attained with rfl | ⟨past, y, later, split, marked, after⟩
    · exact absurd higher (not_lt.mpr above)
    · exact ⟨past, y, later, split, ⟨level, marked, higher⟩, after⟩
  · rintro ⟨past, y, later, split, ⟨mark, marked, higher⟩, after⟩
    exact lt_of_lt_of_le higher (peak.le mark ⟨past, y, later, split, marked, after⟩)

/-- A level stays below what all marks stay below. -/
theorem le_of_forall (peak : IsPeak base resets marks xs level) (above : base ≤ value)
    (all : ∀ x ∈ xs, ∀ mark ∈ marks x, mark ≤ value) : level ≤ value := by
  refine not_lt.mp fun higher => ?_
  obtain ⟨x, member, mark, marked, beyond⟩ := ((peak.lt_iff above).mp higher).exists_mem
  exact not_lt.mpr (all x member mark marked) beyond

end IsPeak
