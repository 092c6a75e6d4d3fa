import Mathlib.Data.List.Basic

/-!
# Work in stages

Some work passes a list of stages one after the other.  It is idle (`none`), or
some stages are left (`some rest`); `Path` relates what is left before and after
a history of labels.  Work can be begun, and dropped, at any time, a stage is
passed only when it is the next one, and the work is finished only when no stage
is left.

`Path.passed` is the rule everything about finished work goes through: what was
left before and is not left now has been passed in between.
-/

universe u

namespace Staged

/-- What happens to the work. -/
inductive Label (S : Type u) where
  | begin
  | reset
  | pass (stage : S)
  | finish
  | other

variable {S : Type u}

/-- What is left changes from the first to the last argument. -/
inductive Path (stages : List S) : Option (List S) → List (Label S) → Option (List S) → Prop
  | refl (left : Option (List S)) : Path stages left [] left
  | drop {left left' : Option (List S)} {labels : List (Label S)} :
    Path stages left labels left' → Path stages left labels none
  | begin {left left' : Option (List S)} {labels : List (Label S)} :
    Path stages left labels left' → Path stages left (labels ++ [.begin]) (some stages)
  | reset {left left' : Option (List S)} {labels : List (Label S)} :
    Path stages left labels left' → Path stages left (labels ++ [.reset]) none
  | pass {left : Option (List S)} {labels : List (Label S)} {stage : S} {rest : List S} :
    Path stages left labels (some (stage :: rest)) →
    Path stages left (labels ++ [.pass stage]) (some rest)
  | stale {left left' : Option (List S)} {labels : List (Label S)} (stage : S) :
    Path stages left labels left' → Path stages left (labels ++ [.pass stage]) left'
  | finish {left : Option (List S)} {labels : List (Label S)} :
    Path stages left labels (some []) → Path stages left (labels ++ [.finish]) (some [])
  | other {left left' : Option (List S)} {labels : List (Label S)} :
    Path stages left labels left' → Path stages left (labels ++ [.other]) left'

variable {stages : List S} {left left' : Option (List S)} {labels : List (Label S)}

/-- **What is done was passed.**  Without a new beginning, every stage that was
left is still left or has been passed. -/
theorem Path.passed (path : Path stages left labels left') (noBegin : .begin ∉ labels)
    {rest : List S} (now : left' = some rest) :
    ∃ before, left = some before ∧ ∀ stage ∈ before, stage ∈ rest ∨ .pass stage ∈ labels := by
  induction path generalizing rest with
  | refl => exact ⟨rest, now, fun stage member => .inl member⟩
  | drop => cases now
  | begin => simp at noBegin
  | reset => cases now
  | @pass labels next remaining path ih =>
    cases now
    obtain ⟨before, first, passed⟩ := ih (by simpa using noBegin) rfl
    refine ⟨before, first, fun stage member => ?_⟩
    rcases passed stage member with waiting | done
    · rcases List.mem_cons.mp waiting with rfl | waiting
      · exact .inr (by simp)
      · exact .inl waiting
    · exact .inr (List.mem_append_left _ done)
  | stale _ path ih =>
    obtain ⟨before, first, passed⟩ := ih (by simpa using noBegin) now
    exact ⟨before, first, fun stage member =>
      (passed stage member).imp_right (List.mem_append_left _)⟩
  | finish path ih =>
    cases now
    obtain ⟨before, first, passed⟩ := ih (by simpa using noBegin) rfl
    exact ⟨before, first, fun stage member =>
      (passed stage member).imp_right (List.mem_append_left _)⟩
  | other path ih =>
    obtain ⟨before, first, passed⟩ := ih (by simpa using noBegin) now
    exact ⟨before, first, fun stage member =>
      (passed stage member).imp_right (List.mem_append_left _)⟩

/-- Work that was finished has passed every stage that was left. -/
theorem Path.passed_of_finish (path : Path stages left labels left') (noBegin : .begin ∉ labels)
    (finished : .finish ∈ labels) :
    ∃ before, left = some before ∧ ∀ stage ∈ before, .pass stage ∈ labels := by
  induction path with
  | refl => cases finished
  | drop path ih => exact ih noBegin finished
  | begin => simp at noBegin
  | reset path ih | pass path ih | stale _ path ih | other path ih =>
    obtain ⟨before, first, passed⟩ := ih (by simpa using noBegin) (by simpa using finished)
    exact ⟨before, first, fun stage member => List.mem_append_left _ (passed stage member)⟩
  | finish path ih =>
    obtain ⟨before, first, passed⟩ := path.passed (by simpa using noBegin) rfl
    refine ⟨before, first, fun stage member => List.mem_append_left _ ?_⟩
    rcases passed stage member with waiting | done
    · cases waiting
    · exact done

end Staged
