import Mathlib.Data.List.Basic

/-!
# Lives of parties

A system opens parties as it goes, and some of its calls concern all parties that
are open: every party is called when it is opened, and from then on it hears what
is said to all.  `Turn` is what one step of the system means for one party;
`Lived` is what a whole history means for it, and `Lived.turn` the step from one
to the other.
-/

universe u

namespace Lifecycle

variable {α : Type u} {toAll : α → Bool} {opening : α} {heard : List α}
  {before middle after : Prop} {calls calls' : List α}

/-- One step, for a party that is open `before` and `after` it: what is said to all is
`heard`, and `calls` are the calls of the party. -/
inductive Turn (toAll : α → Bool) (opening : α) (heard : List α) (before after : Prop)
    (calls : List α) : Prop
  | hears (was : before) (is : after) (all : calls.filter toAll = heard)
  | opens (was : ¬ before) (is : after) {rest : List α} (first : calls = opening :: rest)
    (quiet : rest.filter toAll = [])
  | waits (was : ¬ before) (is : ¬ after) (silent : calls = [])

/-- A step in two parts, nothing is said to all in the second one. -/
theorem Turn.trans (first : Turn toAll opening heard before middle calls)
    (second : Turn toAll opening [] middle after calls') :
    Turn toAll opening heard before after (calls ++ calls') := by
  rcases first with ⟨was, is, all⟩ | ⟨was, is, rfl, quiet⟩ | ⟨was, is, rfl⟩
  · rcases second with ⟨-, still, none⟩ | ⟨not, -, -, -⟩ | ⟨not, -, -⟩
    · refine .hears was still ?_
      rw [List.filter_append, all, none, List.append_nil]
    · exact absurd is not
    · exact absurd is not
  · rcases second with ⟨-, still, none⟩ | ⟨not, -, -, -⟩ | ⟨not, -, -⟩
    · refine .opens was still (List.cons_append ..) ?_
      rw [List.filter_append, quiet, none]
      rfl
    · exact absurd is not
    · exact absurd is not
  · rcases second with ⟨now, -, -⟩ | ⟨-, now, rfl, quiet⟩ | ⟨-, still, rfl⟩
    · exact absurd now is
    · exact .opens was now rfl quiet
    · exact .waits was still rfl

/-- Parties are not closed. -/
theorem Turn.stays (turn : Turn toAll opening heard before after calls) (was : before) : after := by
  rcases turn with ⟨-, is, -⟩ | ⟨not, -, -, -⟩ | ⟨not, -, -⟩
  · exact is
  · exact absurd was not
  · exact absurd was not

/-- Nothing happens to the party, except for calls of its own while it is open. -/
theorem Turn.own (same : after ↔ before) (quiet : calls.filter toAll = [])
    (silent : ¬ before → calls = []) : Turn toAll opening [] before after calls := by
  by_cases was : before
  · exact .hears was (same.mpr was) quiet
  · exact .waits was (mt same.mp was) (silent was)

/-- The party has been opened and has heard everything since, or it is still to be opened.
An entry of the history has what was said to all, and the calls of the party. -/
inductive Lived (toAll : α → Bool) (opening : α) (after : Prop) (history : List (List α × List α)) :
    Prop
  | opened (is : after) {past : List (List α × List α)} {said rest : List α}
    {later : List (List α × List α)} (split : history = past ++ (said, opening :: rest) :: later)
    (silent : ∀ entry ∈ past, entry.2 = []) (quiet : rest.filter toAll = [])
    (hears : ∀ entry ∈ later, entry.2.filter toAll = entry.1)
  | waiting (is : ¬ after) (silent : ∀ entry ∈ history, entry.2 = [])

/-- **Life rule.**  One more step. -/
theorem Lived.turn {history : List (List α × List α)} (lived : Lived toAll opening before history)
    (turn : Turn toAll opening heard before after calls) :
    Lived toAll opening after (history ++ [(heard, calls)]) := by
  rcases lived with ⟨was, rfl, silent, quiet, hears⟩ | ⟨was, silent⟩
  · rcases turn with ⟨-, is, all⟩ | ⟨not, -, -, -⟩ | ⟨not, -, -⟩
    · refine .opened is (List.append_assoc ..) silent quiet fun entry member => ?_
      rcases List.mem_append.mp member with old | new
      · exact hears entry old
      · rwa [List.mem_singleton.mp new]
    · exact absurd was not
    · exact absurd was not
  · rcases turn with ⟨now, -, -⟩ | ⟨-, is, rfl, quiet⟩ | ⟨-, is, rfl⟩
    · exact absurd now was
    · exact .opened is rfl silent quiet (by simp)
    · refine .waiting is fun entry member => ?_
      rcases List.mem_append.mp member with old | new
      · exact silent entry old
      · rw [List.mem_singleton.mp new]

end Lifecycle
