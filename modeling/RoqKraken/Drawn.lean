import Mathlib.Data.List.Nodup

/-!
# Identifiers drawn from a counter

A counter hands out the identifiers `nth 0`, `nth 1` and so on, and whoever draws
one keeps it at a place of its own choice.  `Drawn nth count identifiers` says
that the identifiers kept are those of the first `count` draws, each at one
place; they are distinct for as long as the counter has not come round.
-/

universe u

/-- The identifiers are the first `count` of the counter, in some order. -/
def Drawn {α : Type u} (nth : Nat → α) (count : Nat) (identifiers : List α) : Prop :=
  identifiers.Perm ((List.range count).map nth)

namespace Drawn

variable {α : Type u} {nth : Nat → α} {count : Nat} {identifiers left right : List α}

theorem zero : Drawn nth 0 [] := List.Perm.nil

/-- The next identifier is put anywhere among the others. -/
theorem insert (drawn : Drawn nth count (left ++ right)) :
    Drawn nth (count + 1) (left ++ nth count :: right) := by
  have first : (left ++ nth count :: right).Perm (nth count :: (List.range count).map nth) :=
    List.perm_middle.trans (List.Perm.cons _ drawn)
  rw [Drawn, List.range_succ, List.map_append]
  exact first.trans (List.perm_append_singleton _ _).symm

theorem length_eq (drawn : Drawn nth count identifiers) : identifiers.length = count := by
  rw [List.Perm.length_eq drawn, List.length_map, List.length_range]

theorem mem_iff (drawn : Drawn nth count identifiers) {identifier : α} :
    identifier ∈ identifiers ↔ ∃ draw < count, nth draw = identifier := by
  rw [List.Perm.mem_iff drawn]
  simp only [List.mem_map, List.mem_range]

/-- No two draws before the counter comes round have one identifier. -/
theorem nodup (drawn : Drawn nth count identifiers)
    (distinct : ∀ draw < count, ∀ draw' < count, nth draw = nth draw' → draw = draw') :
    identifiers.Nodup := by
  rw [List.Perm.nodup_iff drawn]
  refine List.Nodup.map_on (fun draw mem draw' mem' same => ?_) List.nodup_range
  exact distinct draw (List.mem_range.mp mem) draw' (List.mem_range.mp mem') same

end Drawn
