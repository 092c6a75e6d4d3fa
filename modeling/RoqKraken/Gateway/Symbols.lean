import Mathlib.Data.List.Nodup

/-!
# `core::Symbols`: the symbol list and its slices

The symbols of the gateway in the order they were announced, cut into slices of
positions, one slice for each market-data stream.  The class is not part of the
repository; `Symbols` states what the gateway relies on, and `Symbols.chunked`
is one that behaves so.
-/

namespace RoqKraken.Gateway

/-! ## Slices of a list -/

/-- The entries at the positions of slice `index` from `start` on. -/
def slicePart {α : Type} (slice : Nat → Nat) (index start : Nat) (entries : List α) : List α :=
  (entries.zipIdx.filter fun entry => slice entry.2 = index ∧ start ≤ entry.2).map Prod.fst

section Slices

variable {α : Type} {slice : Nat → Nat} {index start : Nat} {entries more : List α}

theorem mem_slicePart {entry : α} : entry ∈ slicePart slice index start entries ↔
    ∃ position, entries[position]? = some entry ∧ slice position = index ∧ start ≤ position := by
  simp [slicePart, List.mem_zipIdx_iff_getElem?]

theorem slicePart_sublist : (slicePart slice index start entries).Sublist entries := by
  have sub := (List.filter_sublist (l := entries.zipIdx)
    (p := fun entry => decide (slice entry.2 = index ∧ start ≤ entry.2))).map Prod.fst
  rwa [List.zipIdx_map_fst] at sub

/-- What is appended comes after every slice of what was there. -/
theorem slicePart_append : slicePart slice index 0 (entries ++ more) =
    slicePart slice index 0 entries ++
      slicePart slice index entries.length (entries ++ more) := by
  have before : entries.zipIdx.filter
      (fun entry => decide (slice entry.2 = index ∧ entries.length ≤ entry.2)) = [] := by
    rw [List.filter_eq_nil_iff]
    intro entry member
    have bound := List.snd_lt_of_mem_zipIdx member
    simp only [decide_eq_true_eq, not_and, Nat.not_le]
    omega
  have after : (more.zipIdx entries.length).filter
      (fun entry => decide (slice entry.2 = index ∧ 0 ≤ entry.2)) =
      (more.zipIdx entries.length).filter
        (fun entry => decide (slice entry.2 = index ∧ entries.length ≤ entry.2)) := by
    refine List.filter_congr fun entry member => ?_
    have bound := List.le_snd_of_mem_zipIdx member
    simp [bound]
  simp only [slicePart, List.zipIdx_append, List.filter_append, List.map_append, before, after,
    Nat.zero_add, List.nil_append]

end Slices

/-! ## The component -/

/-- What the gateway relies on: symbols are appended, a call answers with the
number of slices and the position of the first new symbol, and a slice is read
from a position on. -/
structure Symbols where
  State : Type
  empty : State
  /-- `operator()(symbols)`. -/
  append : State → List String → State × Nat × Nat
  getSlice : State → Nat → Nat → List String
  /-- The symbols in order. -/
  toList : State → List String
  /-- The slice a position belongs to. -/
  slice : Nat → Nat
  toList_empty : toList empty = []
  toList_append : ∀ state symbols,
    toList (append state symbols).1 = toList state ++ symbols
  slice_lt : ∀ state symbols position, position < (toList (append state symbols).1).length →
    slice position < (append state symbols).2.1
  start_eq : ∀ state symbols, (append state symbols).2.2 = (toList state).length
  getSlice_eq : ∀ state index start,
    getSlice state index start = slicePart slice index start (toList state)

namespace Symbols

variable (core : Symbols) {state : core.State} {symbols : List String} {index start : Nat}

theorem mem_getSlice {symbol : String} : symbol ∈ core.getSlice state index start ↔
    ∃ position, (core.toList state)[position]? = some symbol ∧
      core.slice position = index ∧ start ≤ position := by
  rw [core.getSlice_eq, mem_slicePart]

theorem nodup_getSlice (nodup : (core.toList state).Nodup) :
    (core.getSlice state index start).Nodup := by
  rw [core.getSlice_eq]
  exact nodup.sublist slicePart_sublist

/-- A slice after a call: what it was, then its symbols from the returned
position on. -/
theorem getSlice_append : core.getSlice (core.append state symbols).1 index 0 =
    core.getSlice state index 0 ++
      core.getSlice (core.append state symbols).1 index (core.append state symbols).2.2 := by
  simp only [core.getSlice_eq, core.toList_append, core.start_eq]
  exact slicePart_append

/-- Slices of `size` consecutive positions. -/
def chunked (size : Nat) (positive : 0 < size) : Symbols where
  State := List String
  empty := []
  append state symbols :=
    (state ++ symbols, ((state ++ symbols).length + (size - 1)) / size, state.length)
  getSlice state index start := slicePart (· / size) index start state
  toList := id
  slice := (· / size)
  toList_empty := rfl
  toList_append _ _ := rfl
  slice_lt state symbols position bound := by
    have next : position / size + 1 = (position + size) / size :=
      (Nat.add_div_right position positive).symm
    have below : position < (state ++ symbols).length := bound
    rw [Nat.lt_iff_add_one_le, next]
    exact Nat.div_le_div_right (by omega)
  start_eq _ _ := rfl
  getSlice_eq _ _ _ := rfl

end Symbols

end RoqKraken.Gateway
