import Mathlib.Data.List.Induction
import Mathlib.Data.List.MinMax
import Mathlib.Data.List.Nodup

/-!
# Books of price levels

A book holds a quantity at some of the prices of its two sides.  An update sets
the quantities of some prices, zero meaning that the level goes; a replacing
update starts from an empty book.  The module is about replaying updates, in
particular about leaving out those that list no level: an incremental one says
nothing, a replacing one says that the book is empty.
-/

universe u v

/-- Quantities of some prices on the two sides. -/
structure LevelUpdate (κ : Type u) (χ : Type v) where
  replaces : Bool
  bids : List (κ × χ)
  asks : List (κ × χ)

/-- An update that lists no level. -/
def LevelUpdate.isEmpty {κ : Type u} {χ : Type v} (update : LevelUpdate κ χ) : Bool :=
  update.bids.isEmpty && update.asks.isEmpty

structure LevelBook (κ : Type u) (χ : Type v) where
  bids : κ → Option χ
  asks : κ → Option χ

namespace LevelBook

variable {κ : Type u} {χ : Type v}

def empty : LevelBook κ χ := ⟨fun _ => none, fun _ => none⟩

variable [DecidableEq κ] (isZero : χ → Bool)

/-- Set the quantity of one price, or remove the level. -/
def setLevel (side : κ → Option χ) (level : κ × χ) : κ → Option χ := fun price =>
  if price = level.1 then (if isZero level.2 then none else some level.2) else side price

def apply (book : LevelBook κ χ) (update : LevelUpdate κ χ) : LevelBook κ χ :=
  let start := if update.replaces then empty else book
  { bids := update.bids.foldl (setLevel isZero) start.bids
    asks := update.asks.foldl (setLevel isZero) start.asks }

def replay (book : LevelBook κ χ) (updates : List (LevelUpdate κ χ)) : LevelBook κ χ :=
  updates.foldl (apply isZero) book

variable {isZero} {book : LevelBook κ χ} {update : LevelUpdate κ χ}
  {updates : List (LevelUpdate κ χ)}

theorem replay_concat : replay isZero book (updates ++ [update]) =
    apply isZero (replay isZero book updates) update := by
  simp [replay]

/-- An update without levels leaves the book alone or empties it. -/
theorem apply_of_isEmpty (none : update.isEmpty = true) :
    apply isZero book update = if update.replaces then empty else book := by
  obtain ⟨bids, asks⟩ : update.bids = [] ∧ update.asks = [] := by
    simpa [LevelUpdate.isEmpty] using none
  simp only [apply, bids, asks, List.foldl_nil]

/-- Updates without levels can be left out of a replay if none of them
replaces. -/
theorem replay_filter
    (kept : ∀ update ∈ updates, update.replaces = true → update.isEmpty = false) :
    replay isZero book (updates.filter fun update => !update.isEmpty) =
      replay isZero book updates := by
  induction updates using List.reverseRecOn with
  | nil => rfl
  | append_singleton updates last ih =>
    rw [List.forall_mem_append] at kept
    rw [List.filter_append, replay_concat, ← ih kept.1]
    cases none : last.isEmpty with
    | false => rw [List.filter_cons_of_pos (by simp [none]), List.filter_nil, replay_concat]
    | true =>
      have incremental : last.replaces = false := by
        by_contra replaces
        have some := kept.2 last (List.mem_singleton_self last) (by simpa using replaces)
        rw [none] at some
        cases some
      rw [List.filter_cons_of_neg (by simp [none]), apply_of_isEmpty none, incremental]
      simp

/-! ## Numbered entries -/

section Numbered

variable {ν : Type w} [LinearOrder ν] {side : κ → Option χ}
  {entries reordered : List (ν × κ × χ)}

/-- The entry of a price with the largest number. -/
def latest (entries : List (ν × κ × χ)) (price : κ) : Option (ν × κ × χ) :=
  (entries.filter fun entry => entry.2.1 = price).argmax Prod.fst

variable (isZero) in
/-- What a side comes to when the largest number counts at each price. -/
def settle (side : κ → Option χ) (entries : List (ν × κ × χ)) : κ → Option χ := fun price =>
  match latest entries price with
  | some entry => if isZero entry.2.2 then none else some entry.2.2
  | none => side price

theorem latest_eq_some_iff (distinct : (entries.map Prod.fst).Nodup) {price : κ}
    {entry : ν × κ × χ} : latest entries price = some entry ↔
      entry ∈ entries ∧ entry.2.1 = price ∧
        ∀ other ∈ entries, other.2.1 = price → other.1 ≤ entry.1 := by
  classical
  rw [latest, List.argmax_eq_some_iff]
  simp only [List.mem_filter, decide_eq_true_eq]
  constructor
  · rintro ⟨⟨member, here⟩, largest, -⟩
    exact ⟨member, here, fun other there same => largest other ⟨there, same⟩⟩
  · rintro ⟨member, here, largest⟩
    refine ⟨⟨member, here⟩, fun other there => largest other there.1 there.2, ?_⟩
    rintro other ⟨there, same⟩ above
    have number : other.1 = entry.1 := le_antisymm (largest other there same) above
    rw [List.inj_on_of_nodup_map distinct there member number]

/-- Which entry is the latest does not depend on their order. -/
theorem latest_perm (distinct : (entries.map Prod.fst).Nodup) (same : reordered.Perm entries)
    (price : κ) : latest reordered price = latest entries price := by
  have distinct' : (reordered.map Prod.fst).Nodup := (same.map Prod.fst).nodup_iff.mpr distinct
  refine Option.ext fun entry => ?_
  rw [latest_eq_some_iff distinct, latest_eq_some_iff distinct']
  simp only [same.mem_iff]

/-- In the order of their numbers, entries come to what setting them one after
another does. -/
theorem settle_eq_foldl (increasing : (entries.map Prod.fst).Pairwise (· < ·)) :
    settle isZero side entries = (entries.map Prod.snd).foldl (setLevel isZero) side := by
  induction entries using List.reverseRecOn with
  | nil => rfl
  | append_singleton entries last ih =>
    have distinct := increasing.imp fun below => ne_of_lt below
    rw [List.map_append, List.pairwise_append] at increasing
    obtain ⟨before, -, below⟩ := increasing
    rw [List.map_append, List.foldl_append, ← ih before]
    funext price
    by_cases here : last.2.1 = price
    · have largest : latest (entries ++ [last]) price = some last := by
        rw [latest_eq_some_iff distinct]
        refine ⟨by simp, here, fun other member _ => ?_⟩
        rcases List.mem_append.mp member with earlier | only
        · exact (below _ (List.mem_map_of_mem earlier) _ (by simp)).le
        · rw [List.mem_singleton.mp only]
      simp [settle, largest, setLevel, here]
    · have elsewhere : latest (entries ++ [last]) price = latest entries price := by
        simp [latest, List.filter_append, here]
      have other : price ≠ last.2.1 := Ne.symm here
      simp [settle, elsewhere, setLevel, other]

/-- So they do in any order. -/
theorem settle_perm (increasing : (entries.map Prod.fst).Pairwise (· < ·))
    (same : reordered.Perm entries) :
    settle isZero side reordered = (entries.map Prod.snd).foldl (setLevel isZero) side := by
  rw [← settle_eq_foldl increasing]
  funext price
  rw [settle, settle, latest_perm (increasing.imp fun below => ne_of_lt below) same]

end Numbered

end LevelBook
