import Mathlib.Data.List.Basic

/-!
# Event machines and their runs

A machine takes one event at a time, moves to a new state and puts something
out, or stops for good (`none`: the process terminates).  `run` feeds it a list
of events and keeps the log, every event paired with what it produced.

`Step.run_cons` and `Step.run_split` cut a run into parts, and
`Step.run_induction` is the rule everything about whole runs goes through: a
property of the state together with the log so far holds at the end once every
single step keeps it; `Step.forall_mem_log` is the case of single entries.  `Step.Along`
is a condition on all steps of a run, and `Since` and `Throughout` are properties of a
log, `whileOn` is a part of one.
-/

universe u v w

/-- One step of a machine with states `σ`, events `ε` and outputs `ο`. -/
abbrev Step (σ : Type u) (ε : Type v) (ο : Type w) := σ → ε → Option (σ × ο)

namespace Step

variable {σ : Type u} {ε : Type v} {ο : Type w}

/-- Feed the events in order.  The log pairs every event with its output. -/
def run (step : Step σ ε ο) : σ → List ε → Option (σ × List (ε × ο))
  | s, [] => some (s, [])
  | s, e :: es =>
    (step s e).bind fun r => (run step r.1 es).map fun q => (q.1, (e, r.2) :: q.2)

variable {step : Step σ ε ο} {s t : σ} {e : ε} {es fs : List ε} {log : List (ε × ο)}

@[simp] theorem run_nil : run step s [] = some (t, log) ↔ s = t ∧ log = [] := by
  simp [run, eq_comm]

theorem run_cons : run step s (e :: es) = some (t, log) ↔
    ∃ s₁ o rest, step s e = some (s₁, o) ∧ run step s₁ es = some (t, rest) ∧
      log = (e, o) :: rest := by
  simp only [run, Option.bind_eq_some_iff, Option.map_eq_some_iff, Prod.exists, Prod.mk.injEq]
  constructor
  · rintro ⟨s₁, o, first, t', rest, tail, rfl, rfl⟩
    exact ⟨s₁, o, rest, first, tail, rfl⟩
  · rintro ⟨s₁, o, rest, first, tail, rfl⟩
    exact ⟨s₁, o, first, t, rest, tail, rfl, rfl⟩

/-- The log lists the events that were fed. -/
theorem map_fst_log (ran : run step s es = some (t, log)) : log.map Prod.fst = es := by
  induction es generalizing s log with
  | nil =>
    obtain ⟨-, rfl⟩ := run_nil.mp ran
    rfl
  | cons e es ih =>
    obtain ⟨s₁, o, rest, -, tail, rfl⟩ := run_cons.mp ran
    rw [List.map_cons, ih tail]

/-- A cut through the log of a run is a cut through the run. -/
theorem run_split {past later : List (ε × ο)} {o : ο}
    (ran : run step s es = some (t, past ++ (e, o) :: later)) :
    ∃ m n, run step s (past.map Prod.fst) = some (m, past) ∧ step m e = some (n, o) := by
  induction past generalizing s es with
  | nil =>
    cases es with
    | nil => cases (run_nil.mp ran).2
    | cons e' es =>
      obtain ⟨n, o', rest, first, -, same⟩ := run_cons.mp ran
      cases same
      exact ⟨s, n, rfl, first⟩
  | cons entry past ih =>
    cases es with
    | nil => cases (run_nil.mp ran).2
    | cons e' es =>
      obtain ⟨s₁, o', rest, first, tail, same⟩ := run_cons.mp ran
      cases same
      obtain ⟨m, n, prefixRan, last⟩ := ih tail
      exact ⟨m, n, run_cons.mpr ⟨s₁, o', past, first, prefixRan, rfl⟩, last⟩

/-- A run stops at the first event the machine stops at. -/
theorem run_eq_none_iff : run step s es = none ↔
    ∃ before e after t log, es = before ++ e :: after ∧ run step s before = some (t, log) ∧
      step t e = none := by
  induction es generalizing s with
  | nil => simp [run]
  | cons e es ih =>
    cases first : step s e with
    | none =>
      refine iff_of_true (by simp [run, first]) ?_
      exact ⟨[], e, es, s, [], rfl, rfl, first⟩
    | some r =>
      obtain ⟨s₁, o⟩ := r
      have tail : run step s (e :: es) = none ↔ run step s₁ es = none := by simp [run, first]
      rw [tail, ih]
      constructor
      · rintro ⟨before, e', after, t, log, rfl, ran, stops⟩
        exact ⟨e :: before, e', after, t, _, rfl, run_cons.mpr ⟨s₁, o, log, first, ran, rfl⟩, stops⟩
      · rintro ⟨before, e', after, t, log, split, ran, stops⟩
        cases before with
        | nil =>
          obtain ⟨rfl, -⟩ := run_nil.mp ran
          cases split
          cases first.symm.trans stops
        | cons e'' before =>
          cases split
          obtain ⟨s₂, o', rest, here, later, rfl⟩ := run_cons.mp ran
          cases first.symm.trans here
          exact ⟨before, e', after, t, rest, rfl, later, stops⟩

/-! ## Conditions along a run -/

/-- `P` holds of every step of the run from `s`. -/
def Along (step : Step σ ε ο) (P : σ → ε → ο → Prop) : σ → List ε → Prop
  | _, [] => True
  | s, e :: es => ∀ t o, step s e = some (t, o) → P s e o ∧ Along step P t es

/-- What holds of every step at the events of a run holds along the run. -/
theorem along_of_mem {P : σ → ε → ο → Prop}
    (all : ∀ e ∈ es, ∀ s t o, step s e = some (t, o) → P s e o) : Along step P s es := by
  induction es generalizing s with
  | nil => trivial
  | cons e es ih =>
    intro t o stepped
    exact ⟨all e (List.mem_cons_self ..) s t o stepped,
      ih fun e' member => all e' (List.mem_cons_of_mem _ member)⟩

/-- What every step does from states with `Inv`, which it keeps, holds along the run. -/
theorem along_of_inv {P : σ → ε → ο → Prop} {Inv : σ → Prop}
    (keeps : ∀ s e t o, Inv s → step s e = some (t, o) → Inv t ∧ P s e o) (start : Inv s) :
    Along step P s es := by
  induction es generalizing s with
  | nil => trivial
  | cons e es ih =>
    intro t o stepped
    obtain ⟨inv, holds⟩ := keeps s e t o start stepped
    exact ⟨holds, ih inv⟩

/-- A condition along a run turns into another one step by step. -/
theorem Along.imp {P Q : σ → ε → ο → Prop} (along : Along step P s es)
    (imp : ∀ s e t o, step s e = some (t, o) → P s e o → Q s e o) : Along step Q s es := by
  induction es generalizing s with
  | nil => trivial
  | cons e es ih =>
    intro t o stepped
    obtain ⟨here, rest⟩ := along t o stepped
    exact ⟨imp s e t o stepped here, ih rest⟩

/-- **Run rule.**  A property of the state and the log so far that every step
keeps, under a condition along the run, holds at the end of the run. -/
theorem run_induction_along {P : σ → ε → ο → Prop} {Inv : σ → List (ε × ο) → Prop}
    {before : List (ε × ο)} (ran : run step s es = some (t, log)) (along : Along step P s es)
    (keeps : ∀ s past e s' o, P s e o → Inv s past → step s e = some (s', o) →
      Inv s' (past ++ [(e, o)]))
    (start : Inv s before) : Inv t (before ++ log) := by
  induction es generalizing s log before with
  | nil =>
    obtain ⟨rfl, rfl⟩ := run_nil.mp ran
    simpa using start
  | cons e es ih =>
    obtain ⟨s₁, o, rest, first, tail, rfl⟩ := run_cons.mp ran
    obtain ⟨here, later⟩ := along s₁ o first
    have next : Inv s₁ (before ++ [(e, o)]) := keeps _ _ _ _ _ here start first
    have done := ih tail later next
    simpa using done

/-- The run rule where every step at an event of the run keeps the property. -/
theorem run_induction {Inv : σ → List (ε × ο) → Prop} {before : List (ε × ο)}
    (ran : run step s es = some (t, log))
    (keeps : ∀ s past e s' o, e ∈ es → Inv s past → step s e = some (s', o) →
      Inv s' (past ++ [(e, o)]))
    (start : Inv s before) : Inv t (before ++ log) :=
  run_induction_along ran
    (along_of_mem (P := fun _ e _ => e ∈ es) fun _ member _ _ _ _ => member) keeps start

/-- The run rule for entries: what every step does from states with `Inv`, which it keeps,
is true of every entry of the log. -/
theorem forall_mem_log {Inv : σ → Prop} {P : ε × ο → Prop} (ran : run step s es = some (t, log))
    (keeps : ∀ s e s' o, e ∈ es → Inv s → step s e = some (s', o) → Inv s' ∧ P (e, o))
    (start : Inv s) : ∀ entry ∈ log, P entry := by
  have inv := @run_induction _ _ _ _ _ _ _ _
    (fun s past => Inv s ∧ ∀ entry ∈ past, P entry) [] ran ?_ ⟨start, by simp⟩
  · exact inv.2
  · rintro s past e s' o member ⟨inv, all⟩ stepped
    obtain ⟨next, here⟩ := keeps s e s' o member inv stepped
    exact ⟨next, List.forall_mem_append.mpr ⟨all, List.forall_mem_singleton.mpr here⟩⟩

end Step

/-! ## Since a mark -/

section Since

variable {α : Type u} {mark P : α → Prop} {xs : List α} {x : α}

/-- An entry with `P` that no marked entry follows. -/
def Since (mark P : α → Prop) (xs : List α) : Prop :=
  ∃ past x later, xs = past ++ x :: later ∧ P x ∧ ∀ y ∈ later, ¬ mark y

theorem since_concat_of_last (last : P x) : Since mark P (xs ++ [x]) :=
  ⟨xs, x, [], rfl, last, by simp⟩

theorem Since.concat (since : Since mark P xs) (unmarked : ¬ mark x) :
    Since mark P (xs ++ [x]) := by
  obtain ⟨past, y, later, rfl, holds, after⟩ := since
  refine ⟨past, y, later ++ [x], by simp, holds, ?_⟩
  intro z member
  rcases List.mem_append.mp member with old | new
  · exact after z old
  · rwa [List.mem_singleton.mp new]

theorem Since.of_concat (since : Since mark P (xs ++ [x])) : P x ∨ Since mark P xs ∧ ¬ mark x := by
  obtain ⟨past, y, later, split, holds, after⟩ := since
  rcases List.eq_nil_or_concat later with rfl | ⟨later, z, rfl⟩
  · obtain ⟨-, last⟩ := List.append_inj' split rfl
    rw [List.singleton_inj.mp last]
    exact .inl holds
  · have split : xs ++ [x] = (past ++ y :: later) ++ [z] := by simpa using split
    obtain ⟨rfl, last⟩ := List.append_inj' split rfl
    rw [List.singleton_inj.mp last]
    refine .inr ⟨⟨past, y, later, rfl, holds, fun w member => ?_⟩, ?_⟩
    · exact after w (by simp [member])
    · exact after z (by simp)

theorem Since.exists_mem (since : Since mark P xs) : ∃ x ∈ xs, P x := by
  obtain ⟨past, x, later, rfl, holds, -⟩ := since
  exact ⟨x, by simp, holds⟩

/-- Every entry has `Q` together with the entries before it. -/
def Throughout (Q : List α → α → Prop) (xs : List α) : Prop :=
  ∀ past x later, xs = past ++ x :: later → Q past x

theorem throughout_nil {Q : List α → α → Prop} : Throughout Q [] := by
  intro past x later same
  simp at same

theorem throughout_of_forall {Q : List α → α → Prop} (all : ∀ x ∈ xs, ∀ past, Q past x) :
    Throughout Q xs := by
  rintro past x later rfl
  exact all x (by simp) past

theorem Throughout.concat {Q : List α → α → Prop} (all : Throughout Q xs) (last : Q xs x) :
    Throughout Q (xs ++ [x]) := by
  intro past y later same
  rcases List.eq_nil_or_concat later with rfl | ⟨later, z, rfl⟩
  · obtain ⟨first, second⟩ := List.append_inj' same rfl
    rw [← first, ← List.singleton_inj.mp second]
    exact last
  · have same' : xs ++ [x] = (past ++ y :: later) ++ [z] := by simpa using same
    exact all past y later (List.append_inj' same' rfl).1

/-- What is appended has `Q` together with everything before it. -/
theorem Throughout.append {Q : List α → α → Prop} {ys : List α} (all : Throughout Q xs)
    (rest : Throughout (fun past => Q (xs ++ past)) ys) : Throughout Q (xs ++ ys) := by
  intro past x later same
  rcases List.append_eq_append_iff.mp same with ⟨first, rfl, split⟩ | ⟨last, rfl, split⟩
  · exact rest first x later split
  · cases last with
    | nil =>
      have here := rest [] x later split.symm
      simpa using here
    | cons y last =>
      obtain ⟨rfl, -⟩ := List.cons.inj split
      exact all past x last rfl

end Since

/-! ## While a switch is on -/

section WhileOn

variable {α : Type u} {turn : Bool → α → Bool} {on : Bool} {xs : List α}

/-- The entries of a log that find a switch on; entries turn it. -/
def whileOn (turn : Bool → α → Bool) : Bool → List α → List α
  | _, [] => []
  | on, x :: xs => (if on then [x] else []) ++ whileOn turn (turn on x) xs

theorem whileOn_sublist : (whileOn turn on xs).Sublist xs := by
  induction xs generalizing on with
  | nil => exact .slnil
  | cons x xs ih =>
    unfold whileOn
    cases on with
    | true => exact ih.cons_cons x
    | false => exact ih.cons x

end WhileOn
