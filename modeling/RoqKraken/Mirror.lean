import Mathlib.Data.List.Nodup
import Mathlib.Logic.Function.Basic

/-!
# Tables whose changes are announced

A table holds a value for each of its keys.  Whoever owns it announces a value when
it changes; new keys enter with an initial value, and silently.  `Announces` is a
history of such changes, and `Announces.mirror` says that a reader of the
announcements knows the table at any time, if no two keys are the same.
-/

universe u v

namespace Mirror

variable {κ : Type u} {ν : Type v} [DecidableEq κ] {initial old new : ν} {key : κ}
  {table table' table'' front back announced later : List (κ × ν)}

/-- What a table says about a key. -/
def view (initial : ν) (table : List (κ × ν)) (key : κ) : ν := (table.lookup key).getD initial

/-- What a reader of the announcements knows. -/
def replay (start : κ → ν) (announced : List (κ × ν)) : κ → ν :=
  announced.foldl (fun known entry => Function.update known entry.1 entry.2) start

theorem replay_concat (start : κ → ν) (announced : List (κ × ν)) (entry : κ × ν) :
    replay start (announced ++ [entry]) =
      Function.update (replay start announced) entry.1 entry.2 := by
  simp [replay]

theorem view_append_cons (absent : key ∉ front.map Prod.fst) :
    view initial (front ++ (key, new) :: back) =
      Function.update (view initial (front ++ back)) key new := by
  funext other
  induction front with
  | nil =>
    by_cases same : other = key
    · simp [view, same]
    · simp [view, Function.update_of_ne same, List.lookup_cons, beq_false_of_ne same]
  | cons entry front ih =>
    obtain ⟨name, value⟩ := entry
    simp only [List.map_cons, List.mem_cons, not_or] at absent
    have later := ih absent.2
    by_cases first : other = name
    · subst first
      simp [view, Function.update_of_ne (Ne.symm absent.1)]
    · by_cases same : other = key
      · subst same
        simpa [view, List.lookup_cons, beq_false_of_ne first] using later
      · simpa [view, Function.update_of_ne same, List.lookup_cons, beq_false_of_ne first]
          using later

theorem view_of_notMem (absent : key ∉ table.map Prod.fst) : view initial table key = initial := by
  have missing : table.lookup key = none := by
    rw [List.lookup_eq_none_iff]
    intro entry member
    simpa using fun same => absent (List.mem_map.mpr ⟨entry, member, same.symm⟩)
  simp [view, missing]

/-- Changes of a table, with what is announced about them. -/
inductive Announces (initial : ν) (table : List (κ × ν)) : List (κ × ν) → List (κ × ν) → Prop
  | refl : Announces initial table [] table
  | set {announced front back : List (κ × ν)} {key : κ} {old : ν} (new : ν) :
    Announces initial table announced (front ++ (key, old) :: back) →
    Announces initial table (announced ++ [(key, new)]) (front ++ (key, new) :: back)
  | add {announced front back : List (κ × ν)} (key : κ) :
    Announces initial table announced (front ++ back) →
    Announces initial table announced (front ++ (key, initial) :: back)

omit [DecidableEq κ] in
theorem Announces.trans (first : Announces initial table announced table')
    (second : Announces initial table' later table'') :
    Announces initial table (announced ++ later) table'' := by
  induction second with
  | refl => rwa [List.append_nil]
  | set new _ ih =>
    rw [← List.append_assoc]
    exact ih.set new
  | add key _ ih => exact ih.add key

omit [DecidableEq κ] in
/-- One entry that keeps its value, or is announced with its new one. -/
theorem Announces.of_change {before after : κ × ν}
    (changed : after = before ∧ announced = [] ∨
      ∃ value, after = (before.1, value) ∧ announced = [(before.1, value)]) :
    Announces initial (front ++ before :: back) announced (front ++ after :: back) := by
  rcases changed with ⟨rfl, rfl⟩ | ⟨value, rfl, rfl⟩
  · exact .refl
  · exact Announces.refl.set value

/-- **Mirror.**  A reader of the announcements knows the table. -/
theorem Announces.mirror (announces : Announces initial table announced table')
    (distinct : (table'.map Prod.fst).Nodup) :
    (table.map Prod.fst).Nodup ∧
      view initial table' = replay (view initial table) announced := by
  induction announces with
  | refl => exact ⟨distinct, rfl⟩
  | @set announced front back key old new before ih =>
    have keys : ((front ++ (key, old) :: back).map Prod.fst).Nodup := by simpa using distinct
    obtain ⟨start, known⟩ := ih keys
    refine ⟨start, ?_⟩
    have absent : key ∉ front.map Prod.fst := by
      simp only [List.map_append, List.map_cons, List.nodup_append', List.disjoint_cons_right]
        at keys
      exact keys.2.2.1
    rw [replay_concat, ← known, view_append_cons absent, view_append_cons absent,
      Function.update_idem]
  | @add announced front back key before ih =>
    simp only [List.map_append, List.map_cons, List.nodup_append', List.nodup_cons,
      List.disjoint_cons_right] at distinct
    obtain ⟨first, ⟨behind, second⟩, absent, apart⟩ := distinct
    have keys : ((front ++ back).map Prod.fst).Nodup := by
      rw [List.map_append]
      exact List.nodup_append'.mpr ⟨first, second, apart⟩
    obtain ⟨start, known⟩ := ih keys
    refine ⟨start, ?_⟩
    have fresh : key ∉ (front ++ back).map Prod.fst := by
      rw [List.map_append, List.mem_append, not_or]
      exact ⟨absent, behind⟩
    have silent : Function.update (view initial (front ++ back)) key initial =
        view initial (front ++ back) := by
      rw [Function.update_eq_self_iff]
      exact (view_of_notMem fresh).symm
    rw [view_append_cons absent, silent, known]

end Mirror
