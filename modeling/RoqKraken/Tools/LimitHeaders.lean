import RoqKraken.Tools.Throttle
import Mathlib.Data.List.Permutation

/-!
# The rate limit headers of a response

The throttle applies a header as it arrives, so a response that announces both a
new status and a new reset timestamp is applied in two steps, and the first step
mixes its own value with the other value of the previous response.  The module
settles for which states and values that shows, which is whether the order of
the headers matters.

It then follows the stored parameters through a run: while they stand for an
exhausted limit, requests are suspended until the bound of their last change.
-/

namespace RoqKraken.Tools.Throttle

variable {fromChars : FromChars} {throttle : Throttle} {clock : Clock}

/-! ## Headers as changes -/

/-- What a header stores. -/
inductive Change where
  | limit (limit : Int32)
  | limitStatus (limitStatus : Int32)
  | limitResetTimestamp (limitResetTimestamp : Int64)
deriving DecidableEq

/-- The header a change comes with. -/
def Change.header : Change → Header
  | .limit _ => .xBapiLimit
  | .limitStatus _ => .xBapiLimitStatus
  | .limitResetTimestamp _ => .xBapiLimitResetTimestamp

/-- The change of a header, by name and value. -/
def change (fromChars : FromChars) (header : String × String) : Option Change :=
  match parseHeader header.1 with
  | .unknown => none
  | .xBapiLimit => (fromChars.int32 header.2).map .limit
  | .xBapiLimitStatus => (fromChars.int32 header.2).map .limitStatus
  | .xBapiLimitResetTimestamp => (fromChars.int64 header.2).map .limitResetTimestamp

/-- A change is applied. -/
def apply (clock : Clock) (throttle : Throttle) : Change → Throttle
  | .limit limit => { throttle with params := { throttle.params with limit } }
  | .limitStatus limitStatus => throttle.changeParams { throttle.params with limitStatus } clock
  | .limitResetTimestamp limitResetTimestamp =>
    throttle.changeParams { throttle.params with limitResetTimestamp } clock

/-- The parameters with a change stored. -/
def Change.stored (params : Params) : Change → Params
  | .limit value => { params with limit := value }
  | .limitStatus value => { params with limitStatus := value }
  | .limitResetTimestamp value => { params with limitResetTimestamp := value }

/-- The change gives the status or the reset timestamp another value. -/
def Change.Updates (params : Params) : Change → Prop
  | .limit _ => False
  | .limitStatus value => value ≠ params.limitStatus
  | .limitResetTimestamp value => value ≠ params.limitResetTimestamp

instance (params : Params) : DecidablePred (Change.Updates params)
  | .limit _ => inferInstanceAs (Decidable False)
  | .limitStatus limitStatus => inferInstanceAs (Decidable (limitStatus ≠ params.limitStatus))
  | .limitResetTimestamp limitResetTimestamp =>
    inferInstanceAs (Decidable (limitResetTimestamp ≠ params.limitResetTimestamp))

/-- The change is not one of the limit. -/
def Change.moves : Change → Bool
  | .limit _ => false
  | _ => true

theorem eq_stored_iff {found : Change} (moves : found.moves) {params : Params} :
    params = found.stored params ↔ ¬ found.Updates params := by
  obtain ⟨limit, status, reset⟩ := params
  cases found with
  | limit => cases moves
  | limitStatus value => simp [Change.stored, Change.Updates, eq_comm]
  | limitResetTimestamp value => simp [Change.stored, Change.Updates, eq_comm]

/-- An enabled throttle stores a change, and reconsiders the suspension where the
change updates one of the two. -/
theorem apply_eq (enabled : throttle.enabled = true) (clock : Clock) (found : Change) :
    throttle.apply clock found = { throttle with
      params := found.stored throttle.params
      suspendUntil :=
        if found.Updates throttle.params then
          suspension throttle.suspendUntil (found.stored throttle.params) clock
        else throttle.suspendUntil } := by
  by_cases moves : found.moves = true
  · have changes : throttle.apply clock found =
        throttle.changeParams (found.stored throttle.params) clock := by
      cases found with
      | limit => cases moves
      | limitStatus => rfl
      | limitResetTimestamp => rfl
    rw [changes, changeParams_eq enabled]
    by_cases updates : found.Updates throttle.params
    · rw [if_pos updates, if_neg fun same => (eq_stored_iff moves).mp same updates]
    · have same := (eq_stored_iff moves).mpr updates
      rw [if_neg updates, if_pos same, ← same]
  · cases found with
    | limit => rfl
    | limitStatus => exact absurd rfl moves
    | limitResetTimestamp => exact absurd rfl moves

theorem enabled_apply (enabled : throttle.enabled = true) (clock : Clock) (found : Change) :
    (throttle.apply clock found).enabled = true := by
  rw [apply_eq enabled]
  exact enabled

theorem handle_messageHeader (fromChars : FromChars) (throttle : Throttle) (name value : String)
    (clock : Clock) :
    throttle.handle fromChars (.messageHeader name value clock) =
      (change fromChars (name, value)).elim throttle (throttle.apply clock) := by
  simp only [handle, onMessageHeader, change]
  cases parseHeader name with
  | unknown => rfl
  | xBapiLimit => cases fromChars.int32 value <;> rfl
  | xBapiLimitStatus => cases fromChars.int32 value <;> rfl
  | xBapiLimitResetTimestamp => cases fromChars.int64 value <;> rfl

/-- A change comes with the header it was read from. -/
theorem header_of_change {header : String × String} {found : Change}
    (read : change fromChars header = some found) : found.header = parseHeader header.1 := by
  unfold change at read
  split at read
  · cases read
  · next limit =>
    obtain ⟨value, -, rfl⟩ := Option.map_eq_some_iff.mp read
    exact limit.symm
  · next status =>
    obtain ⟨value, -, rfl⟩ := Option.map_eq_some_iff.mp read
    exact status.symm
  · next reset =>
    obtain ⟨value, -, rfl⟩ := Option.map_eq_some_iff.mp read
    exact reset.symm

/-! ## The headers of one response -/

/-- The headers are reported in order, at the same clock readings. -/
def runHeaders (fromChars : FromChars) (throttle : Throttle) (clock : Clock)
    (headers : List (String × String)) : Throttle :=
  throttle.run fromChars (headers.map fun header => .messageHeader header.1 header.2 clock)

/-- No limit header comes twice. -/
def Distinct (headers : List (String × String)) : Prop :=
  headers.Pairwise fun one other =>
    parseHeader one.1 = parseHeader other.1 → parseHeader one.1 = .unknown

instance (headers : List (String × String)) : Decidable (Distinct headers) :=
  inferInstanceAs (Decidable (List.Pairwise _ _))

/-- What the headers announce. -/
def changes (fromChars : FromChars) (headers : List (String × String)) : List Change :=
  headers.filterMap (change fromChars)

theorem runHeaders_eq (fromChars : FromChars) (throttle : Throttle) (clock : Clock)
    (headers : List (String × String)) :
    throttle.runHeaders fromChars clock headers =
      (changes fromChars headers).foldl (apply clock) throttle := by
  unfold runHeaders run changes
  induction headers generalizing throttle with
  | nil => rfl
  | cons header headers ih =>
    simp only [List.map_cons, List.foldl_cons, handle_messageHeader, List.filterMap_cons]
    cases change fromChars header with
    | none => exact ih throttle
    | some found => exact ih (throttle.apply clock found)

/-- Changes by distinct headers. -/
theorem changes_distinct {headers : List (String × String)} (distinct : Distinct headers) :
    ((changes fromChars headers).map Change.header).Nodup := by
  refine List.pairwise_map.mpr (List.pairwise_filterMap.mpr (distinct.imp ?_))
  intro one other once found read found' read' same
  rw [header_of_change read, header_of_change read'] at same
  have unknown := once same
  simp only [change, unknown, reduceCtorEq] at read

/-! ## The limit itself -/

def setLimit (throttle : Throttle) (limit : Int32) : Throttle :=
  { throttle with params := { throttle.params with limit } }

theorem enabled_foldl (enabled : throttle.enabled = true) (clock : Clock)
    (changes : List Change) : (changes.foldl (apply clock) throttle).enabled = true := by
  induction changes using List.reverseRecOn with
  | nil => exact enabled
  | append_singleton changes found ih =>
    rw [List.foldl_concat]
    exact enabled_apply ih clock found

theorem apply_setLimit (enabled : throttle.enabled = true) (limit : Int32) (clock : Clock)
    {found : Change} (moves : found.moves) :
    (throttle.setLimit limit).apply clock found = (throttle.apply clock found).setLimit limit := by
  have enabled' : (throttle.setLimit limit).enabled = true := enabled
  rw [apply_eq enabled, apply_eq enabled']
  cases found with
  | limit => cases moves
  | limitStatus => rfl
  | limitResetTimestamp => rfl

/-- The limit of a response is stored beside what its other headers do. -/
theorem foldl_changes (enabled : throttle.enabled = true) (clock : Clock)
    (changes : List Change) :
    ∃ limit, changes.foldl (apply clock) throttle =
        ((changes.filter Change.moves).foldl (apply clock) throttle).setLimit limit ∧
      (.limit limit ∈ changes ∨
        (∀ other, .limit other ∉ changes) ∧ limit = throttle.params.limit) := by
  induction changes using List.reverseRecOn with
  | nil => exact ⟨throttle.params.limit, rfl, .inr ⟨by simp, rfl⟩⟩
  | append_singleton changes found ih =>
    obtain ⟨limit, stored, origin⟩ := ih
    by_cases moves : found.moves = true
    · refine ⟨limit, ?_, ?_⟩
      · rw [List.foldl_concat, stored, apply_setLimit (enabled_foldl enabled clock _) _ _ moves,
          List.filter_append, List.filter_cons_of_pos moves, List.filter_nil, List.foldl_concat]
      · have other : ∀ limit, .limit limit ≠ found := by
          rintro limit rfl
          cases moves
        simpa [other] using origin
    · cases found with
      | limit limit' =>
        refine ⟨limit', ?_, .inl (by simp)⟩
        rw [List.foldl_concat, stored, List.filter_append, List.filter_cons_of_neg moves,
          List.filter_nil, List.append_nil]
        rfl
      | limitStatus => exact absurd rfl moves
      | limitResetTimestamp => exact absurd rfl moves

/-! ## A status and a reset timestamp -/

/-- The order of the two does not show: one of them is not new, or the new limit
is not exhausted, or what the first step makes of the old values is within the
bound of the new timestamp. -/
def OrderFree (throttle : Throttle) (clock : Clock) (limitStatus : Int32)
    (limitResetTimestamp : Int64) : Prop :=
  limitStatus = throttle.params.limitStatus ∨
  limitResetTimestamp = throttle.params.limitResetTimestamp ∨
  limitStatus > 0 ∨ limitResetTimestamp = 0 ∨
  (throttle.params.limitResetTimestamp ≠ 0 →
    bound throttle.params.limitResetTimestamp clock ≤ bound limitResetTimestamp clock ∨
    (throttle.params.limitStatus ≤ 0 ∧
      bound throttle.params.limitResetTimestamp clock ≤ throttle.suspendUntil)) ∧
  ((throttle.params.limitStatus > 0 ↔ throttle.params.limitResetTimestamp ≠ 0) →
    throttle.suspendUntil ≤ bound limitResetTimestamp clock)

/-- Two changes, in the order of the arguments. -/
def applyBoth (throttle : Throttle) (clock : Clock) (one other : Change) : Throttle :=
  (throttle.apply clock one).apply clock other

theorem applyBoth_comm_iff (enabled : throttle.enabled = true) (clock : Clock)
    (limitStatus : Int32) (limitResetTimestamp : Int64) :
    (throttle.applyBoth clock (.limitStatus limitStatus)
        (.limitResetTimestamp limitResetTimestamp)).suspendUntil =
      (throttle.applyBoth clock (.limitResetTimestamp limitResetTimestamp)
        (.limitStatus limitStatus)).suspendUntil ↔
    throttle.OrderFree clock limitStatus limitResetTimestamp := by
  rw [applyBoth, applyBoth, apply_eq (enabled_apply enabled clock _),
    apply_eq (enabled_apply enabled clock _), apply_eq enabled, apply_eq enabled]
  simp only [Change.stored, Change.Updates, OrderFree]
  by_cases sameStatus : limitStatus = throttle.params.limitStatus
  · refine iff_of_true ?_ (.inl sameStatus)
    by_cases sameReset : limitResetTimestamp = throttle.params.limitResetTimestamp
    · simp [sameStatus, sameReset]
    · simp [sameStatus, sameReset]
  by_cases sameReset : limitResetTimestamp = throttle.params.limitResetTimestamp
  · refine iff_of_true ?_ (.inr (.inl sameReset))
    simp [sameStatus, sameReset]
  by_cases unlimited : limitStatus > 0 ∨ limitResetTimestamp = 0
  · refine iff_of_true ?_ (.inr (.inr (or_assoc.mp (.inl unlimited))))
    simp [sameStatus, sameReset, suspension, unlimited]
  · have positive := bound_pos limitResetTimestamp clock
    obtain ⟨exhausted, set⟩ := not_or.mp unlimited
    simp only [sameStatus, sameReset, ne_eq, not_false_eq_true, if_true, suspension, exhausted, set,
      or_self, false_or, or_false, if_false, ← Int32.not_lt, gt_iff_lt]
    -- The first step clears the suspension where it sees an open status or no reset timestamp.
    generalize bound throttle.params.limitResetTimestamp clock = before at *
    generalize bound limitResetTimestamp clock = after at *
    by_cases opened : 0 < throttle.params.limitStatus
    · by_cases unset : throttle.params.limitResetTimestamp = 0
      · simp [opened, unset]
      · simp only [opened, unset, if_true, if_false, not_true, not_false_eq_true, true_implies,
          false_and, or_false, iff_self]
        omega
    · by_cases unset : throttle.params.limitResetTimestamp = 0
      · simp only [opened, unset, if_true, if_false, not_true, not_false_eq_true, false_implies,
          iff_self, true_and, true_implies]
        omega
      · simp only [opened, unset, if_false, not_false_eq_true, true_and, true_implies, false_iff,
          not_true, false_implies, and_true]
        omega

theorem applyBoth_comm (enabled : throttle.enabled = true) {limitStatus : Int32}
    {limitResetTimestamp : Int64}
    (free : throttle.OrderFree clock limitStatus limitResetTimestamp) :
    throttle.applyBoth clock (.limitStatus limitStatus)
        (.limitResetTimestamp limitResetTimestamp) =
      throttle.applyBoth clock (.limitResetTimestamp limitResetTimestamp)
        (.limitStatus limitStatus) := by
  have suspended := (applyBoth_comm_iff enabled clock limitStatus limitResetTimestamp).mpr free
  rw [applyBoth, applyBoth, apply_eq (enabled_apply enabled clock _),
    apply_eq (enabled_apply enabled clock _), apply_eq enabled, apply_eq enabled] at suspended ⊢
  exact congrArg (fun until' => ({ throttle with
    params := { throttle.params with limitStatus, limitResetTimestamp }
    suspendUntil := until' } : Throttle)) suspended

/-! ## Any order of the headers -/

/-- No three distinct changes move the suspension. -/
theorem not_three_moves {one other third : Change} (moves : one.moves = true)
    (moves' : other.moves = true) (moves'' : third.moves = true) :
    ¬ ([one, other, third].map Change.header).Nodup := by
  cases one <;> cases other <;> cases third <;> simp_all [Change.moves, Change.header]

/-- Distinct changes that move the suspension, in two orders. -/
theorem moves_perm {changes order : List Change} (distinct : (changes.map Change.header).Nodup)
    (moves : ∀ found ∈ changes, found.moves = true) (same : order.Perm changes) :
    order = changes ∨
    ∃ one other, changes = [one, other] ∧ order = [other, one] ∧ one.header ≠ other.header := by
  match changes with
  | [] => exact .inl same.eq_nil
  | [found] => exact .inl (List.perm_singleton.mp same)
  | [one, other] =>
    refine (List.perm_pair.mp same).imp_right fun swapped => ⟨one, other, rfl, swapped, ?_⟩
    simpa using distinct
  | one :: other :: third :: rest =>
    simp only [List.mem_cons, forall_eq_or_imp] at moves
    obtain ⟨first, second, last, -⟩ := moves
    have three : [one, other, third].Sublist (one :: other :: third :: rest) :=
      (List.prefix_append [one, other, third] rest).sublist
    exact absurd (distinct.sublist (three.map _)) (not_three_moves first second last)

/-- Distinct changes are applied in any order where the order of the two that
move the suspension does not show. -/
theorem foldl_perm (enabled : throttle.enabled = true) {changes order : List Change}
    (distinct : (changes.map Change.header).Nodup) (same : order.Perm changes)
    (free : ∀ limitStatus limitResetTimestamp, .limitStatus limitStatus ∈ changes →
      .limitResetTimestamp limitResetTimestamp ∈ changes →
      throttle.OrderFree clock limitStatus limitResetTimestamp) :
    order.foldl (apply clock) throttle = changes.foldl (apply clock) throttle := by
  obtain ⟨limit, stored, origin⟩ := foldl_changes enabled clock changes
  obtain ⟨limit', stored', origin'⟩ := foldl_changes enabled clock order
  have sameLimit : limit' = limit := by
    rcases origin with found | ⟨none, old⟩
    · rcases origin' with found' | ⟨none', old'⟩
      · exact Change.limit.inj
          (List.inj_on_of_nodup_map distinct (same.mem_iff.mp found') found rfl)
      · exact absurd (same.mem_iff.mpr found) (none' limit)
    · rcases origin' with found' | ⟨none', old'⟩
      · exact absurd (same.mem_iff.mp found') (none limit')
      · exact old'.trans old.symm
  have sameMoves : (order.filter Change.moves).foldl (apply clock) throttle =
      (changes.filter Change.moves).foldl (apply clock) throttle := by
    rcases moves_perm (distinct.sublist (List.filter_sublist.map _))
        (fun _ found => (List.mem_filter.mp found).2) (same.filter _) with
      equal | ⟨one, other, both, swapped, differ⟩
    · rw [equal]
    · have mem : ∀ found ∈ [one, other], found ∈ changes ∧ found.moves = true := by
        intro found here
        rw [← both] at here
        exact List.mem_filter.mp here
      obtain ⟨mem₁, moves₁⟩ := mem one (by simp)
      obtain ⟨mem₂, moves₂⟩ := mem other (by simp)
      rw [both, swapped]
      cases one with
      | limit => cases moves₁
      | limitStatus limitStatus =>
        cases other with
        | limit => cases moves₂
        | limitStatus => exact absurd rfl differ
        | limitResetTimestamp limitResetTimestamp =>
          exact (applyBoth_comm enabled (free _ _ mem₁ mem₂)).symm
      | limitResetTimestamp limitResetTimestamp =>
        cases other with
        | limit => cases moves₂
        | limitStatus limitStatus => exact applyBoth_comm enabled (free _ _ mem₂ mem₁)
        | limitResetTimestamp => exact absurd rfl differ
  rw [stored, stored', sameLimit, sameMoves]

/-- Beside a status and a reset timestamp, only the limit can change. -/
theorem suspendUntil_foldl_rest (enabled : throttle.enabled = true) {one other : Change}
    {rest : List Change} (distinct : ((one :: other :: rest).map Change.header).Nodup)
    (moves : one.moves = true ∧ other.moves = true) (clock : Clock) :
    (rest.foldl (apply clock) throttle).suspendUntil = throttle.suspendUntil := by
  have still : rest.filter Change.moves = [] := by
    refine List.filter_eq_nil_iff.mpr fun found mem moves' => ?_
    have three : [one, other, found].Sublist (one :: other :: rest) :=
      ((List.singleton_sublist.mpr mem).cons_cons other).cons_cons one
    exact not_three_moves moves.1 moves.2 moves' (distinct.sublist (three.map _))
  obtain ⟨limit, stored, -⟩ := foldl_changes enabled clock rest
  rw [stored, still]
  rfl

/-- **Header order.**  The headers of a response lead to one state in every order
exactly when the order of its status and its reset timestamp does not show. -/
theorem headerOrder_iff (enabled : throttle.enabled = true) {headers : List (String × String)}
    (distinct : Distinct headers) (fromChars : FromChars) (clock : Clock) :
    (∀ order : List (String × String), order.Perm headers →
      throttle.runHeaders fromChars clock order =
        throttle.runHeaders fromChars clock headers) ↔
    ∀ limitStatus limitResetTimestamp,
      .limitStatus limitStatus ∈ changes fromChars headers →
      .limitResetTimestamp limitResetTimestamp ∈ changes fromChars headers →
      throttle.OrderFree clock limitStatus limitResetTimestamp := by
  constructor
  · intro agree limitStatus limitResetTimestamp announced announced'
    obtain ⟨one, mem, read⟩ := List.mem_filterMap.mp announced
    obtain ⟨other, mem', read'⟩ := List.mem_filterMap.mp announced'
    have differ : other ≠ one := by
      rintro rfl
      rw [read] at read'
      cases read'
    have first : headers.Perm (one :: other :: (headers.erase one).erase other) :=
      (List.perm_cons_erase mem).trans
        ((List.perm_cons_erase ((List.mem_erase_of_ne differ).mpr mem')).cons one)
    have second := first.trans (List.Perm.swap other one _)
    have one_state := (agree _ first.symm).trans (agree _ second.symm).symm
    have cons : ∀ {header found} headers, change fromChars header = some found →
        changes fromChars (header :: headers) = found :: changes fromChars headers :=
      fun headers read => List.filterMap_cons_some read
    have rest := ((first.filterMap (change fromChars)).map Change.header).nodup_iff.mp
      (changes_distinct distinct)
    change ((changes fromChars _).map Change.header).Nodup at rest
    rw [cons _ read, cons _ read'] at rest
    rw [runHeaders_eq, runHeaders_eq, cons _ read, cons _ read', cons _ read', cons _ read]
      at one_state
    have suspended := congrArg Throttle.suspendUntil one_state
    simp only [List.foldl_cons] at suspended
    rw [suspendUntil_foldl_rest (enabled_apply (enabled_apply enabled _ _) _ _) rest ⟨rfl, rfl⟩,
      suspendUntil_foldl_rest (enabled_apply (enabled_apply enabled _ _) _ _) rest ⟨rfl, rfl⟩]
      at suspended
    exact (applyBoth_comm_iff enabled clock limitStatus limitResetTimestamp).mp suspended
  · intro free order same
    rw [runHeaders_eq, runHeaders_eq]
    exact foldl_perm enabled (changes_distinct distinct) (same.filterMap _) free

/-- A limit that was open and is exhausted, the reset of which moves on. -/
theorem headerOrder_iff_exhausted :
    let throttle : Throttle :=
      { create with params := { limitStatus := 10, limitResetTimestamp := 1769000001000 } }
    let headers := [("X-Bapi-Limit", "50"), ("X-Bapi-Limit-Status", "0"),
      ("X-Bapi-Limit-Reset-Timestamp", "1769000002000")]
    let fromChars : FromChars :=
      ⟨fun text => if text = "50" then some 50 else if text = "0" then some 0 else none,
        fun text => if text = "1769000002000" then some 1769000002000 else none⟩
    ∀ order : List (String × String), order.Perm headers →
      throttle.runHeaders fromChars ⟨1000, 1769000000000000000⟩ order =
        throttle.runHeaders fromChars ⟨1000, 1769000000000000000⟩ headers := by
  intro throttle headers fromChars
  refine (@headerOrder_iff throttle rfl headers (by decide) fromChars _).mpr ?_
  have announced : changes fromChars headers =
      [.limit 50, .limitStatus 0, .limitResetTimestamp 1769000002000] := by decide
  intro limitStatus limitResetTimestamp found found'
  rw [announced] at found found'
  simp at found found'
  subst found found'
  refine .inr (.inr (.inr (.inr ⟨fun _ => .inl ?_, fun _ => ?_⟩))) <;> decide

/-- The limit is exhausted as its old window has just ended: where the status
comes first, the old reset timestamp suspends for the whole default backoff. -/
theorem status_first_suspends_longer :
    ¬ ∀ (fromChars : FromChars) (throttle : Throttle) (headers order : List (String × String))
        (clock : Clock), throttle.enabled = true → Distinct headers → order.Perm headers →
      throttle.runHeaders fromChars clock order = throttle.runHeaders fromChars clock headers := by
  intro agree
  have both := agree
    ⟨fun text => if text = "0" then some 0 else none,
      fun text => if text = "1769000001000" then some 1769000001000 else none⟩
    { create with params := { limitStatus := 10, limitResetTimestamp := 1769000000000 } }
    [("X-Bapi-Limit-Status", "0"), ("X-Bapi-Limit-Reset-Timestamp", "1769000001000")]
    [("X-Bapi-Limit-Reset-Timestamp", "1769000001000"), ("X-Bapi-Limit-Status", "0")]
    ⟨1000, 1769000000000000001⟩ rfl (by decide) (List.Perm.swap ..)
  revert both
  decide

/-! ## An exhausted limit -/

variable {event : Event} {events later : List Event}

theorem run_append (fromChars : FromChars) (throttle : Throttle) (events later : List Event) :
    throttle.run fromChars (events ++ later) =
      (throttle.run fromChars events).run fromChars later :=
  List.foldl_append ..

/-- The event gives the status or the reset timestamp another value. -/
def Updates (fromChars : FromChars) (throttle : Throttle) (event : Event) : Prop :=
  (throttle.handle fromChars event).params.limitStatus ≠ throttle.params.limitStatus ∨
  (throttle.handle fromChars event).params.limitResetTimestamp ≠
    throttle.params.limitResetTimestamp

instance (event : Event) : Decidable (throttle.Updates fromChars event) :=
  inferInstanceAs (Decidable (_ ∨ _))

/-- An update is a header, and reconsiders the suspension; all else keeps it or
makes it longer. -/
theorem updates_cases (fromChars : FromChars) (enabled : throttle.enabled = true)
    (event : Event) :
    (throttle.Updates fromChars event → ∃ name value clock,
      event = .messageHeader name value clock ∧
      (throttle.handle fromChars event).suspendUntil =
        suspension throttle.suspendUntil (throttle.handle fromChars event).params clock) ∧
    (¬ throttle.Updates fromChars event →
      throttle.suspendUntil ≤ (throttle.handle fromChars event).suspendUntil) := by
  cases event with
  | messageBegin =>
    exact ⟨fun updates => updates.elim (absurd rfl) (absurd rfl), fun _ => Int.le_refl _⟩
  | messageHeader name value clock =>
    rw [Updates, handle_messageHeader]
    cases change fromChars (name, value) with
    | none => exact ⟨fun updates => updates.elim (absurd rfl) (absurd rfl), fun _ => Int.le_refl _⟩
    | some found =>
      rw [Option.elim_some, apply_eq enabled]
      have stores : (found.stored throttle.params).limitStatus ≠ throttle.params.limitStatus ∨
          (found.stored throttle.params).limitResetTimestamp ≠
            throttle.params.limitResetTimestamp ↔ found.Updates throttle.params := by
        cases found <;> simp [Change.stored, Change.Updates]
      constructor
      · intro updates
        exact ⟨name, value, clock, rfl, if_pos (stores.mp updates)⟩
      · intro keeps
        exact (if_neg (stores.not.mp keeps)).ge
  | messageEnd status system =>
    have params : (throttle.onMessageEnd status system).params = throttle.params := by
      unfold onMessageEnd
      split
      · rfl
      · split
        · rfl
        · split <;> rfl
        · rfl
    refine ⟨fun updates => ?_, fun _ => (handle_cases fromChars enabled _).2.2 id⟩
    rw [Updates, handle, params] at updates
    exact updates.elim (absurd rfl) (absurd rfl)

/-- An update to parameters that call for a suspension suspends until its bound. -/
theorem bound_le_of_updates (enabled : throttle.enabled = true)
    (updates : throttle.Updates fromChars event)
    (limited : ¬ (throttle.handle fromChars event).params.unlimited) :
    ∃ name value clock, event = .messageHeader name value clock ∧
      bound (throttle.handle fromChars event).params.limitResetTimestamp clock ≤
        (throttle.handle fromChars event).suspendUntil := by
  obtain ⟨name, value, clock, rfl, moved⟩ := (updates_cases fromChars enabled event).1 updates
  refine ⟨name, value, clock, rfl, ?_⟩
  rw [moved, suspension_of_limited limited]
  exact Int.le_max_right ..

/-- No later event updates the parameters. -/
def Settled (fromChars : FromChars) (throttle : Throttle) (later : List Event) : Prop :=
  ∀ before next, before ++ [next] <+: later →
    ¬ (throttle.run fromChars before).Updates fromChars next

theorem Settled.of_prefix {before : List Event} (settled : throttle.Settled fromChars later)
    (within : before <+: later) : throttle.Settled fromChars before :=
  fun earlier next within' => settled earlier next (within'.trans within)

/-- Until the next update, both parameters stand and the suspension is not
lowered. -/
theorem settled_run (enabled : throttle.enabled = true)
    (settled : throttle.Settled fromChars later) :
    (throttle.run fromChars later).params.limitStatus = throttle.params.limitStatus ∧
      (throttle.run fromChars later).params.limitResetTimestamp =
        throttle.params.limitResetTimestamp ∧
      throttle.suspendUntil ≤ (throttle.run fromChars later).suspendUntil := by
  induction later using List.reverseRecOn with
  | nil => exact ⟨rfl, rfl, Int.le_refl _⟩
  | append_singleton later next ih =>
    obtain ⟨status, reset, longer⟩ := ih (settled.of_prefix (List.prefix_append ..))
    have keeps := settled later next List.prefix_rfl
    have longer' := (updates_cases fromChars (enabled_run enabled later) next).2 keeps
    obtain ⟨sameStatus, sameReset⟩ := not_or.mp keeps
    rw [run_concat]
    exact ⟨(not_not.mp sameStatus).trans status, (not_not.mp sameReset).trans reset,
      Int.le_trans longer longer'⟩

/-- Where a reset timestamp is stored, there was a last update. -/
theorem exists_lastUpdate (set : (create.run fromChars events).params.limitResetTimestamp ≠ 0) :
    ∃ past event later, events = past ++ event :: later ∧
      (create.run fromChars past).Updates fromChars event ∧
      (create.run fromChars (past ++ [event])).Settled fromChars later := by
  induction events using List.reverseRecOn with
  | nil => exact absurd rfl set
  | append_singleton events last ih =>
    by_cases updates : (create.run fromChars events).Updates fromChars last
    · exact ⟨events, last, [], rfl, updates, fun before next none => by simp at none⟩
    · have reset := not_not.mp (not_or.mp updates).2
      rw [run_concat, reset] at set
      obtain ⟨past, event, later, rfl, first, settled⟩ := ih set
      refine ⟨past, event, later ++ [last], by simp, first, fun before next within => ?_⟩
      rcases List.prefix_concat_iff.mp within with whole | within
      · obtain ⟨rfl, last'⟩ := List.append_inj' whole rfl
        cases last'
        rw [← run_append, List.append_assoc]
        exact updates
      · exact settled before next within

/-- **An exhausted limit.**  While the stored status is not positive and a reset
timestamp is stored, requests are suspended until the bound of the last update
at least, and nothing since has lowered the suspension. -/
theorem exhausted_stays_suspended (fromChars : FromChars) (events : List Event)
    (exhausted : (create.run fromChars events).params.limitStatus ≤ 0)
    (set : (create.run fromChars events).params.limitResetTimestamp ≠ 0) :
    ∃ past name value clock later,
      events = past ++ .messageHeader name value clock :: later ∧
      (create.run fromChars past).Updates fromChars (.messageHeader name value clock) ∧
      let updated := create.run fromChars (past ++ [.messageHeader name value clock])
      let until' := bound updated.params.limitResetTimestamp clock
      updated.Settled fromChars later ∧
      until' ≤ (create.run fromChars events).suspendUntil ∧
      ∀ before next, before ++ [next] <+: later →
        until' ≤ (updated.run fromChars before).suspendUntil ∧
        (updated.run fromChars before).suspendUntil ≤
          (updated.run fromChars (before ++ [next])).suspendUntil := by
  obtain ⟨past, event, later, rfl, updates, settled⟩ := exists_lastUpdate set
  have enabled : (create.run fromChars (past ++ [event])).enabled = true := enabled_run rfl _
  have rejoin : create.run fromChars (past ++ event :: later) =
      (create.run fromChars (past ++ [event])).run fromChars later := by
    rw [← run_append, List.append_assoc, List.singleton_append]
  rw [rejoin] at exhausted set ⊢
  obtain ⟨status, reset, longer⟩ := settled_run enabled settled
  have limited : ¬ (create.run fromChars (past ++ [event])).params.unlimited := by
    rw [status] at exhausted
    rw [reset] at set
    exact not_or.mpr ⟨Int32.not_lt.mpr exhausted, set⟩
  rw [run_concat] at limited
  obtain ⟨name, value, clock, rfl, bounded⟩ :=
    bound_le_of_updates (enabled_run rfl past) updates limited
  rw [← run_concat] at bounded
  refine ⟨past, name, value, clock, later, rfl, updates, settled,
    Int.le_trans bounded longer, fun before next within => ?_⟩
  have longer' := (settled_run enabled
    (settled.of_prefix ((List.prefix_append before [next]).trans within))).2.2
  have keeps := (updates_cases fromChars (enabled_run enabled before) next).2
    (settled before next within)
  rw [← run_concat] at keeps
  exact ⟨Int.le_trans bounded longer', keeps⟩

/-- An answer 429 and the same status once more, after the limit is exhausted. -/
theorem exhausted_stays_suspended_repeatedStatus :
    let fromChars : FromChars :=
      ⟨fun text => if text = "10" then some 10 else if text = "0" then some 0 else none,
        fun text => if text = "1769000002000" then some 1769000002000 else none⟩
    let events : List Event := [
      .messageHeader "X-Bapi-Limit-Status" "10" ⟨1000, 1769000000000000000⟩,
      .messageHeader "X-Bapi-Limit-Reset-Timestamp" "1769000002000" ⟨2000, 1769000000000001000⟩,
      .messageHeader "X-Bapi-Limit-Status" "0" ⟨3000, 1769000000000002000⟩,
      .messageEnd .tooManyRequests 4000,
      .messageHeader "X-Bapi-Limit-Status" "0" ⟨5000, 1769000000000004000⟩]
    ∃ past name value clock later,
      events = past ++ .messageHeader name value clock :: later ∧
      (create.run fromChars past).Updates fromChars (.messageHeader name value clock) ∧
      let updated := create.run fromChars (past ++ [.messageHeader name value clock])
      let until' := bound updated.params.limitResetTimestamp clock
      updated.Settled fromChars later ∧
      until' ≤ (create.run fromChars events).suspendUntil ∧
      ∀ before next, before ++ [next] <+: later →
        until' ≤ (updated.run fromChars before).suspendUntil ∧
        (updated.run fromChars before).suspendUntil ≤
          (updated.run fromChars (before ++ [next])).suspendUntil := by
  intro fromChars events
  exact exhausted_stays_suspended fromChars events (by decide) (by decide)

end RoqKraken.Tools.Throttle
