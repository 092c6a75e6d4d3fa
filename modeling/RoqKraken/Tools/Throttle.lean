import RoqKraken.Overflow
import Mathlib.Data.List.Induction

/-!
# `tools::Throttle`: suspending requests

The interceptor all connections share, as `throttle.cpp` has it.  It reads the
rate limit off response headers and suspends requests until a time, which it
also does when the exchange answers 429 or, for much longer, 403.

The module settles when an answer 429 suspends, and when the suspension after an
answer 403 stands until its end.
-/

namespace RoqKraken.Tools

/-- `web::http::Status`, as far as it is told apart. -/
inductive HttpStatus where
  | forbidden | tooManyRequests | other
deriving DecidableEq, Repr

/-- `Throttle::Params`. -/
structure Throttle.Params where
  limit : Int32 := 0
  limitStatus : Int32 := 0
  /-- In milliseconds. -/
  limitResetTimestamp : Int64 := 0
deriving DecidableEq

/-- Durations and times are in nanoseconds. -/
structure Throttle where
  enabled : Bool
  params : Throttle.Params := {}
  suspendUntil : Int := 0
deriving DecidableEq

namespace Throttle

def defaultBackoff : Int := 5000000000

def blockedBackoff : Int := 600000000000

/-! ## Headers -/

inductive Header where
  | unknown | xBapiLimit | xBapiLimitStatus | xBapiLimitResetTimestamp
deriving DecidableEq, Repr

/-- `parse_header`, up to collisions of the hash it compares. -/
def parseHeader (text : String) : Header :=
  let value := text.toList.map Char.toLower
  if value = "x-bapi-limit".toList then .xBapiLimit
  else if value = "x-bapi-limit-status".toList then .xBapiLimitStatus
  else if value = "x-bapi-limit-reset-timestamp".toList then .xBapiLimitResetTimestamp
  else .unknown

example : parseHeader "X-Bapi-Limit-Status" = .xBapiLimitStatus := by decide

/-- `utils::charconv::from_chars` at the two types used; `none` when it raises. -/
structure FromChars where
  int32 : String → Option Int32
  int64 : String → Option Int64

/-- `clock::get_system` and `clock::get_realtime`.  The first counts from the start
of the machine and stays behind the second, so that sums with it fit into 64 bits. -/
structure Clock where
  system : Nat
  realtime : Nat
deriving DecidableEq

/-- `std::chrono::milliseconds` as nanoseconds, both counted in 64 bits.  A product
that does not fit is undefined in the source, and is taken to wrap around as it does
on the machine. -/
def nanoseconds (milliseconds : Int64) : Int := (milliseconds * 1000000).toInt

/-- The `update_suspend_until` lambda. -/
def updateSuspendUntil (throttle : Throttle) (clock : Clock) : Throttle :=
  if !throttle.enabled then
    throttle
  else if throttle.params.limitStatus > 0 ∨ throttle.params.limitResetTimestamp = 0 then
    { throttle with suspendUntil := 0 }
  else
    let timestamp := nanoseconds throttle.params.limitResetTimestamp
    if clock.realtime < timestamp then
      let period := timestamp - clock.realtime
      { throttle with suspendUntil := max throttle.suspendUntil (clock.system + period) }
    else
      { throttle with suspendUntil := max throttle.suspendUntil (clock.system + defaultBackoff) }

/-- What follows `update_value`: parameters that changed move the suspension. -/
def changeParams (throttle : Throttle) (params : Params) (clock : Clock) : Throttle :=
  if throttle.params = params then throttle
  else { throttle with params }.updateSuspendUntil clock

/-- `operator()(Trace<web::rest::MessageHeader>)`.  A value that does not convert
raises before anything is written. -/
def onMessageHeader (fromChars : FromChars) (throttle : Throttle) (name value : String)
    (clock : Clock) : Throttle :=
  match parseHeader name with
  | .unknown => throttle
  | .xBapiLimit =>
    match fromChars.int32 value with
    | some limit => { throttle with params := { throttle.params with limit } }
    | none => throttle
  | .xBapiLimitStatus =>
    match fromChars.int32 value with
    | some limitStatus => throttle.changeParams { throttle.params with limitStatus } clock
    | none => throttle
  | .xBapiLimitResetTimestamp =>
    match fromChars.int64 value with
    | some limitResetTimestamp =>
      throttle.changeParams { throttle.params with limitResetTimestamp } clock
    | none => throttle

/-- `operator()(Trace<web::rest::MessageEnd>)`, at one reading of the system
clock. -/
def onMessageEnd (throttle : Throttle) (status : HttpStatus) (system : Nat) : Throttle :=
  if !throttle.enabled then
    throttle
  else
    match status with
    | .forbidden =>
      { throttle with suspendUntil := max throttle.suspendUntil (system + blockedBackoff) }
    | .tooManyRequests =>
      if throttle.suspendUntil = 0 then
        { throttle with suspendUntil := system + defaultBackoff }
      else throttle
    | .other => throttle

/-! ## The throttle as a machine -/

/-- What a REST connection reports, with the readings of the clocks. -/
inductive Event where
  | messageBegin
  | messageHeader (name value : String) (clock : Clock)
  | messageEnd (status : HttpStatus) (system : Nat)
deriving DecidableEq

/-- The reading of the system clock at an event. -/
def Event.system? : Event → Option Nat
  | .messageBegin => none
  | .messageHeader _ _ clock => some clock.system
  | .messageEnd _ system => some system

/-- The system clock does not go back. -/
def NonDecreasing (events : List Event) : Prop :=
  (events.filterMap Event.system?).Pairwise (· ≤ ·)

instance (events : List Event) : Decidable (NonDecreasing events) :=
  inferInstanceAs (Decidable (List.Pairwise _ _))

def handle (fromChars : FromChars) (throttle : Throttle) : Event → Throttle
  | .messageBegin => throttle
  | .messageHeader name value clock => throttle.onMessageHeader fromChars name value clock
  | .messageEnd status system => throttle.onMessageEnd status system

/-- Events in order. -/
def run (fromChars : FromChars) (throttle : Throttle) (events : List Event) : Throttle :=
  events.foldl (handle fromChars) throttle

/-- The throttle of a gateway that has the rate limit enabled. -/
def create : Throttle := { enabled := true }

variable {fromChars : FromChars} {throttle : Throttle} {event : Event} {events : List Event}

@[simp] theorem run_nil : throttle.run fromChars [] = throttle := rfl

@[simp] theorem run_concat : throttle.run fromChars (events ++ [event]) =
    (throttle.run fromChars events).handle fromChars event :=
  List.foldl_append ..

/-! ## What an update does to the suspension -/

/-- Until when a limit that resets then suspends requests. -/
def bound (limitResetTimestamp : Int64) (clock : Clock) : Int :=
  if clock.realtime < nanoseconds limitResetTimestamp then
    clock.system + (nanoseconds limitResetTimestamp - clock.realtime)
  else clock.system + defaultBackoff

/-- A reset timestamp that fits into 64 bits suspends until the time it tells. -/
theorem bound_of_fits {limitResetTimestamp : Int64}
    (fits : limitResetTimestamp.FitsMul 1000000) (clock : Clock) :
    bound limitResetTimestamp clock =
      if clock.realtime < limitResetTimestamp.toInt * 1000000 then
        clock.system + (limitResetTimestamp.toInt * 1000000 - clock.realtime)
      else clock.system + defaultBackoff := by
  have million : (1000000 : Int64).toInt = 1000000 := by decide
  rw [bound, nanoseconds, fits.toInt_mul, million]

theorem bound_pos (limitResetTimestamp : Int64) (clock : Clock) :
    0 < bound limitResetTimestamp clock := by
  unfold bound defaultBackoff
  split <;> omega

/-- Parameters that call for no suspension. -/
def Params.unlimited (params : Params) : Prop :=
  params.limitStatus > 0 ∨ params.limitResetTimestamp = 0

/-- What `update_suspend_until` makes of a suspension. -/
def suspension (until' : Int) (params : Params) (clock : Clock) : Int :=
  if params.limitStatus > 0 ∨ params.limitResetTimestamp = 0 then 0
  else max until' (bound params.limitResetTimestamp clock)

theorem suspension_of_unlimited {params : Params} (unlimited : params.unlimited) (until' : Int)
    (clock : Clock) : suspension until' params clock = 0 :=
  if_pos unlimited

theorem suspension_of_limited {params : Params} (limited : ¬ params.unlimited) (until' : Int)
    (clock : Clock) :
    suspension until' params clock = max until' (bound params.limitResetTimestamp clock) :=
  if_neg limited

theorem updateSuspendUntil_eq (enabled : throttle.enabled = true) (clock : Clock) :
    throttle.updateSuspendUntil clock =
      { throttle with suspendUntil := suspension throttle.suspendUntil throttle.params clock } := by
  simp only [updateSuspendUntil, suspension, bound, enabled, Bool.not_true, Bool.false_eq_true,
    if_false]
  split
  · rfl
  · split <;> rfl

theorem changeParams_eq (enabled : throttle.enabled = true) (params : Params) (clock : Clock) :
    throttle.changeParams params clock =
      if throttle.params = params then throttle
      else { throttle with
        params
        suspendUntil := suspension throttle.suspendUntil params clock } := by
  unfold changeParams
  split
  · rfl
  · exact @updateSuspendUntil_eq { throttle with params } enabled clock

/-! ## What one event does to the suspension -/

/-- The parameters a header announces, if it is one that moves the suspension. -/
def announced (fromChars : FromChars) (throttle : Throttle) (name value : String) :
    Option Params :=
  match parseHeader name with
  | .xBapiLimitStatus =>
    (fromChars.int32 value).map fun limitStatus => { throttle.params with limitStatus }
  | .xBapiLimitResetTimestamp =>
    (fromChars.int64 value).map fun limitResetTimestamp =>
      { throttle.params with limitResetTimestamp }
  | _ => none

/-- The event is a header that changes the parameters to ones that call for no
suspension. -/
def Lifts (fromChars : FromChars) (throttle : Throttle) : Event → Prop
  | .messageHeader name value _ =>
    ∃ params ∈ throttle.announced fromChars name value,
      params ≠ throttle.params ∧ params.unlimited
  | _ => False

/-- A header moves the suspension by the parameters it announces, or changes the
parameters at most. -/
theorem onMessageHeader_cases (fromChars : FromChars) (throttle : Throttle) (name value : String)
    (clock : Clock) :
    (∃ params, throttle.announced fromChars name value = some params ∧
      throttle.onMessageHeader fromChars name value clock =
        throttle.changeParams params clock) ∨
    (throttle.announced fromChars name value = none ∧
      ∃ params,
        throttle.onMessageHeader fromChars name value clock = { throttle with params }) := by
  unfold announced onMessageHeader
  cases parseHeader name with
  | unknown => exact .inr ⟨rfl, _, rfl⟩
  | xBapiLimit => cases fromChars.int32 value <;> exact .inr ⟨rfl, _, rfl⟩
  | xBapiLimitStatus =>
    cases fromChars.int32 value with
    | some limitStatus => exact .inl ⟨_, rfl, rfl⟩
    | none => exact .inr ⟨rfl, _, rfl⟩
  | xBapiLimitResetTimestamp =>
    cases fromChars.int64 value with
    | some limitResetTimestamp => exact .inl ⟨_, rfl, rfl⟩
    | none => exact .inr ⟨rfl, _, rfl⟩

/-- New parameters that call for no suspension end it, any others prolong it. -/
theorem changeParams_cases (enabled : throttle.enabled = true) (params : Params) (clock : Clock) :
    (throttle.changeParams params clock).enabled = true ∧
      (params ≠ throttle.params → params.unlimited →
        (throttle.changeParams params clock).suspendUntil = 0) ∧
      (¬(params ≠ throttle.params ∧ params.unlimited) →
        throttle.suspendUntil ≤ (throttle.changeParams params clock).suspendUntil) := by
  rw [changeParams_eq enabled]
  by_cases same : throttle.params = params
  · simp [same, enabled]
  · rw [if_neg same]
    refine ⟨enabled, fun _ unlimited => suspension_of_unlimited unlimited _ _, fun stays => ?_⟩
    have limited : ¬ params.unlimited := fun unlimited => stays ⟨Ne.symm same, unlimited⟩
    calc throttle.suspendUntil
        ≤ max throttle.suspendUntil (bound params.limitResetTimestamp clock) := Int.le_max_left ..
      _ = suspension throttle.suspendUntil params clock :=
        (suspension_of_limited limited _ _).symm

/-- An event lifts the suspension or leaves it at least as long. -/
theorem handle_cases (fromChars : FromChars) (enabled : throttle.enabled = true) (event : Event) :
    (throttle.handle fromChars event).enabled = true ∧
      (throttle.Lifts fromChars event → (throttle.handle fromChars event).suspendUntil = 0) ∧
      (¬ throttle.Lifts fromChars event →
        throttle.suspendUntil ≤ (throttle.handle fromChars event).suspendUntil) := by
  cases event with
  | messageBegin => exact ⟨enabled, False.elim, fun _ => Int.le_refl throttle.suspendUntil⟩
  | messageHeader name value clock =>
    simp only [handle, Lifts]
    rcases onMessageHeader_cases fromChars throttle name value clock with
      ⟨params, found, moved⟩ | ⟨other, params, kept⟩
    · obtain ⟨still, ends, prolongs⟩ := changeParams_cases enabled params clock
      rw [moved, found]
      refine ⟨still, ?_, fun stays => prolongs fun both => stays ⟨params, rfl, both⟩⟩
      rintro ⟨params, ⟨⟩, changed, unlimited⟩
      exact ends changed unlimited
    · rw [kept, other]
      exact ⟨enabled, fun lifts => by simp at lifts, fun _ => Int.le_refl throttle.suspendUntil⟩
  | messageEnd status system =>
    simp only [handle, onMessageEnd, Lifts, enabled]
    cases status with
    | forbidden => exact ⟨rfl, False.elim, fun _ => Int.le_max_left ..⟩
    | tooManyRequests =>
      by_cases none : throttle.suspendUntil = 0
      · simp only [none, defaultBackoff, Bool.not_true, Bool.false_eq_true, if_false, if_true]
        exact ⟨trivial, False.elim, fun _ => by omega⟩
      · simp [none, enabled]
    | other => simp [enabled]

theorem enabled_run (enabled : throttle.enabled = true) (events : List Event) :
    (throttle.run fromChars events).enabled = true := by
  induction events using List.reverseRecOn with
  | nil => exact enabled
  | append_singleton events event ih =>
    rw [run_concat]
    exact (handle_cases fromChars ih event).1

/-! ## An answer 429 -/

theorem suspendUntil_tooManyRequests (enabled : throttle.enabled = true) (system : Nat) :
    (throttle.handle fromChars (.messageEnd .tooManyRequests system)).suspendUntil =
      if throttle.suspendUntil = 0 then system + defaultBackoff else throttle.suspendUntil := by
  simp only [handle, onMessageEnd, enabled, Bool.not_true, Bool.false_eq_true, if_false]
  split <;> rfl

/-- After every answer 429 of the run, requests are suspended. -/
def SuspendsOn429 (fromChars : FromChars) (events : List Event) : Prop :=
  ∀ past (system : Nat) later, events = past ++ .messageEnd .tooManyRequests system :: later →
    (system : Int) <
      (create.run fromChars (past ++ [.messageEnd .tooManyRequests system])).suspendUntil

/-- **Answers 429 of a run.**  They all suspend requests exactly when none comes
after an earlier suspension has run out but still stands in `suspend_until_`. -/
theorem suspendsOn429_iff (fromChars : FromChars) (events : List Event) :
    SuspendsOn429 fromChars events ↔
      ∀ past (system : Nat) later, events = past ++ .messageEnd .tooManyRequests system :: later →
        (create.run fromChars past).suspendUntil = 0 ∨
          (system : Int) < (create.run fromChars past).suspendUntil := by
  refine forall_congr' fun past => forall_congr' fun system => forall_congr' fun later =>
    imp_congr_right fun _ => ?_
  rw [run_concat, suspendUntil_tooManyRequests (enabled_run rfl past)]
  split
  · next zero =>
    simp only [zero, defaultBackoff, true_or, iff_true]
    omega
  · next running => simp [running]

/-- Two answers 429, six seconds apart: the second one finds a suspension that
has run out and leaves it. -/
theorem second_429_does_not_suspend :
    ¬ ∀ (fromChars : FromChars) (events : List Event),
      NonDecreasing events → SuspendsOn429 fromChars events := by
  intro suspends
  have second := suspends ⟨fun _ => none, fun _ => none⟩
    [.messageEnd .tooManyRequests 1000000000, .messageEnd .tooManyRequests 7000000000] (by decide)
    [.messageEnd .tooManyRequests 1000000000] 7000000000 [] rfl
  revert second
  decide

/-! ## An answer 403 -/

/-- **Bans.**  After an answer 403, requests stay suspended for the whole backoff
through whatever follows exactly when no header lifts the suspension. -/
theorem ban_stands_iff (fromChars : FromChars) (history during : List Event) (system : Nat) :
    (∀ past, past <+: during →
      system + blockedBackoff ≤
        (create.run fromChars (history ++ .messageEnd .forbidden system :: past)).suspendUntil) ↔
    ∀ past event, past ++ [event] <+: during →
      ¬ (create.run fromChars (history ++ .messageEnd .forbidden system :: past)).Lifts fromChars
        event := by
  have regroup : ∀ past event,
      history ++ .messageEnd .forbidden system :: (past ++ [event]) =
        (history ++ .messageEnd .forbidden system :: past) ++ [event] := by simp
  have enabled : ∀ past, (create.run fromChars
      (history ++ .messageEnd .forbidden system :: past)).enabled = true :=
    fun past => enabled_run rfl _
  constructor
  · intro stands past event next lifts
    have zero := (handle_cases fromChars (enabled past) event).2.1 lifts
    have still := stands _ next
    rw [regroup, run_concat, zero, blockedBackoff] at still
    omega
  · intro none past before
    induction past using List.reverseRecOn with
    | nil =>
      rw [run_concat]
      simp only [handle, onMessageEnd, @enabled_run _ create rfl history, Bool.not_true,
        Bool.false_eq_true, if_false]
      exact Int.le_max_right ..
    | append_singleton past event ih =>
      have so_far := ih ((List.prefix_append past [event]).trans before)
      have longer := (handle_cases fromChars (enabled past) event).2.2 (none past event before)
      rw [regroup, run_concat]
      exact Int.le_trans so_far longer

/-- A header of a response that was on its way lifts the ban. -/
theorem header_lifts_ban :
    ¬ ∀ (fromChars : FromChars) (history during : List Event) (system : Nat),
      NonDecreasing (history ++ .messageEnd .forbidden system :: during) →
      (∀ event ∈ during, ∀ time ∈ event.system?, (time : Int) < system + blockedBackoff) →
      ∀ past, past <+: during → system + blockedBackoff ≤
        (create.run fromChars (history ++ .messageEnd .forbidden system :: past)).suspendUntil := by
  intro stands
  have ban := stands ⟨fun text => if text = "10" then some 10 else none, fun _ => none⟩ []
    [.messageHeader "X-Bapi-Limit-Status" "10" ⟨1000000001, 1769000000000000000⟩] 1000000000
    (by decide) (by simp [Event.system?, blockedBackoff]) _ List.prefix_rfl
  revert ban
  decide

end Throttle

end RoqKraken.Tools
