import RoqKraken.Peak
import RoqKraken.Tools.Throttle

/-!
# Why requests are suspended

The throttle keeps one number, and all responses of all connections write it.
`suspended_iff_cause` reads that number off the history: requests are suspended at a
time exactly if, since a header last lifted the suspension, an answer 403, an answer
429 that came while none stood, or a change to an exhausted limit called for a
suspension beyond that time.  So no suspension is without a cause, and of several the
longest stands.

Times are numbers without a bound here.  `suspendUntil_run_le` says that the sums of the
source do not overflow, as long as the system clock stays behind real time and leaves
room for a backoff.
-/

namespace RoqKraken.Tools

namespace Throttle

variable {fromChars : FromChars} {throttle : Throttle} {event : Event} {events : List Event}

instance (params : Params) : Decidable params.unlimited :=
  inferInstanceAs (Decidable (_ ∨ _))

/-- Until when an event calls for a suspension. -/
def causes (fromChars : FromChars) (throttle : Throttle) : Event → Option Int
  | .messageBegin => none
  | .messageHeader name value clock =>
    (throttle.announced fromChars name value).bind fun params =>
      if params ≠ throttle.params ∧ ¬ params.unlimited then
        some (bound params.limitResetTimestamp clock)
      else none
  | .messageEnd .forbidden system => some (system + blockedBackoff)
  | .messageEnd .tooManyRequests system =>
    if throttle.suspendUntil = 0 then some (system + defaultBackoff) else none
  | .messageEnd .other _ => none

/-- What new parameters call for. -/
theorem suspendUntil_changeParams (enabled : throttle.enabled = true) (params : Params)
    (clock : Clock) : (throttle.changeParams params clock).suspendUntil =
      if params = throttle.params then throttle.suspendUntil
      else if params.unlimited then 0
      else max throttle.suspendUntil (bound params.limitResetTimestamp clock) := by
  rw [changeParams_eq enabled]
  by_cases same : params = throttle.params
  · rw [if_pos same.symm, if_pos same]
  · rw [if_neg (Ne.symm same), if_neg same]
    rfl

/-- An event lifts the suspension, raises it to the end it calls for, or leaves it. -/
theorem suspendUntil_handle (enabled : throttle.enabled = true) (event : Event) :
    (throttle.Lifts fromChars event ∧ throttle.causes fromChars event = none ∧
      (throttle.handle fromChars event).suspendUntil = 0) ∨
    ¬ throttle.Lifts fromChars event ∧
      (throttle.handle fromChars event).suspendUntil =
        (throttle.causes fromChars event).elim throttle.suspendUntil
          (max throttle.suspendUntil) := by
  cases event with
  | messageBegin => exact .inr ⟨id, rfl⟩
  | messageHeader name value clock =>
    simp only [Lifts, causes, handle]
    rcases onMessageHeader_cases fromChars throttle name value clock with
      ⟨params, found, moved⟩ | ⟨other, params, kept⟩
    · rw [found, moved, suspendUntil_changeParams enabled]
      by_cases same : params = throttle.params
      · simp [same]
      · by_cases unlimited : params.unlimited
        · refine .inl ⟨⟨params, rfl, same, unlimited⟩, ?_, ?_⟩
          · rw [Option.bind_some, if_neg fun both => both.2 unlimited]
          · rw [if_neg same, if_pos unlimited]
        · refine .inr ⟨?_, ?_⟩
          · rintro ⟨lifting, read, -, lifts⟩
            rw [← Option.some_inj.mp read] at lifts
            exact unlimited lifts
          · have calls : params ≠ throttle.params ∧ ¬ params.unlimited := ⟨same, unlimited⟩
            rw [if_neg same, if_neg unlimited, Option.bind_some, if_pos calls, Option.elim_some]
    · simp [other, kept]
  | messageEnd status system =>
    refine .inr ⟨id, ?_⟩
    simp only [handle, onMessageEnd, enabled]
    cases status with
    | forbidden => rfl
    | other => rfl
    | tooManyRequests =>
      simp only [causes, Bool.not_true, Bool.false_eq_true, if_false]
      by_cases none : throttle.suspendUntil = 0
      · have ends : (0 : Int) ≤ system + defaultBackoff := by
          unfold defaultBackoff
          omega
        simp [none, ends]
      · simp [none]

/-- The events, each with the state it meets. -/
def trace (fromChars : FromChars) : Throttle → List Event → List (Throttle × Event)
  | _, [] => []
  | throttle, event :: events =>
    (throttle, event) :: trace fromChars (throttle.handle fromChars event) events

theorem trace_concat (events : List Event) (event : Event) :
    trace fromChars throttle (events ++ [event]) =
      trace fromChars throttle events ++ [(throttle.run fromChars events, event)] := by
  induction events generalizing throttle with
  | nil => rfl
  | cons first events ih =>
    rw [List.cons_append, trace, trace, ih, List.cons_append]
    rfl

/-- The suspension is the latest end that was called for since it was last lifted. -/
theorem isPeak_run (enabled : throttle.enabled = true) (fresh : throttle.suspendUntil = 0)
    (events : List Event) :
    IsPeak 0 (fun entry : Throttle × Event => entry.1.Lifts fromChars entry.2)
      (fun entry => entry.1.causes fromChars entry.2) (trace fromChars throttle events)
      (throttle.run fromChars events).suspendUntil := by
  induction events using List.reverseRecOn with
  | nil =>
    rw [run_nil, fresh]
    exact .nil
  | append_singleton events event peak =>
    rw [trace_concat, run_concat]
    rcases suspendUntil_handle (enabled_run enabled events) event with
      ⟨lifts, silent, zero⟩ | ⟨stays, moved⟩
    · rw [zero]
      exact .reset lifts silent
    · rw [moved]
      cases called : (throttle.run fromChars events).causes fromChars event with
      | none => exact peak.keep stays called
      | some until' => exact peak.raise stays called

/-- **Suspensions have causes.**  After any history, requests are suspended at a time
exactly if, since a header last lifted the suspension, an event called for one that ends
later. -/
theorem suspended_iff_cause (fromChars : FromChars) (events : List Event) (now : Nat) :
    (now : Int) < (create.run fromChars events).suspendUntil ↔
      Since (fun entry : Throttle × Event => entry.1.Lifts fromChars entry.2)
        (fun entry => ∃ until' ∈ entry.1.causes fromChars entry.2, (now : Int) < until')
        (trace fromChars create events) :=
  (isPeak_run rfl rfl events).lt_iff (Int.natCast_nonneg now)

/-! ## Times of 64 bits -/

/-- The clocks leave room for a backoff, and the system clock stays behind real time. -/
def Event.HasRoom : Event → Prop
  | .messageBegin => True
  | .messageHeader _ _ clock =>
    clock.system ≤ clock.realtime ∧ clock.system + defaultBackoff ≤ Int64.maxValue.toInt
  | .messageEnd _ system => system + blockedBackoff ≤ Int64.maxValue.toInt

theorem bound_le {clock : Clock} (behind : clock.system ≤ clock.realtime)
    (room : clock.system + defaultBackoff ≤ Int64.maxValue.toInt) (limitResetTimestamp : Int64) :
    bound limitResetTimestamp clock ≤ Int64.maxValue.toInt := by
  have timestamp : nanoseconds limitResetTimestamp ≤ Int64.maxValue.toInt := Int64.toInt_le _
  unfold bound
  split
  · omega
  · exact room

theorem causes_le (room : event.HasRoom) :
    ∀ until' ∈ throttle.causes fromChars event, until' ≤ Int64.maxValue.toInt := by
  intro until' called
  cases event with
  | messageBegin => cases called
  | messageHeader name value clock =>
    obtain ⟨params, -, called⟩ := Option.bind_eq_some_iff.mp called
    split at called
    · cases called
      exact bound_le room.1 room.2 params.limitResetTimestamp
    · cases called
  | messageEnd status system =>
    have room : system + blockedBackoff ≤ Int64.maxValue.toInt := room
    cases status with
    | forbidden =>
      cases called
      exact room
    | tooManyRequests =>
      simp only [causes] at called
      split at called
      · cases called
        have shorter : defaultBackoff ≤ blockedBackoff := by decide
        omega
      · cases called
    | other => cases called

theorem map_snd_trace (throttle : Throttle) (events : List Event) :
    (trace fromChars throttle events).map Prod.snd = events := by
  induction events generalizing throttle with
  | nil => rfl
  | cons event events ih => rw [trace, List.map_cons, ih]

/-- With such clocks no history leaves 64 bits: the sums of the throttle are those of
the source. -/
theorem suspendUntil_run_le (room : ∀ event ∈ events, event.HasRoom) :
    (create.run fromChars events).suspendUntil ≤ Int64.maxValue.toInt := by
  refine (isPeak_run rfl rfl events).le_of_forall (by decide) fun entry member => ?_
  have listed := List.mem_map_of_mem (f := Prod.snd) member
  rw [map_snd_trace] at listed
  exact causes_le (room entry.2 listed)

end Throttle

end RoqKraken.Tools
