import RoqKraken.Gateway.Downloads

/-!
# Responses and the progress of the download

`process_response` calls the handler of a success inside the `try` block whose
clauses call the handler of a failure.  A handler moves the download, by `check`
or by `retry`, and such a call sends the next request before it returns; so it
may raise, and be followed by a second one.  `progress_onAck` lists the calls a
response leads to.  The module settles when a current response leads to exactly
one, and when a stale response leads to nothing.
-/

namespace RoqKraken.Gateway

namespace OrderEntry

open Fallible

variable {core : Download2} {decoders : Decoders} {raises : Nat → Option Exception}
  {turn : Turn core} {stage : State}

/-! ## Calls on the download -/

/-- Does it move the download on account of a response? -/
def Effect.isProgress : Effect → Bool
  | .retry _ | .check _ => true
  | _ => false

/-- The calls that move the download on account of a response. -/
def progress (out : List Effect) : List Effect := out.filter Effect.isProgress

@[simp] theorem progress_append (left right : List Effect) :
    progress (left ++ right) = progress left ++ progress right := List.filter_append ..

/-- The result of an action that may have raised. -/
def ended {α : Type} (value : α) : Option Exception → Except Exception α
  | none => .ok value
  | some exception => .error exception

/-- What the callback of a stage raises, if its calls are counted from `position`
on. -/
def callbackRaises (raises : Nat → Option Exception) (position : Nat) :
    Option State → Option Exception
  | none => none
  | some .undefined => none
  | some .token => raises position
  | some .done => raises position
  | some _ => (raises position).or (raises (position + 1))

/-- An action that returns a value if it does not raise. -/
theorem runs_ended_return {α : Type} {action : Act core PUnit} {raised : Option Exception}
    {turn turn' : Turn core} (ran : Runs action turn (ended ⟨⟩ raised) turn') (value : α) :
    Runs (action >>= fun _ => pure value) turn (ended value raised) turn' := by
  cases raised with
  | none => exact ran.bind (runs_pure _ _)
  | some exception => exact ran.bind_error

section Calls

variable (raises : Nat → Option Exception)

theorem runs_perform (effect : Effect) (turn : Turn core) :
    Runs (perform raises effect) turn (ended ⟨⟩ (raises turn.effects.length))
      (turn.note effect) := by
  refine runs_get_bind (Runs.bind (runs_modify _ _) ?_)
  cases raises turn.effects.length with
  | none => exact runs_pure _ _
  | some exception => exact runs_throw _ _

theorem runs_request (path name : String) (turn : Turn core) :
    Runs (request raises path name) turn (ended ⟨⟩ (raises turn.effects.length))
      (turn.note (.request path name (core.sequence turn.session.download))) :=
  runs_get_bind (runs_perform raises _ _)

/-- A call of the dispatcher. -/
theorem runs_dispatch (event : Turn core → Dispatch) (turn : Turn core) :
    ∃ noted, Runs (get >>= fun turn => perform raises (.dispatch (event turn))) turn
        (ended ⟨⟩ (raises turn.effects.length)) noted ∧
      noted.session = turn.session ∧ progress noted.effects = progress turn.effects ∧
      noted.effects.length = turn.effects.length + 1 := by
  refine ⟨_, runs_get_bind (runs_perform raises (.dispatch (event turn)) turn), rfl, ?_, ?_⟩
  · simp [Turn.note, progress, Effect.isProgress]
  · simp [Turn.note]

theorem runs_onConnectionStatus (status : ConnectionStatus) (reason : String)
    (turn : Turn core) : ∃ turn', Runs (onConnectionStatus raises status reason) turn
        (ended ⟨⟩ (raises turn.effects.length)) turn' ∧
      turn'.effects.length = turn.effects.length + 1 ∧
      progress turn'.effects = progress turn.effects := by
  refine ⟨_, runs_get_bind (Runs.bind (runs_modify _ _) (runs_perform raises _ _)), ?_, ?_⟩
  · simp [Turn.note]
  · simp [Turn.note, progress, Effect.isProgress]

/-- The callback of a stage that announces itself and sends a request. -/
theorem runs_announced (reason path name : String) (turn : Turn core) :
    ∃ turn', Runs (do
        onConnectionStatus raises .downloading reason
        request raises path name
        return 1) turn
        (ended (1 : Int)
          ((raises turn.effects.length).or (raises (turn.effects.length + 1)))) turn' ∧
      progress turn'.effects = progress turn.effects := by
  obtain ⟨announced, first, next, same⟩ :=
    runs_onConnectionStatus raises .downloading reason turn
  cases raised : raises turn.effects.length with
  | some exception =>
    rw [raised] at first
    exact ⟨announced, first.bind_error, same⟩
  | none =>
    rw [raised] at first
    have second := runs_ended_return (runs_request raises path name announced) (1 : Int)
    rw [next] at second
    refine ⟨_, first.bind second, ?_⟩
    simpa [Turn.note, progress, Effect.isProgress] using same

theorem runs_onDownload (state : State) (turn : Turn core) :
    ∃ count turn', Runs (onDownload raises state) turn
        (ended count (callbackRaises raises turn.effects.length (some state))) turn' ∧
      progress turn'.effects = progress turn.effects := by
  cases state with
  | undefined => exact ⟨0, turn, runs_pure _ _, rfl⟩
  | token =>
    refine ⟨1, _, runs_ended_return (runs_request raises _ _ turn) 1, ?_⟩
    simp [Turn.note, progress, Effect.isProgress]
  | done =>
    obtain ⟨ready, ran, -, same⟩ := runs_onConnectionStatus raises .ready "" turn
    exact ⟨0, ready, runs_ended_return ran 0, same⟩
  | balance | tradeBalance | openPositions | openOrders =>
    exact ⟨1, runs_announced raises _ _ _ turn⟩

theorem runs_callback (state : State) (turn : Turn core) :
    ∃ turn', Runs (callback raises state) turn
        (ended ⟨⟩ (callbackRaises raises turn.effects.length (some state))) turn' ∧
      progress turn'.effects = progress turn.effects := by
  obtain ⟨count, called, ran, same⟩ := runs_onDownload raises state turn
  cases raised : callbackRaises raises turn.effects.length (some state) with
  | none =>
    rw [raised] at ran
    refine ⟨called.setDownload (core.settle called.session.download (some count)), ?_, same⟩
    exact (ran.bind (runs_modify _ _)).tryCatch_ok
  | some exception =>
    rw [raised] at ran
    exact ⟨_, ran.bind_error.tryCatch_error ((runs_modify _ _).bind (runs_throw _ _)), same⟩

/-- A call on the download raises what its callback raises. -/
theorem runs_move (moved : core.Data × Option State) (turn : Turn core) :
    ∃ turn', Runs (move raises moved) turn
        (ended ⟨⟩ (callbackRaises raises turn.effects.length moved.2)) turn' ∧
      progress turn'.effects = progress turn.effects := by
  unfold move
  cases moved.2 with
  | none => exact ⟨_, (runs_modify _ _).bind (runs_pure _ _), rfl⟩
  | some state =>
    obtain ⟨turn', ran, same⟩ := runs_callback raises state (turn.setDownload moved.1)
    exact ⟨turn', (runs_modify _ _).bind ran, same⟩

/-- A call that is noted, and then made. -/
theorem runs_noted (effect : Effect) (isProgress : effect.isProgress = true)
    (moved : core.Data × Option State) (turn : Turn core) :
    ∃ turn', Runs (note effect >>= fun _ => move raises moved) turn
        (ended ⟨⟩ (callbackRaises raises (turn.effects.length + 1) moved.2)) turn' ∧
      progress turn'.effects = progress turn.effects ++ [effect] := by
  obtain ⟨turn', ran, same⟩ := runs_move raises moved (turn.note effect)
  have next : (turn.note effect).effects.length = turn.effects.length + 1 :=
    List.length_append ..
  rw [next] at ran
  refine ⟨turn', (runs_modify _ _).bind ran, ?_⟩
  rw [same, Turn.note, progress_append, progress, progress, List.filter_cons_of_pos isProgress,
    List.filter_nil]

theorem runs_retry (stage : State) (turn : Turn core) :
    ∃ turn', Runs (retry raises stage) turn
        (ended ⟨⟩ (callbackRaises raises (turn.effects.length + 1)
          (core.retry turn.session.download stage).2)) turn' ∧
      progress turn'.effects = progress turn.effects ++ [.retry stage] :=
  runs_noted raises _ rfl (core.retry turn.session.download stage) turn

theorem runs_check (stage : State) (turn : Turn core) :
    ∃ turn', Runs (check raises stage) turn
        (ended ⟨⟩ (callbackRaises raises (turn.effects.length + 1)
          (core.check turn.session.download stage).2)) turn' ∧
      progress turn'.effects = progress turn.effects ++ [.check stage] :=
  runs_noted raises _ rfl (core.check turn.session.download stage) turn

end Calls

/-! ## What a response leads to -/

/-- The call on the download that a response leads to inside the `try` block. -/
inductive Attempt where
  /-- Something raised before. -/
  | abandoned
  | retry
  /-- With the number of calls that the handler makes before. -/
  | check (calls : Nat)
deriving DecidableEq

/-- Every balance converts, and no call of the dispatcher raises. -/
def fundsPass (decoders : Decoders) (raises : Nat → Option Exception) :
    Nat → List Json.BalanceAckResultItem → Bool
  | _, [] => true
  | position, item :: items =>
    (decoders.fromStringRelaxed item.value).isOk && (raises position).isNone &&
      fundsPass decoders raises (position + 1) items

/-- The attempt of the handler of a success. -/
def attemptBody (decoders : Decoders) (raises : Nat → Option Exception) (stage : State)
    (body : String) : Attempt :=
  match stage with
  | .undefined => .abandoned
  | .token =>
    match decoders.tokenAck body with
    | .error _ => .abandoned
    | .ok tokenAck =>
      if tokenAck.error.isEmpty then
        if (raises 0).isNone then .check 1 else .abandoned
      else .retry
  | .balance =>
    match decoders.balanceAck body with
    | .error _ => .abandoned
    | .ok balanceAck =>
      if fundsPass decoders raises 0 balanceAck.result then .check balanceAck.result.length
      else .abandoned
  | .tradeBalance => .check 0
  | .openPositions => if (decoders.openPositionsAck body).isOk then .check 0 else .abandoned
  | .openOrders => if (decoders.openOrdersAck body).isOk then .check 0 else .abandoned
  | .done => .abandoned

/-- The attempt of `process_response`, for a response that is not stale. -/
def attempt (decoders : Decoders) (raises : Nat → Option Exception) (stage : State) :
    RestResponse → Attempt
  | .ok (.success, body) => attemptBody decoders raises stage body
  | .ok (.clientError, _) => .retry
  | .ok (.serverError, _) => .retry
  | .ok (.other, _) => .abandoned
  | .error _ => .abandoned

/-- The calls of an attempt. -/
def Attempt.calls (stage : State) : Attempt → List Effect
  | .abandoned => []
  | .retry => [.retry stage]
  | .check _ => [.check stage]

/-- What the attempt raises: the callback of the stage that the download calls
for. -/
def Attempt.raised (raises : Nat → Option Exception) (session : OrderEntry core)
    (stage : State) : Attempt → Option Exception
  | .abandoned => none
  | .retry => callbackRaises raises 1 (core.retry session.download stage).2
  | .check calls => callbackRaises raises (calls + 1) (core.check session.download stage).2

/-- An action makes the attempt, or raises before it. -/
def Attempts (raises : Nat → Option Exception) (session : OrderEntry core) (stage : State)
    (action : Act core PUnit) (attempt : Attempt) : Prop :=
  ∃ result turn', Runs action { session } result turn' ∧
    progress turn'.effects = attempt.calls stage ∧
    (attempt = .abandoned → ∃ exception, result = .error exception) ∧
    (attempt ≠ .abandoned → result = ended ⟨⟩ (attempt.raised raises session stage))

section Attempts

variable {session : OrderEntry core}

theorem attempts_error {action : Act core PUnit} {exception : Exception} {turn' : Turn core}
    (ran : Runs action { session } (.error exception) turn')
    (quiet : progress turn'.effects = []) : Attempts raises session stage action .abandoned :=
  ⟨_, turn', ran, quiet, fun _ => ⟨exception, rfl⟩, fun other => absurd rfl other⟩

theorem attempts_retry : Attempts raises session stage (retry raises stage) .retry := by
  obtain ⟨turn', ran, calls⟩ := runs_retry raises stage { session }
  exact ⟨_, turn', ran, calls, nofun, fun _ => rfl⟩

theorem attempts_check : Attempts raises session stage (check raises stage) (.check 0) := by
  obtain ⟨turn', ran, calls⟩ := runs_check raises stage { session }
  exact ⟨_, turn', ran, calls, nofun, fun _ => rfl⟩

/-- A check after some calls of the handler. -/
theorem attempts_bind_check {action : Act core PUnit} {turn' : Turn core}
    (ran : Runs action { session } (.ok ⟨⟩) turn') (quiet : progress turn'.effects = [])
    (same : turn'.session = session) :
    Attempts raises session stage (action >>= fun _ => check raises stage)
      (.check turn'.effects.length) := by
  obtain ⟨last, checked, calls⟩ := runs_check raises stage turn'
  rw [same] at checked
  refine ⟨_, last, ran.bind checked, ?_, nofun, fun _ => rfl⟩
  rw [calls, quiet]
  rfl

/-- A text that is decoded, and then looked at. -/
theorem attempts_decoded {α : Type} {result : Except Exception α} {next : α → Act core PUnit}
    {attempt : Attempt}
    (error : ∀ exception, result = .error exception → attempt = .abandoned)
    (ok : ∀ value, result = .ok value → Attempts raises session stage (next value) attempt) :
    Attempts raises session stage (decoded result >>= next) attempt := by
  cases result with
  | error exception =>
    rw [error exception rfl]
    exact attempts_error (runs_throw exception _).bind_error rfl
  | ok value => exact ok value rfl

/-- The loop over the balances passes if every balance does, else it raises. -/
theorem runs_onBalanceAck (decoders : Decoders) (raises : Nat → Option Exception)
    (errors : List String) (items : List Json.BalanceAckResultItem)
    (turn : Turn core) : ∃ result turn',
      Runs (onBalanceAck decoders raises ⟨errors, items⟩) turn result turn' ∧
      turn'.session = turn.session ∧ progress turn'.effects = progress turn.effects ∧
      if fundsPass decoders raises turn.effects.length items = true then
        result = .ok ⟨⟩ ∧ turn'.effects.length = turn.effects.length + items.length
      else ∃ exception, result = .error exception := by
  induction items generalizing turn with
  | nil => exact ⟨_, turn, runs_pure _ _, rfl, rfl, by simp [fundsPass]⟩
  | cons item items ih =>
    unfold fundsPass
    cases converts : decoders.fromStringRelaxed item.value with
    | error exception =>
      have raised : Runs (decoded (decoders.fromStringRelaxed item.value) : Act core Float) turn
          (.error exception) turn := by
        rw [converts]
        exact runs_throw exception turn
      exact ⟨_, turn, raised.bind_error.bind_error, rfl, rfl, exception, rfl⟩
    | ok balance =>
      have first : Runs (decoded (decoders.fromStringRelaxed item.value) : Act core Float) turn
          (.ok balance) turn := by
        rw [converts]
        exact runs_pure balance turn
      obtain ⟨noted, second, same, quiet, next⟩ := runs_dispatch raises
        (fun turn => .fundsUpdate
          { streamId := turn.session.streamId
            account := turn.session.account
            currency := item.key
            balance
            updateType := .snapshot }) turn
      cases raised : raises turn.effects.length with
      | some exception =>
        rw [raised] at second
        exact ⟨_, noted, (first.bind second).bind_error, same, quiet, exception, rfl⟩
      | none =>
        rw [raised] at second
        obtain ⟨result, turn', ran, same', quiet', ends⟩ := ih noted
        refine ⟨result, turn', (first.bind second).bind ran, same'.trans same,
          quiet'.trans quiet, ?_⟩
        simpa [next, Except.isOk, Except.toBool, Nat.add_assoc, Nat.add_comm 1] using ends

/-- Every handler makes its attempt on a response that is not stale. -/
theorem exists_accept (waiting : stage ∈ stages) : ∃ accept : String → Act core PUnit,
    onAck decoders raises stage = ack raises stage accept ∧
      ∀ session body,
        Attempts raises session stage (accept body) (attemptBody decoders raises stage body) := by
  cases stage with
  | undefined | done => simp [stages] at waiting
  | token =>
    refine ⟨fun body => decoded (decoders.tokenAck body) >>= fun tokenAck =>
      if tokenAck.error.isEmpty then onTokenAck raises tokenAck >>= fun _ => check raises .token
      else retry raises .token, by rw [onAck, getTokenAck], fun session body => ?_⟩
    refine attempts_decoded ?_ ?_
    · intro exception failed
      simp only [attemptBody, failed]
    · intro tokenAck decodes
      simp only [attemptBody, decodes]
      by_cases accepted : tokenAck.error.isEmpty = true
      · rw [if_pos accepted, if_pos accepted]
        have ran : Runs (onTokenAck raises tokenAck) { session } (ended ⟨⟩ (raises 0))
            (Turn.note { session } (.tokenUpdate session.account tokenAck.result.token)) :=
          runs_get_bind (runs_perform raises _ _)
        cases raised : raises 0 with
        | none =>
          rw [raised] at ran
          exact attempts_bind_check ran rfl rfl
        | some exception =>
          rw [raised] at ran
          exact attempts_error ran.bind_error rfl
      · rw [if_neg accepted, if_neg accepted]
        exact attempts_retry
  | balance =>
    refine ⟨fun body => decoded (decoders.balanceAck body) >>= fun balanceAck =>
      onBalanceAck decoders raises balanceAck >>= fun _ => check raises .balance,
      by rw [onAck, getBalanceAck], fun session body => ?_⟩
    refine attempts_decoded ?_ ?_
    · intro exception failed
      simp only [attemptBody, failed]
    · rintro ⟨errors, items⟩ decodes
      obtain ⟨result, turn', ran, same, quiet, ends⟩ :=
        runs_onBalanceAck decoders raises errors items { session }
      simp only [attemptBody, decodes]
      by_cases passes : fundsPass decoders raises 0 items = true
      · obtain ⟨rfl, calls⟩ := (if_pos passes).mp ends
        have counted : turn'.effects.length = items.length := calls.trans (Nat.zero_add _)
        rw [if_pos passes, ← counted]
        exact attempts_bind_check ran quiet same
      · obtain ⟨exception, rfl⟩ := (if_neg passes).mp ends
        rw [if_neg passes]
        exact attempts_error ran.bind_error quiet
  | tradeBalance =>
    exact ⟨fun _ => check raises .tradeBalance, by rw [onAck, getTradeBalanceAck],
      fun session body => attempts_check⟩
  | openPositions =>
    refine ⟨fun body => decoded (decoders.openPositionsAck body) >>= fun _ =>
        check raises .openPositions,
      by rw [onAck, getOpenPositionsAck], fun session body => ?_⟩
    refine attempts_decoded ?_ ?_
    · intro exception failed
      simp [attemptBody, failed, Except.isOk, Except.toBool]
    · intro openPositionsAck decodes
      have accepted : attemptBody decoders raises .openPositions body = .check 0 := by
        simp [attemptBody, decodes, Except.isOk, Except.toBool]
      rw [accepted]
      exact attempts_check
  | openOrders =>
    refine ⟨fun body => decoded (decoders.openOrdersAck body) >>= fun _ => check raises .openOrders,
      by rw [onAck, getOpenOrdersAck], fun session body => ?_⟩
    refine attempts_decoded ?_ ?_
    · intro exception failed
      simp [attemptBody, failed, Except.isOk, Except.toBool]
    · intro openOrdersAck decodes
      have accepted : attemptBody decoders raises .openOrders body = .check 0 := by
        simp [attemptBody, decodes, Except.isOk, Except.toBool]
      rw [accepted]
      exact attempts_check

/-- A failed attempt is followed by a retry. -/
theorem progress_handled {action : Act core PUnit} {attempt : Attempt}
    (attempts : Attempts raises session stage action attempt) :
    progress ((tryCatch action fun _ => retry raises stage).after { session }).effects =
      attempt.calls stage ++
        if attempt = .abandoned ∨ attempt.raised raises session stage ≠ none then [.retry stage]
        else [] := by
  obtain ⟨result, turn', ran, calls, abandoned, made⟩ := attempts
  have retried : ∀ exception, result = .error exception →
      progress ((tryCatch action fun _ => retry raises stage).after { session }).effects =
        attempt.calls stage ++ [.retry stage] := by
    rintro exception rfl
    obtain ⟨last, again, both⟩ := runs_retry raises stage turn'
    rw [(ran.tryCatch_error again).after, both, calls]
  by_cases nothing : attempt = .abandoned
  · obtain ⟨exception, failed⟩ := abandoned nothing
    rw [retried exception failed, if_pos (.inl nothing)]
  · cases raised : attempt.raised raises session stage with
    | none =>
      have done : result = .ok ⟨⟩ := by rw [made nothing, raised]; rfl
      subst done
      rw [ran.tryCatch_ok.after, calls, if_neg (by simp [nothing]), List.append_nil]
    | some exception =>
      have failed : result = .error exception := by rw [made nothing, raised]; rfl
      rw [retried exception failed, if_pos (.inr (by simp))]

/-- The `try` block makes the attempt of the response, unless this is a stale
success. -/
theorem attempts_tryBlock (waiting : stage ∈ stages) {sequence : UInt32}
    {response : RestResponse} (fresh : ∀ body, response = .ok (.success, body) →
      core.skip session.download sequence stage = false) :
    ∃ action : Act core PUnit,
      onAck decoders raises stage response sequence =
        tryCatch action (fun _ => retry raises stage) ∧
      Attempts raises session stage action (attempt decoders raises stage response) := by
  obtain ⟨accept, handler, attempts⟩ := @exists_accept core decoders raises stage waiting
  rw [handler]
  unfold ack processResponse
  refine ⟨_, congrArg (tryCatch _) (funext fun exception => ?_), ?_⟩
  · cases exception <;> rfl
  refine attempts_decoded ?_ ?_
  · rintro exception rfl
    rfl
  · rintro ⟨category, body⟩ rfl
    cases category with
    | success =>
      have stays : ∀ action : Act core PUnit, Attempts raises session stage action
          (attemptBody decoders raises stage body) → Attempts raises session stage
            (get >>= fun turn => if core.skip turn.session.download sequence stage = true
              then pure ⟨⟩ else action) (attemptBody decoders raises stage body) := by
        rintro action ⟨result, turn', ran, rest⟩
        refine ⟨result, turn', runs_get_bind ?_, rest⟩
        rwa [if_neg (by simp [fresh body rfl])]
      exact stays _ (attempts session body)
    | clientError | serverError => exact attempts_retry
    | other =>
      have raised : Runs (throw .std : Act core PUnit) { session } (.error .std) { session } :=
        runs_throw _ _
      exact attempts_error raised rfl

/-- **Progress.**  The calls on the download that a response leads to unless it is
a stale success: the attempt, and a retry if the attempt raises. -/
theorem progress_onAck (waiting : stage ∈ stages) {sequence : UInt32}
    {response : RestResponse} (fresh : ∀ body, response = .ok (.success, body) →
      core.skip session.download sequence stage = false) :
    progress ((onAck decoders raises stage response sequence).after { session }).effects =
      (attempt decoders raises stage response).calls stage ++
        if attempt decoders raises stage response = .abandoned ∨
            (attempt decoders raises stage response).raised raises session stage ≠ none then
          [.retry stage]
        else [] := by
  obtain ⟨action, handler, attempts⟩ :=
    @attempts_tryBlock core decoders raises stage session waiting sequence response fresh
  rw [handler]
  exact progress_handled attempts

end Attempts

/-! ## One call for a current response -/

/-- Is the response accepted: does its handler get as far as the check? -/
def Attempt.accepts : Attempt → Bool
  | .check _ => true
  | _ => false

/-- The calls are one check of the stage if the response was accepted, else one
retry. -/
def MovesOnce (stage : State) (accepted : Bool) (out : List Effect) : Prop :=
  progress out = [if accepted then .check stage else .retry stage]

instance (stage : State) (accepted : Bool) (out : List Effect) :
    Decidable (MovesOnce stage accepted out) :=
  inferInstanceAs (Decidable (_ = _))

/-- **A current response moves the download once** exactly when the call made
inside the `try` block does not raise. -/
theorem movesOnce_iff (decoders : Decoders) (raises : Nat → Option Exception)
    {session : OrderEntry core} {stage : State} (waiting : stage ∈ stages) {sequence : UInt32}
    (current : core.skip session.download sequence stage = false) (response : RestResponse) :
    MovesOnce stage (attempt decoders raises stage response).accepts
        ((onAck decoders raises stage response sequence).after { session }).effects ↔
      (attempt decoders raises stage response).raised raises session stage = none := by
  unfold MovesOnce
  rw [progress_onAck waiting fun _ _ => current]
  cases attempt decoders raises stage response with
  | abandoned => simp [Attempt.calls, Attempt.accepts, Attempt.raised]
  | retry | check calls => simp [Attempt.calls, Attempt.accepts]

/-- A session that waits for the response of its first request. -/
def waitingForToken : OrderEntry countingDownload :=
  { streamId := 2, account := "A1", download := (.token, 1) }

theorem movesOnce_iff_waitingForToken :
    MovesOnce .token true ((onAck sampleDecoders (fun _ => none) .token
        (.ok (.success, tokenBody)) 1).after { session := waitingForToken }).effects ↔
      (attempt sampleDecoders (fun _ => none) .token (.ok (.success, tokenBody))).raised
        (fun _ => none) waitingForToken .token = none :=
  movesOnce_iff sampleDecoders (fun _ => none) (by decide) (by decide)
    (.ok (.success, tokenBody))

/-- The request for the balances raises, within the check of the token: the token
is retried as well. -/
theorem completed_stage_is_retried :
    ¬ ∀ (core : Download2) (decoders : Decoders) (raises : Nat → Option Exception)
      (session : OrderEntry core) (stage : State) (sequence : UInt32) (response : RestResponse),
      stage ∈ stages → core.skip session.download sequence stage = false →
        MovesOnce stage (attempt decoders raises stage response).accepts
          ((onAck decoders raises stage response sequence).after { session }).effects := by
  intro once
  have calls := once countingDownload sampleDecoders
    (fun position => if position = 3 then some .network else none) waitingForToken .token 1
    (.ok (.success, tokenBody)) (by decide) (by decide)
  revert calls
  decide

/-! ## Stale responses -/

/-- The session dispatches no part of a response and no stream status, and does
not move the download. -/
def Ignores (out : List Effect) : Prop :=
  ∀ effect ∈ out, effect.isResult = false ∧ effect.isProgress = false ∧
    ∀ status, effect ≠ .dispatch (.streamStatus status)

/-- A stale success does nothing. -/
theorem onAck_stale (decoders : Decoders) (raises : Nat → Option Exception)
    {session : OrderEntry core} {stage : State} (waiting : stage ∈ stages) {sequence : UInt32}
    (stale : core.skip session.download sequence stage = true) (body : String) :
    (onAck decoders raises stage (.ok (.success, body)) sequence).after { session } =
      { session } := by
  obtain ⟨accept, handler, -⟩ := @exists_accept core decoders raises stage waiting
  have skipped : Runs (get >>= fun turn => if core.skip turn.session.download sequence stage = true
      then pure ⟨⟩ else accept body) ({ session } : Turn core) (.ok ⟨⟩) { session } := by
    refine runs_get_bind ?_
    rw [if_pos stale]
    exact runs_pure _ _
  rw [handler]
  exact (Runs.tryCatch_ok ((runs_pure (Category.success, body) _).bind skipped)).after

/-- A response that is not a success is retried, stale or not. -/
theorem attempt_of_failure {response : RestResponse}
    (failure : ¬ ∃ body, response = .ok (.success, body)) :
    attempt decoders raises stage response = .abandoned ∨
      attempt decoders raises stage response = .retry := by
  rcases response with exception | ⟨category, body⟩
  · exact .inl rfl
  · cases category with
    | success => exact absurd ⟨body, rfl⟩ failure
    | clientError | serverError => exact .inr rfl
    | other => exact .inl rfl

/-- **A stale response is ignored** exactly when it is a success. -/
theorem ignores_stale_iff (decoders : Decoders) (raises : Nat → Option Exception)
    {session : OrderEntry core} {stage : State} (waiting : stage ∈ stages) {sequence : UInt32}
    (stale : core.skip session.download sequence stage = true) (response : RestResponse) :
    Ignores ((onAck decoders raises stage response sequence).after { session }).effects ↔
      ∃ body, response = .ok (.success, body) := by
  by_cases success : ∃ body, response = .ok (.success, body)
  · obtain ⟨body, rfl⟩ := success
    refine iff_of_true ?_ ⟨body, rfl⟩
    rw [onAck_stale decoders raises waiting stale body]
    exact fun effect member => absurd member List.not_mem_nil
  · refine iff_of_false (fun ignores => ?_) success
    have retried : .retry stage ∈
        progress ((onAck decoders raises stage response sequence).after { session }).effects := by
      rw [progress_onAck waiting fun body same => absurd ⟨body, same⟩ success]
      rcases @attempt_of_failure decoders raises stage response success with same | same <;>
        simp [same, Attempt.calls]
    obtain ⟨member, isProgress⟩ := List.mem_filter.mp retried
    rw [(ignores _ member).2.1] at isProgress
    cases isProgress

/-- A session that has sent its first request again. -/
def waitingAgain : OrderEntry countingDownload :=
  { streamId := 2, account := "A1", download := (.token, 2) }

theorem ignores_stale_iff_waitingAgain :
    Ignores ((onAck sampleDecoders (fun _ => none) .token (.ok (.success, tokenBody)) 1).after
        { session := waitingAgain }).effects ↔
      ∃ body, (.ok (.success, tokenBody) : RestResponse) = .ok (.success, body) :=
  ignores_stale_iff sampleDecoders (fun _ => none) (by decide) (by decide) _

/-- The response of the first request is a failure: the stage is retried. -/
theorem stale_failure_is_retried :
    ¬ ∀ (core : Download2) (decoders : Decoders) (raises : Nat → Option Exception)
      (session : OrderEntry core) (stage : State) (sequence : UInt32) (response : RestResponse),
      stage ∈ stages → core.skip session.download sequence stage = true →
        Ignores ((onAck decoders raises stage response sequence).after { session }).effects := by
  intro ignores
  have ignored := ignores countingDownload sampleDecoders (fun _ => none) waitingAgain .token 1
    (.ok (.clientError, "")) (by decide) (by decide)
  have retried := (ignored (.retry .token) (by decide)).2.1
  revert retried
  decide

end OrderEntry

end RoqKraken.Gateway
