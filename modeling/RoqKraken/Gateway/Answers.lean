import RoqKraken.Gateway.Responses
import RoqKraken.Gateway.Turns

/-!
# A download that goes on

What a REST session does when the exchange cooperates: its connection comes back, its
requests get the answers they ask for, and no call raises.  `step_connected` and
`step_answered` say that the session then always waits for one more response, until the
last one makes it `ready`.
-/

namespace RoqKraken.Gateway

open Fallible

namespace OrderEntry

variable {core : Download2} {decoders : Decoders} {session : OrderEntry core} {stage : State}

/-! ## Answers -/

/-- What a download that goes on relies on besides the laws of `Download2`: it is
downloading while a stage waits for its response, takes the response to its last request,
and stays at a stage whose callback counts a request. -/
structure Responsive (core : Download2) : Prop where
  downloading_iff : ∀ data, core.downloading data = true ↔ core.stage data ∈ stages
  current : ∀ data, core.stage data ∈ stages →
    core.skip data (core.sequence data) (core.stage data) = false
  settle_waiting : ∀ data count, 0 < count →
    core.stage (core.settle data (some count)) = core.stage data

/-- The body gets the handler of the stage as far as the check. -/
def Answers (decoders : Decoders) (stage : State) (body : String) : Prop :=
  ∃ calls, attemptBody decoders (fun _ => none) stage body = .check calls

/-- The status that the callback of a stage publishes. -/
def State.publishes : State → Option ConnectionStatus
  | .undefined => none
  | .token => none
  | .done => some .ready
  | _ => some .downloading

/-- What the callback of a stage returns. -/
def State.count : State → Int
  | .undefined => 0
  | .done => 0
  | _ => 1

/-- The session after the callback of a stage, when nothing raises. -/
def called (session : OrderEntry core) (state : State) : OrderEntry core :=
  { session with
    connectionStatus := state.publishes.getD session.connectionStatus
    download := core.settle session.download (some state.count) }

theorem runs_callback_quiet (state : State) (turn : Turn core) :
    ∃ turn', Runs (callback (fun _ => none) state) turn (.ok ⟨⟩) turn' ∧
      turn'.session = turn.session.called state ∧ turn.effects ⊆ turn'.effects := by
  cases state with
  | undefined => exact ⟨_, rfl, rfl, List.Subset.refl _⟩
  | token | done => exact ⟨_, rfl, rfl, List.subset_append_left ..⟩
  | _ =>
    refine ⟨_, rfl, rfl, ?_⟩
    exact List.Subset.trans (List.subset_append_left ..) (List.subset_append_left ..)

/-- A call on the download that leads to a stage. -/
theorem runs_move_quiet (data : core.Data) (state : State) (turn : Turn core) :
    ∃ turn', Runs (move (fun _ => none) (data, some state)) turn (.ok ⟨⟩) turn' ∧
      turn'.session = { turn.session with download := data }.called state ∧
      turn.effects ⊆ turn'.effects := by
  obtain ⟨turn', ran, same, kept⟩ := runs_callback_quiet state (turn.setDownload data)
  exact ⟨turn', (runs_modify _ _).bind ran, same, kept⟩

theorem step_of_runs {event : Event} {turn : Turn core}
    (ran : Runs (onInput decoders event) { session } (.ok ⟨⟩) turn) :
    step decoders session event = some (turn.session, turn.effects) := by
  unfold step
  rw [ran.after]

/-! ## Connections that come back -/

/-- A connection that comes back during a download repeats the request of its stage. -/
theorem step_connected_waiting (responsive : Responsive core) (decoders : Decoders)
    (waiting : core.stage session.download ∈ stages) :
    ∃ session' out, step decoders session { input := .connected } = some (session', out) ∧
      core.stage session'.download ∈ stages := by
  have downloading := (responsive.downloading_iff _).mpr waiting
  obtain ⟨same, current⟩ := core.bump_spec session.download
  have bumps : ∀ {turn : Turn core},
      Runs (move (fun _ => none) (core.bump session.download))
        (Turn.note { session } .bump) (.ok ⟨⟩) turn →
      step decoders session { input := .connected } = some (turn.session, turn.effects) := by
    intro turn ran
    refine step_of_runs (runs_get_bind ?_)
    rw [if_pos downloading]
    exact (runs_modify _ _).bind (runs_get_bind ran)
  cases calls : (core.bump session.download).2 with
  | none =>
    have pair : core.bump session.download = ((core.bump session.download).1, none) := by
      rw [← calls]
    rw [pair] at bumps
    refine ⟨_, _, bumps ((runs_modify _ _).bind (runs_pure _ _)), ?_⟩
    exact same.symm ▸ waiting
  | some state =>
    have pair : core.bump session.download = ((core.bump session.download).1, some state) := by
      rw [← calls]
    obtain ⟨turn, ran, last, -⟩ := runs_move_quiet (core.bump session.download).1 state
      (Turn.note { session } .bump)
    rw [pair] at bumps
    refine ⟨_, _, bumps ran, ?_⟩
    cases current state calls
    have counted : 0 < (core.stage session.download).count := by
      revert waiting
      cases core.stage session.download <;> decide
    rw [last, called, responsive.settle_waiting _ _ counted]
    exact same.symm ▸ waiting

/-- A connection that comes back leads to the request of a stage: the current one, or the
first one. -/
theorem step_connected (responsive : Responsive core) (decoders : Decoders)
    (session : OrderEntry core) :
    ∃ session' out, step decoders session { input := .connected } = some (session', out) ∧
      core.stage session'.download ∈ stages ∧
      (core.stage session.download ∉ stages → core.stage session'.download = .token) := by
  by_cases waiting : core.stage session.download ∈ stages
  · obtain ⟨session', out, stepped, later⟩ := step_connected_waiting responsive decoders waiting
    exact ⟨session', out, stepped, later, absurd waiting⟩
  · have idle : ¬ core.downloading session.download = true := by
      rwa [responsive.downloading_iff]
    obtain ⟨first, calls⟩ := core.begin_spec session.download
    obtain ⟨turn, ran, last, -⟩ := runs_move_quiet (core.begin session.download).1 .token
      (Turn.note { session } .begin)
    rw [← calls] at ran
    have stepped : step decoders session { input := .connected } =
        some (turn.session, turn.effects) := by
      refine step_of_runs (runs_get_bind ?_)
      rw [if_neg idle]
      exact (runs_modify _ _).bind (runs_get_bind ran)
    have waits : core.stage turn.session.download = .token := by
      rw [last, called, responsive.settle_waiting _ _ (by decide)]
      exact first
    exact ⟨_, _, stepped, by simp [waits, stages], fun _ => waits⟩

/-- A connection that is lost leaves a download where it is. -/
theorem step_disconnected (responsive : Responsive core) (decoders : Decoders)
    (session : OrderEntry core) :
    ∃ session' out, step decoders session { input := .disconnected } = some (session', out) ∧
      (core.stage session'.download ∈ stages ↔ core.stage session.download ∈ stages) := by
  let gone := Turn.publish ({ session } : Turn core) .disconnected ""
  have announced : Runs (onConnectionStatus (fun _ => none) .disconnected) { session } (.ok ⟨⟩)
      gone := rfl
  have same : gone.session.download = session.download := rfl
  by_cases waiting : core.stage session.download ∈ stages
  · have downloading := (responsive.downloading_iff _).mpr waiting
    have stays : Runs (get >>= fun turn =>
        if core.downloading turn.session.download = true then pure ⟨⟩ else reset) gone
        (.ok ⟨⟩) gone := by
      refine runs_get_bind ?_
      rw [same, if_pos downloading]
      exact runs_pure _ _
    exact ⟨_, _, step_of_runs (announced.bind stays), Iff.rfl⟩
  · have idle : ¬ core.downloading session.download = true := by
      rwa [responsive.downloading_iff]
    have drops : Runs (get >>= fun turn =>
        if core.downloading turn.session.download = true then pure ⟨⟩ else reset) gone
        (.ok ⟨⟩) ((gone.note .reset).setDownload (core.reset session.download)) := by
      refine runs_get_bind ?_
      rw [same, if_neg idle]
      rfl
    refine ⟨_, _, step_of_runs (announced.bind drops), ?_⟩
    refine iff_of_false ?_ waiting
    simp [Turn.setDownload, core.reset_spec, stages]

/-! ## An exchange that answers -/

/-- The loop over balances that pass. -/
theorem runs_onBalanceAck_quiet {balanceAck : Json.BalanceAck}
    (passes : fundsPass decoders (fun _ => none) 0 balanceAck.result = true) :
    ∃ turn, Runs (onBalanceAck decoders (fun _ => none) balanceAck) { session } (.ok ⟨⟩) turn ∧
      turn.session = session := by
  obtain ⟨errors, items⟩ := balanceAck
  obtain ⟨result, turn, ran, same, -, ends⟩ :=
    runs_onBalanceAck decoders (fun _ => none) errors items { session }
  obtain ⟨rfl, -⟩ := (if_pos passes).mp ends
  exact ⟨turn, ran, same⟩

/-- A handler that accepts gets as far as the check without a change of the session; the
one of the token has handed it over. -/
theorem exists_beforeCheck {body : String} (answers : Answers decoders stage body) :
    ∃ (accept : String → Act core PUnit) (turn : Turn core),
      onAck decoders (fun _ => none) stage = ack (fun _ => none) stage accept ∧
      turn.session = session ∧
      (stage = .token → ∃ token, .tokenUpdate session.account token ∈ turn.effects) ∧
      ∀ last, Runs (check (fun _ => none) stage) turn (.ok ⟨⟩) last →
        Runs (accept body) { session } (.ok ⟨⟩) last := by
  obtain ⟨calls, accepted⟩ := answers
  cases stage with
  | undefined | done => cases accepted
  | token =>
    simp only [attemptBody] at accepted
    split at accepted
    · cases accepted
    · next tokenAck decodes =>
      split at accepted
      · next good =>
        refine ⟨_, Turn.note { session } (.tokenUpdate session.account tokenAck.result.token),
          by rw [onAck, getTokenAck], rfl, fun _ => ⟨_, List.mem_singleton_self _⟩, ?_⟩
        intro last checked
        rw [decodes]
        refine (runs_pure tokenAck _).bind ?_
        rw [if_pos good]
        exact (runs_get_bind (runs_perform _ _ _)).bind checked
      · cases accepted
  | balance =>
    simp only [attemptBody] at accepted
    split at accepted
    · cases accepted
    · next balanceAck decodes =>
      split at accepted
      · next passes =>
        obtain ⟨turn, ran, same⟩ := @runs_onBalanceAck_quiet core decoders session _ passes
        refine ⟨_, turn, by rw [onAck, getBalanceAck], same, by simp, ?_⟩
        intro last checked
        rw [decodes]
        exact (runs_pure balanceAck _).bind (ran.bind checked)
      · cases accepted
  | tradeBalance =>
    exact ⟨_, { session }, by rw [onAck, getTradeBalanceAck], rfl, by simp, fun _ checked => checked⟩
  | openPositions =>
    refine ⟨_, { session }, by rw [onAck, getOpenPositionsAck], rfl, by simp, ?_⟩
    intro last checked
    cases decodes : decoders.openPositionsAck body with
    | error exception => simp [attemptBody, decodes, Except.isOk, Except.toBool] at accepted
    | ok value => exact (runs_pure value _).bind checked
  | openOrders =>
    refine ⟨_, { session }, by rw [onAck, getOpenOrdersAck], rfl, by simp, ?_⟩
    intro last checked
    cases decodes : decoders.openOrdersAck body with
    | error exception => simp [attemptBody, decodes, Except.isOk, Except.toBool] at accepted
    | ok value => exact (runs_pure value _).bind checked

/-- **Answers.**  A response that the exchange gives to the current request leads to the
next stage, and the last one to `ready`. -/
theorem step_answered (responsive : Responsive core)
    (waiting : core.stage session.download ∈ stages) {body : String}
    (answers : Answers decoders (core.stage session.download) body) :
    ∃ session' out,
      step decoders session
        { input := .ack (core.stage session.download) (.ok (.success, body))
            (core.sequence session.download) } = some (session', out) ∧
      (core.stage session.download = .token →
        ∃ token, .tokenUpdate session.account token ∈ out) ∧
      (session'.connectionStatus = .ready ∧ core.stage session'.download ∉ stages ∨
        core.stage session'.download ∈ stages ∧
          core.stage session'.download = (core.stage session.download).next) := by
  obtain ⟨accept, turn, handler, same, handed, checked⟩ :=
    @exists_beforeCheck core decoders session _ _ answers
  obtain ⟨next, calls⟩ := core.check_current _ waiting
  obtain ⟨last, ran, moved, kept⟩ := runs_move_quiet
    (core.check session.download (core.stage session.download)).1
    (core.stage session.download).next (turn.note (.check (core.stage session.download)))
  rw [← calls] at ran
  have checks : Runs (check (fun _ => none) (core.stage session.download)) turn (.ok ⟨⟩) last := by
    refine (runs_modify _ _).bind (runs_get_bind ?_)
    rw [show (turn.note (.check (core.stage session.download))).session = session from same]
    exact ran
  have answered : Runs (onInput decoders
      { input := .ack (core.stage session.download) (.ok (.success, body))
          (core.sequence session.download) }) { session } (.ok ⟨⟩) last := by
    simp only [onInput]
    rw [handler]
    refine Runs.tryCatch_ok ((runs_pure (Category.success, body) _).bind (runs_get_bind ?_))
    rw [if_neg (by simp [responsive.current _ waiting])]
    exact checked last checks
  refine ⟨_, _, step_of_runs answered, fun first => ?_, ?_⟩
  · obtain ⟨token, member⟩ := handed first
    exact ⟨token, kept (List.mem_append_left _ member)⟩
  · rw [moved]
    by_cases finished : (core.stage session.download).next = .done
    · refine .inl ⟨by rw [finished]; rfl, ?_⟩
      rw [called]
      rcases core.settle_spec (core.check session.download (core.stage session.download)).1
        (some (core.stage session.download).next.count) with stays | drops
      · rw [stays, next, finished]
        decide
      · rw [drops]
        decide
    · have later : 0 < (core.stage session.download).next.count ∧
          (core.stage session.download).next ∈ stages := by
        revert waiting finished
        cases core.stage session.download <;> decide
      rw [called, responsive.settle_waiting _ _ later.1]
      exact .inr ⟨next.symm ▸ later.2, next⟩

end OrderEntry

end RoqKraken.Gateway
