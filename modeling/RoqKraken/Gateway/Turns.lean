import RoqKraken.Gateway.DownloadSteps

/-!
# What a turn of the REST session keeps

The handlers of a session do three kinds of things: they call the download, they
hand on parts of a response, and they say something about the session itself.
`Calls` lists them for a property of a turn, and `Calls.keeps_onInput` is the rule
that a turn keeps what they keep; only an accepted response leads to a check.

A `Frame` is a property that the download cannot touch, whatever it does: all that is
left to look at then are the parts of a response, and `Effect.ResultOf` says which
response that takes.
-/

namespace RoqKraken.Gateway

namespace OrderEntry

variable {core : Download2} {decoders : Decoders} {raises : Nat → Option Exception}

/-- The calls that say nothing about the state of the session and carry no part of a
response. -/
def Effect.isPlain : Effect → Bool
  | .tokenUpdate .. => false
  | .dispatch (.externalLatency _) => true
  | .dispatch _ => false
  | _ => true

/-- What the session publishes about itself. -/
def Turn.publish (turn : Turn core) (status : ConnectionStatus) (reason : String) : Turn core :=
  { session := { turn.session with connectionStatus := status }
    effects := turn.effects ++ [.dispatch (.streamStatus
      { streamId := turn.session.streamId
        account := turn.session.account
        connectionStatus := status
        reason })] }

@[simp] theorem after_onConnectionStatus (status : ConnectionStatus) (reason : String)
    (turn : Turn core) :
    (onConnectionStatus raises status reason).after turn = turn.publish status reason := by
  unfold onConnectionStatus
  rw [Fallible.after_get_bind, Fallible.after_modify_bind, after_perform]
  rfl

/-- The effect carries a part of a response that the session was handed: a token out
of a response without errors, or one of the balances of a response. -/
def Effect.ResultOf (decoders : Decoders) (session : OrderEntry core) (input : Input) :
    Effect → Prop
  | .tokenUpdate account token =>
    account = session.account ∧ ∃ body sequence tokenAck,
      input = .ack .token (.ok (.success, body)) sequence ∧
      decoders.tokenAck body = .ok tokenAck ∧ tokenAck.error = [] ∧
      tokenAck.result.token = token
  | .dispatch (.fundsUpdate update) =>
    ∃ body sequence balanceAck, ∃ item ∈ balanceAck.result, ∃ balance,
      input = .ack .balance (.ok (.success, body)) sequence ∧
      decoders.balanceAck body = .ok balanceAck ∧
      decoders.fromStringRelaxed item.value = .ok balance ∧
      update =
        { streamId := session.streamId
          account := session.account
          currency := item.key
          balance
          updateType := .snapshot }
  | _ => False

/-- A property of a turn that does not depend on what is plain. -/
structure Frame (Inv : Turn core → Prop) : Prop where
  note : ∀ turn effect, effect.isPlain = true → Inv turn → Inv (turn.note effect)
  publish : ∀ (turn : Turn core) status reason, Inv turn → Inv (turn.publish status reason)
  download : ∀ (turn : Turn core) data, Inv turn → Inv (turn.setDownload data)

namespace Frame

variable {Inv : Turn core → Prop} (frame : Frame Inv)
include frame

theorem keeps_perform {effect : Effect} (plain : effect.isPlain = true) :
    Fallible.Keeps Inv (perform raises effect) := by
  intro turn inv
  rw [after_perform]
  exact frame.note turn effect plain inv

theorem keeps_onConnectionStatus (status : ConnectionStatus) (reason : String) :
    Fallible.Keeps Inv (onConnectionStatus raises status reason) := by
  intro turn inv
  rw [after_onConnectionStatus]
  exact frame.publish turn status reason inv

theorem keeps_request (path name : String) : Fallible.Keeps Inv (request raises path name) := by
  unfold request
  exact Fallible.keeps_get_bind fun turn => frame.keeps_perform rfl

theorem keeps_onDownload (state : State) : Fallible.Keeps Inv (onDownload raises state) := by
  cases state with
  | undefined => exact Fallible.keeps_pure _
  | token => exact Fallible.keeps_bind (frame.keeps_request _ _) fun _ => Fallible.keeps_pure _
  | done =>
    refine Fallible.keeps_bind (frame.keeps_onConnectionStatus _ _) fun _ => ?_
    exact Fallible.keeps_pure _
  | _ =>
    refine Fallible.keeps_bind (frame.keeps_onConnectionStatus _ _) fun _ => ?_
    exact Fallible.keeps_bind (frame.keeps_request _ _) fun _ => Fallible.keeps_pure _

theorem keeps_settle (result : Option Int) :
    Fallible.Keeps Inv (settle result : Act core PUnit) :=
  Fallible.keeps_modify fun turn inv => frame.download turn _ inv

theorem keeps_callback (state : State) : Fallible.Keeps Inv (callback raises state) := by
  intro turn inv
  refine Fallible.inv_tryCatch ?_ fun exception => ?_
  · exact Fallible.keeps_bind (frame.keeps_onDownload state) (fun count => frame.keeps_settle _)
      turn inv
  · exact Fallible.keeps_bind (frame.keeps_settle _) fun _ => Fallible.keeps_throw _

/-- A call on the download. -/
theorem keeps_move (moved : core.Data × Option State) :
    Fallible.Keeps Inv (move raises moved) := by
  intro turn inv
  unfold move
  rw [Fallible.after_modify_bind]
  have inv' := frame.download turn moved.1 inv
  cases moved.2 with
  | none => exact inv'
  | some state => exact frame.keeps_callback state _ inv'

theorem keeps_begin : Fallible.Keeps Inv (begin raises : Act core PUnit) := by
  intro turn inv
  rw [after_begin]
  exact frame.keeps_move _ _ (frame.note turn _ rfl inv)

theorem keeps_bump : Fallible.Keeps Inv (bump raises : Act core PUnit) := by
  intro turn inv
  rw [after_bump]
  exact frame.keeps_move _ _ (frame.note turn _ rfl inv)

theorem keeps_reset : Fallible.Keeps Inv (reset : Act core PUnit) := by
  intro turn inv
  rw [after_reset]
  exact frame.download _ _ (frame.note turn _ rfl inv)

theorem keeps_retry (stage : State) :
    Fallible.Keeps Inv (retry raises stage : Act core PUnit) := by
  intro turn inv
  rw [after_retry]
  exact frame.keeps_move _ _ (frame.note turn _ rfl inv)

theorem keeps_check (stage : State) :
    Fallible.Keeps Inv (check raises stage : Act core PUnit) := by
  intro turn inv
  rw [after_check]
  exact frame.keeps_move _ _ (frame.note turn _ rfl inv)

end Frame

/-! ## Handlers -/

/-- The event is a response for the stage that succeeded and that its handler accepts. -/
def Event.AcceptedAt (decoders : Decoders) (stage : State) (event : Event) : Prop :=
  ∃ body sequence, event.input = .ack stage (.ok (.success, body)) sequence ∧
    Accepts decoders stage body

/-- A property of a turn that is kept by what the handlers do. -/
structure Calls (decoders : Decoders) (event : Event) (Inv : Turn core → Prop) : Prop where
  latency : ∀ turn sample, Inv turn → Inv (turn.note (.dispatch (.externalLatency sample)))
  disconnected : Fallible.Keeps Inv (onConnectionStatus event.raises .disconnected)
  begin : Fallible.Keeps Inv (begin event.raises)
  bump : Fallible.Keeps Inv (bump event.raises)
  reset : Fallible.Keeps Inv reset
  retry : ∀ stage, Fallible.Keeps Inv (retry event.raises stage)
  check : ∀ stage, event.AcceptedAt decoders stage → Fallible.Keeps Inv (check event.raises stage)
  result : ∀ turn effect, effect.ResultOf decoders turn.session event.input → Inv turn →
    Inv (turn.note effect)

theorem Frame.calls {Inv : Turn core → Prop} (frame : Frame Inv) {event : Event}
    (results : ∀ turn effect, effect.ResultOf decoders turn.session event.input → Inv turn →
      Inv (turn.note effect)) : Calls decoders event Inv where
  latency turn _ inv := frame.note turn _ rfl inv
  disconnected := frame.keeps_onConnectionStatus _ _
  begin := frame.keeps_begin
  bump := frame.keeps_bump
  reset := frame.keeps_reset
  retry _ := frame.keeps_retry _
  check _ _ := frame.keeps_check _
  result := results

namespace Calls

variable {Inv : Turn core → Prop} {event : Event} (calls : Calls decoders event Inv)
include calls

/-- A response, with what is done with the body of a success. -/
theorem keeps_ack {stage : State} {accept : String → Act core PUnit} {response : RestResponse}
    {sequence : UInt32}
    (accepted : ∀ body, response = .ok (.success, body) → Fallible.Keeps Inv (accept body)) :
    Fallible.Keeps Inv (ack event.raises stage accept response sequence) := by
  intro turn inv
  refine inv_processResponse (calls.retry stage) response
    (fun body success => ?_) fun _ => inv
  rw [Fallible.after_get_bind]
  split
  · exact inv
  · exact accepted body success turn inv

/-- The response decodes, as far as the handler looks. -/
theorem keeps_decoded {α : Type} {stage : State} {response : RestResponse} {sequence : UInt32}
    (input : event.input = .ack stage response sequence) {body : String}
    (success : response = .ok (.success, body)) {result : Except Exception α}
    (accepts : ∀ value, result = .ok value → Accepts decoders stage body) :
    Fallible.Keeps Inv (decoded result >>= fun _ => OrderEntry.check event.raises stage) := by
  intro turn inv
  refine inv_decoded_bind inv fun value ok => ?_
  exact calls.check stage ⟨body, sequence, by rw [input, success], accepts value ok⟩ turn inv

theorem keeps_getTokenAck {response : RestResponse} {sequence : UInt32}
    (input : event.input = .ack .token response sequence) :
    Fallible.Keeps Inv (getTokenAck decoders event.raises response sequence) := by
  refine calls.keeps_ack fun body success turn inv => ?_
  refine inv_decoded_bind inv fun tokenAck ok => ?_
  split
  · next empty =>
    have none : tokenAck.error = [] := List.isEmpty_iff.mp empty
    have good : event.input = .ack .token (.ok (.success, body)) sequence := by
      rw [input, success]
    have accepts : Accepts decoders .token body := by
      simp [Accepts, Decoders.errors, ok, Except.toOption, none]
    refine Fallible.inv_bind ?_ fun _ => calls.check .token ⟨body, sequence, good, accepts⟩
    unfold onTokenAck
    rw [Fallible.after_get_bind, after_perform]
    exact calls.result turn _ ⟨rfl, body, sequence, tokenAck, good, ok, none, rfl⟩ inv
  · exact calls.retry _ turn inv

theorem keeps_getBalanceAck {response : RestResponse} {sequence : UInt32}
    (input : event.input = .ack .balance response sequence) :
    Fallible.Keeps Inv (getBalanceAck decoders event.raises response sequence) := by
  refine calls.keeps_ack fun body success turn inv => ?_
  refine inv_decoded_bind inv fun balanceAck ok => ?_
  have good : event.input = .ack .balance (.ok (.success, body)) sequence := by
    rw [input, success]
  have accepts : Accepts decoders .balance body := by
    simp [Accepts, Decoders.errors, ok, Except.toOption]
  refine Fallible.inv_bind ?_ fun _ => calls.check .balance ⟨body, sequence, good, accepts⟩
  have loop : ∀ items : List Json.BalanceAckResultItem,
      (∀ item ∈ items, item ∈ balanceAck.result) →
      Fallible.Keeps Inv (items.forM fun item => do
        let balance ← decoded (decoders.fromStringRelaxed item.value)
        let turn ← get
        perform event.raises (.dispatch (.fundsUpdate
          { streamId := turn.session.streamId
            account := turn.session.account
            currency := item.key
            balance
            updateType := .snapshot }))) := by
    intro items
    induction items with
    | nil => exact fun _ => Fallible.keeps_pure _
    | cons item items ih =>
      intro listed
      obtain ⟨here, later⟩ := List.forall_mem_cons.mp listed
      refine Fallible.keeps_bind (fun turn inv => ?_) fun _ => ih later
      refine inv_decoded_bind inv fun balance read => ?_
      rw [Fallible.after_get_bind, after_perform]
      refine calls.result turn _ ?_ inv
      exact ⟨body, sequence, balanceAck, item, here, balance, good, ok, read, rfl⟩
  exact loop _ (fun _ member => member) turn inv

/-- **Turn rule.**  A turn keeps what its calls keep. -/
theorem keeps_onInput : Fallible.Keeps Inv (onInput decoders event : Act core PUnit) := by
  unfold onInput
  cases input : event.input with
  | connected =>
    refine Fallible.keeps_get_bind fun turn => ?_
    split
    · exact calls.bump
    · exact calls.begin
  | disconnected =>
    refine Fallible.keeps_bind calls.disconnected fun _ => ?_
    refine Fallible.keeps_get_bind fun turn => ?_
    split
    · exact Fallible.keeps_pure _
    · exact calls.reset
  | latency sample =>
    refine Fallible.keeps_get_bind fun turn inner inv => ?_
    rw [after_perform]
    exact calls.latency inner _ inv
  | ack stage response sequence =>
    cases stage with
    | undefined | done => exact Fallible.keeps_pure _
    | token => exact calls.keeps_getTokenAck input
    | balance => exact calls.keeps_getBalanceAck input
    | tradeBalance =>
      simp only [onAck, getTradeBalanceAck]
      refine calls.keeps_ack fun body success => ?_
      exact calls.check .tradeBalance ⟨body, sequence, by rw [input, success], trivial⟩
    | openPositions =>
      simp only [onAck, getOpenPositionsAck]
      refine calls.keeps_ack fun body success => calls.keeps_decoded input success ?_
      intro value ok
      simp [Accepts, Decoders.errors, ok, Except.toOption]
    | openOrders =>
      simp only [onAck, getOpenOrdersAck]
      refine calls.keeps_ack fun body success => calls.keeps_decoded input success ?_
      intro value ok
      simp [Accepts, Decoders.errors, ok, Except.toOption]

/-- The turn rule for a step. -/
theorem step {session session' : OrderEntry core} {out : List Effect}
    (stepped : step decoders session event = some (session', out)) (start : Inv { session }) :
    Inv { session := session', effects := out } := by
  have kept := calls.keeps_onInput { session } start
  obtain ⟨rfl, rfl⟩ := Prod.mk.inj (Option.some.inj stepped)
  exact kept

end Calls

/-! ## Turns -/

section Step

variable {session session' : OrderEntry core} {event : Event} {out : List Effect}

/-- No event changes who the session is. -/
theorem step_constant (stepped : step decoders session event = some (session', out)) :
    session'.streamId = session.streamId ∧ session'.account = session.account := by
  have frame : Frame fun turn : Turn core =>
      turn.session.streamId = session.streamId ∧ turn.session.account = session.account :=
    ⟨fun _ _ _ same => same, fun _ _ _ same => same, fun _ _ same => same⟩
  exact (frame.calls fun _ _ _ same => same).step stepped ⟨rfl, rfl⟩

/-- What is handed on among the effects comes out of the response. -/
def ResultsOf (decoders : Decoders) (session : OrderEntry core) (input : Input)
    (effects : List Effect) : Prop :=
  ∀ effect ∈ effects, effect.isResult = true → effect.ResultOf decoders session input

theorem ResultsOf.concat {effects : List Effect} {last : Effect}
    (before : ResultsOf decoders session event.input effects)
    (here : last.isResult = true → last.ResultOf decoders session event.input) :
    ResultsOf decoders session event.input (effects ++ [last]) := by
  intro effect member
  rcases List.mem_append.mp member with old | new
  · exact before effect old
  · rw [List.mem_singleton.mp new]
    exact here

theorem Effect.isResult_of_isPlain {effect : Effect} (plain : effect.isPlain = true) :
    effect.isResult = false := by
  unfold Effect.isPlain at plain
  split at plain
  · cases plain
  · rfl
  · cases plain
  · unfold Effect.isResult
    split <;> simp_all

/-- What a session hands on comes out of the response it was handed. -/
theorem step_results (stepped : step decoders session event = some (session', out)) :
    ResultsOf decoders session event.input out := by
  have frame : Frame fun turn : Turn core =>
      (turn.session.streamId = session.streamId ∧ turn.session.account = session.account) ∧
        ResultsOf decoders session event.input turn.effects := by
    refine ⟨fun turn effect plain inv => ⟨inv.1, inv.2.concat fun isResult => ?_⟩,
      fun turn status reason inv => ⟨inv.1, inv.2.concat fun isResult => ?_⟩,
      fun turn data inv => inv⟩
    · rw [Effect.isResult_of_isPlain plain] at isResult
      cases isResult
    · cases isResult
  refine ((frame.calls fun turn effect resultOf inv => ?_).step stepped
    ⟨⟨rfl, rfl⟩, fun effect member => absurd member List.not_mem_nil⟩).2
  refine ⟨inv.1, inv.2.concat fun _ => ?_⟩
  unfold Effect.ResultOf at resultOf ⊢
  rwa [inv.1.1, inv.1.2] at resultOf

end Step

end OrderEntry

end RoqKraken.Gateway
