import RoqKraken.Gateway.Isolation

/-!
# The order of the requests

A REST session asks for one stage after the other.  What it may ask for next is in
the download, which the repository does not contain; what the exchange sees is the
order of the requests.  `requests_run`: a session asks for a stage only when, since
its download began, a response for every stage before has been accepted, whatever is
raised, fails, comes twice or comes late.
-/

namespace RoqKraken.Gateway

namespace OrderEntry

/-! ## Stages in order -/

/-- The path and the name of the request of a stage. -/
def State.request : State → Option (String × String)
  | .undefined => none
  | .token => some ("/0/private/GetWebSocketsToken", "token")
  | .balance => some ("/0/private/Balance", "balance")
  | .tradeBalance => some ("/0/private/TradeBalance", "trade_balance")
  | .openPositions => some ("/0/private/OpenPositions", "open-positions")
  | .openOrders => some ("/0/private/OpenOrders", "open-orders")
  | .done => none

/-- The stages before a stage. -/
def State.earlier : State → List State
  | .undefined => []
  | .token => []
  | .balance => [.token]
  | .tradeBalance => [.token, .balance]
  | .openPositions => [.token, .balance, .tradeBalance]
  | .openOrders => [.token, .balance, .tradeBalance, .openPositions]
  | .done => stages

theorem State.mem_earlier_next {stage other : State} (member : stage ∈ stages)
    (before : other ∈ stage.next.earlier) : other ∈ stage.earlier ∨ other = stage := by
  cases stage with
  | undefined | done => simp [stages] at member
  | _ =>
    simp only [State.next, State.earlier, stages, List.mem_cons, List.not_mem_nil] at before ⊢
    tauto

/-! ## The calls of a run -/

/-- All calls of a log, each with the event it was made at. -/
def history (log : List (Event × List Effect)) : List (Event × Effect) :=
  log.flatMap fun entry => entry.2.map fun effect => (entry.1, effect)

@[simp] theorem history_nil : history [] = [] := rfl

@[simp] theorem history_concat (log : List (Event × List Effect)) (event : Event)
    (out : List Effect) :
    history (log ++ [(event, out)]) = history log ++ out.map fun effect => (event, effect) := by
  simp [history]

/-- Since the download began, a response for the stage has been accepted. -/
def Answered (decoders : Decoders) (past : List (Event × Effect)) (stage : State) : Prop :=
  Since (fun call => call.2 = .begin)
    (fun call => call.2 = .check stage ∧ call.1.AcceptedAt decoders stage) past

/-- If the call is a request, it is that of a stage, and every stage before has been
answered. -/
def InOrder (decoders : Decoders) (past : List (Event × Effect)) (call : Event × Effect) : Prop :=
  ∀ path name sequence, call.2 = .request path name sequence →
    ∃ stage : State, stage.request = some (path, name) ∧
      ∀ other ∈ stage.earlier, Answered decoders past other

/-- The requests so far were in order, and so is the next one. -/
structure Ordered {core : Download2} (decoders : Decoders) (session : OrderEntry core)
    (past : List (Event × Effect)) : Prop where
  answered : ∀ stage ∈ (core.stage session.download).earlier, Answered decoders past stage
  inOrder : Throughout (InOrder decoders) past

section Turn

variable {core : Download2} {decoders : Decoders} {raises : Nat → Option Exception}
  {past : List (Event × Effect)} {event : Event} {turn : Turn core} {effect : Effect}

/-- The calls so far while a turn goes on. -/
def sofar (past : List (Event × Effect)) (event : Event) (turn : Turn core) :
    List (Event × Effect) :=
  past ++ turn.effects.map fun effect => (event, effect)

@[simp] theorem sofar_note (turn : Turn core) (effect : Effect) :
    sofar past event (turn.note effect) = sofar past event turn ++ [(event, effect)] := by
  simp [sofar, Turn.note]

/-- The requests of a turn are in order so far. -/
def OrderedTurn (decoders : Decoders) (past : List (Event × Effect)) (event : Event)
    (turn : Turn core) : Prop :=
  Ordered decoders turn.session (sofar past event turn)

theorem OrderedTurn.note (ordered : OrderedTurn decoders past event turn)
    (later : effect ≠ .begin)
    (inOrder : InOrder decoders (sofar past event turn) (event, effect)) :
    OrderedTurn decoders past event (turn.note effect) := by
  refine ⟨fun stage member => ?_, ?_⟩
  · rw [sofar_note]
    exact (ordered.answered stage member).concat later
  · rw [sofar_note]
    exact ordered.inOrder.concat inOrder

/-- A call that is not a request. -/
theorem OrderedTurn.other (ordered : OrderedTurn decoders past event turn) (effect : Effect)
    (later : effect ≠ .begin) (other : ∀ path name sequence, effect ≠ .request path name sequence) :
    OrderedTurn decoders past event (turn.note effect) := by
  apply ordered.note later
  intro path name sequence asked
  exact absurd asked (other path name sequence)

theorem OrderedTurn.publish (ordered : OrderedTurn decoders past event turn)
    (status : ConnectionStatus) (reason : String) :
    OrderedTurn decoders past event (turn.publish status reason) := by
  have noted := ordered.other (.dispatch (.streamStatus
    { streamId := turn.session.streamId
      account := turn.session.account
      connectionStatus := status
      reason })) (by simp) (by simp)
  exact ⟨noted.answered, noted.inOrder⟩

/-- What becomes of the download is at the same stage, or at none. -/
theorem OrderedTurn.setDownload (ordered : OrderedTurn decoders past event turn) {data : core.Data}
    (same : core.stage data = core.stage turn.session.download ∨ core.stage data = .undefined) :
    OrderedTurn decoders past event (turn.setDownload data) := by
  refine ⟨fun stage member => ?_, ordered.inOrder⟩
  change stage ∈ (core.stage data).earlier at member
  rcases same with same | dropped
  · rw [same] at member
    exact ordered.answered stage member
  · rw [dropped] at member
    cases member

/-! ## The callback of a stage -/

/-- The request of the stage that the download is at. -/
theorem keeps_request {state : State} {path name : String}
    (asked : state.request = some (path, name)) :
    Fallible.Keeps (fun turn : Turn core => OrderedTurn decoders past event turn ∧
      core.stage turn.session.download = state) (request raises path name) := by
  rintro turn ⟨ordered, current⟩
  unfold request
  rw [Fallible.after_get_bind, after_perform]
  refine ⟨ordered.note (by simp) ?_, current⟩
  intro path' name' sequence same
  cases same
  refine ⟨state, asked, fun other before => ?_⟩
  rw [← current] at before
  exact ordered.answered other before

theorem keeps_announce {state : State} (status : ConnectionStatus) (reason : String) :
    Fallible.Keeps (fun turn : Turn core => OrderedTurn decoders past event turn ∧
      core.stage turn.session.download = state) (onConnectionStatus raises status reason) := by
  rintro turn ⟨ordered, current⟩
  rw [after_onConnectionStatus]
  exact ⟨ordered.publish status reason, current⟩

theorem keeps_onDownload (state : State) :
    Fallible.Keeps (fun turn : Turn core => OrderedTurn decoders past event turn ∧
      core.stage turn.session.download = state) (onDownload raises state) := by
  cases state with
  | undefined => exact Fallible.keeps_pure _
  | token => exact Fallible.keeps_bind (keeps_request rfl) fun _ => Fallible.keeps_pure _
  | done => exact Fallible.keeps_bind (keeps_announce _ _) fun _ => Fallible.keeps_pure _
  | _ =>
    refine Fallible.keeps_bind (keeps_announce _ _) fun _ => ?_
    exact Fallible.keeps_bind (keeps_request rfl) fun _ => Fallible.keeps_pure _

theorem keeps_settled (result : Option Int) :
    Fallible.Keeps (OrderedTurn decoders past event : Turn core → Prop) (settle result) :=
  Fallible.keeps_modify fun turn ordered =>
    ordered.setDownload (core.settle_spec turn.session.download result)

theorem orderedTurn_callback {state : State} (ordered : OrderedTurn decoders past event turn)
    (current : core.stage turn.session.download = state) :
    OrderedTurn decoders past event ((callback raises state).after turn) := by
  have ran : OrderedTurn decoders past event ((onDownload raises state).after turn) :=
    (keeps_onDownload state turn ⟨ordered, current⟩).1
  refine Fallible.inv_tryCatch ?_ fun exception => ?_
  · exact Fallible.inv_bind ran fun count => keeps_settled _
  · exact Fallible.keeps_bind (keeps_settled _) fun _ => Fallible.keeps_throw _

/-- A call on the download whose callback is that of the stage it is at then. -/
theorem orderedTurn_move {moved : core.Data × Option State}
    (ordered : OrderedTurn decoders past event (turn.setDownload moved.1))
    (current : ∀ state ∈ moved.2, state = core.stage moved.1) :
    OrderedTurn decoders past event ((move raises moved).after turn) := by
  unfold move
  rw [Fallible.after_modify_bind]
  cases called : moved.2 with
  | none => exact ordered
  | some state => exact orderedTurn_callback ordered (current state called).symm

/-! ## Calls on the download -/

theorem keeps_begun :
    Fallible.Keeps (OrderedTurn decoders past event : Turn core → Prop) (begin raises) := by
  intro turn ordered
  obtain ⟨first, called⟩ := core.begin_spec turn.session.download
  rw [after_begin]
  refine orderedTurn_move ⟨fun stage member => ?_, ?_⟩ fun state asked => ?_
  · change stage ∈ (core.stage (core.begin turn.session.download).1).earlier at member
    rw [first] at member
    cases member
  · change Throughout (InOrder decoders) (sofar past event (turn.note .begin))
    rw [sofar_note]
    apply ordered.inOrder.concat
    intro path name sequence same
    cases same
  · rw [called, Option.mem_some_iff] at asked
    rw [first, asked]

theorem keeps_bumped :
    Fallible.Keeps (OrderedTurn decoders past event : Turn core → Prop) (bump raises) := by
  intro turn ordered
  obtain ⟨same, called⟩ := core.bump_spec turn.session.download
  rw [after_bump]
  have noted := ordered.other .bump (by simp) (by simp)
  refine orderedTurn_move (noted.setDownload (.inl same)) fun state asked => ?_
  exact (called state asked).trans same.symm

theorem keeps_retried (stage : State) :
    Fallible.Keeps (OrderedTurn decoders past event : Turn core → Prop) (retry raises stage) := by
  intro turn ordered
  obtain ⟨same, called⟩ := core.retry_spec turn.session.download stage
  rw [after_retry]
  have noted := ordered.other (.retry stage) (by simp) (by simp)
  refine orderedTurn_move (noted.setDownload (.inl same)) fun state asked => ?_
  exact (called state asked).trans same.symm

theorem Event.AcceptedAt.mem_stages {stage : State} (accepted : event.AcceptedAt decoders stage) :
    stage ∈ stages := by
  obtain ⟨body, sequence, -, accepts⟩ := accepted
  cases stage with
  | undefined | done => cases accepts
  | _ => decide

/-- After the check of the current stage it is the next stage's turn, and the stage has
been answered. -/
theorem keeps_checked (stage : State) (accepted : event.AcceptedAt decoders stage) :
    Fallible.Keeps (OrderedTurn decoders past event : Turn core → Prop) (check raises stage) := by
  intro turn ordered
  rw [after_check]
  have noted := ordered.other (.check stage) (by simp) (by simp)
  by_cases current : core.stage turn.session.download = stage
  · subst current
    have member := accepted.mem_stages
    obtain ⟨next, called⟩ := core.check_current turn.session.download member
    refine orderedTurn_move ⟨fun other before => ?_, noted.inOrder⟩ fun state asked => ?_
    · change other ∈ (core.stage (core.check _ _).1).earlier at before
      rw [next] at before
      rcases State.mem_earlier_next member before with earlier | rfl
      · exact noted.answered other earlier
      · change Answered decoders (sofar past event (turn.note _)) _
        rw [sofar_note]
        exact since_concat_of_last ⟨rfl, accepted⟩
    · rw [called, Option.mem_some_iff] at asked
      rw [next, asked]
  · obtain ⟨same, called⟩ := core.check_other turn.session.download stage current
    refine orderedTurn_move (noted.setDownload (.inl same)) fun state asked => ?_
    rw [called] at asked
    cases asked

theorem calls_ordered :
    Calls decoders event (OrderedTurn decoders past event : Turn core → Prop) where
  latency turn sample ordered := ordered.other _ (by simp) (by simp)
  disconnected turn ordered := by
    rw [after_onConnectionStatus]
    exact ordered.publish _ _
  begin := keeps_begun
  bump := keeps_bumped
  reset turn ordered := by
    rw [after_reset]
    have noted := ordered.other .reset (by simp) (by simp)
    exact noted.setDownload (.inr (core.reset_spec _))
  retry stage := keeps_retried stage
  check stage accepted := keeps_checked stage accepted
  result turn effect resultOf ordered := by
    apply ordered.other
    · rintro rfl
      exact resultOf
    · rintro path name sequence rfl
      exact resultOf

/-- A step keeps the order. -/
theorem ordered_step {session session' : OrderEntry core} {out : List Effect}
    (ordered : Ordered decoders session past)
    (stepped : step decoders session event = some (session', out)) :
    Ordered decoders session' (past ++ out.map fun effect => (event, effect)) := by
  have start : OrderedTurn decoders past event { session } := by
    unfold OrderedTurn sofar
    rwa [List.map_nil, List.append_nil]
  exact calls_ordered.step stepped start

end Turn

/-- The requests of a session in the order of its calls. -/
theorem ordered_run {core : Download2} {decoders : Decoders} {streamId : UInt16} {account : String}
    {events : List Event} {session : OrderEntry core} {log : List (Event × List Effect)}
    (ran : (step decoders).run (create core streamId account) events = some (session, log)) :
    Ordered decoders session (history log) := by
  refine @Step.run_induction _ _ _ _ _ _ _ _
    (fun (session : OrderEntry core) past => Ordered decoders session (history past)) [] ran ?_ ?_
  · intro session past event session' out _ ordered stepped
    rw [history_concat]
    exact ordered_step ordered stepped
  · refine ⟨fun stage member => ?_, throughout_nil⟩
    change stage ∈ (core.stage core.initial).earlier at member
    rw [core.stage_initial] at member
    cases member

end OrderEntry

namespace System

variable {core : Symbols} {download : OrderEntry.Download2} {decoders : OrderEntry.Decoders}
  {server : Server} {settings : Settings} {config : Config} {system : System core download}
  {events : List Event} {log : List (Event × List Emitted)}

/-- **Requests of an account.**  Whatever happens to the gateway, the REST session of an
account asks for a stage only when, since its download began, a response for every stage
before has been accepted. -/
theorem requests_run
    (ran : (step decoders server settings).run (create core download config) events =
      some (system, log)) {account : String} (member : account ∈ config.accounts) :
    Throughout (OrderEntry.InOrder decoders)
      (OrderEntry.history (log.flatMap (orderEntryTrace account))) := by
  obtain ⟨streamId, drawn⟩ := lookup_orderEntry_of_mem core member
  obtain ⟨session, -, own⟩ := orderEntry_run ran drawn
  exact (OrderEntry.ordered_run own).inOrder

theorem requests_run_signIn :
    ∃ (system : System (Symbols.chunked 128 (by decide)) OrderEntry.countingDownload)
      (log : List (Event × List Emitted)),
      (step OrderEntry.sampleDecoders ⟨255, fun _ => false⟩ {}).run (create _ _ ⟨["A1"], by decide⟩)
        signIn = some (system, log) ∧
      Throughout (OrderEntry.InOrder OrderEntry.sampleDecoders)
        (OrderEntry.history (log.flatMap (orderEntryTrace "A1"))) := by
  refine ⟨_, _, rfl, ?_⟩
  exact @requests_run (Symbols.chunked 128 (by decide)) OrderEntry.countingDownload
    OrderEntry.sampleDecoders ⟨255, fun _ => false⟩ {} ⟨["A1"], by decide⟩ _ signIn _ rfl "A1"
    (by decide)

end System

end RoqKraken.Gateway
