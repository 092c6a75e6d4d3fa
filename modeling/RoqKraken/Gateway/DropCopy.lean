import RoqKraken.Gateway.Session
import RoqKraken.Machine

/-!
# `DropCopy`: the private session of an account

The session object as `drop_copy.cpp` has it: its handlers for socket events,
for decoded messages and for order requests.  `ready_` and `next_heartbeat_` are
reset on a disconnect and read nowhere, so they are not part of the state.
-/

namespace RoqKraken.Gateway

/-- The methods of orders the exchange acknowledges. -/
inductive OrderMethod where
  | addOrder | amendOrder | cancelOrder
deriving DecidableEq, Repr

namespace OrderMethod

def requestType : OrderMethod → RequestType
  | addOrder => .createOrder
  | amendOrder => .modifyOrder
  | cancelOrder => .cancelOrder

/-- The message of an acknowledgement. -/
def message : OrderMethod → Json.OrderAck → Json.Message
  | addOrder => .addOrder
  | amendOrder => .amendOrder
  | cancelOrder => .cancelOrder

end OrderMethod

structure DropCopy where
  streamId : UInt16
  /-- `account_.name`. -/
  account : String
  /-- `token_`, a constant member. -/
  token : String
  connectionStatus : ConnectionStatus := .undefined
deriving DecidableEq

namespace DropCopy

/-! ## Socket events -/

/-- `operator()(Trace<ConnectionStatus>)`. -/
def onConnectionStatus (session : DropCopy) (status : ConnectionStatus) :
    DropCopy × List Output :=
  ({ session with connectionStatus := status },
    [.dispatch (.streamStatus
      { streamId := session.streamId, account := session.account, connectionStatus := status })])

/-- `operator()(Trace<web::socket::Disconnected>)`. -/
def onDisconnected (session : DropCopy) : DropCopy × List Output :=
  session.onConnectionStatus .disconnected

/-- `operator()(Trace<web::socket::Ready>)`: the upgrade succeeded, a status
message is awaited. -/
def onReady (session : DropCopy) : DropCopy × List Output :=
  session.onConnectionStatus .downloading

/-- `operator()(Trace<web::socket::Latency>)`. -/
def onLatency (session : DropCopy) (sample : Int) : List Output :=
  [.dispatch (.externalLatency
    { streamId := session.streamId, account := session.account, latency := sample })]

/-- `subscribe()`. -/
def subscribe (session : DropCopy) : List Output :=
  [.send (.subscribeToken "executions" session.token),
    .send (.subscribeToken "balances" session.token)]

/-- `operator()(Trace<json::Status>)`.  The current status is not looked at. -/
def onStatus (session : DropCopy) : DropCopy × List Output :=
  let (session, outputs) := session.onConnectionStatus .ready
  (session, outputs ++ session.subscribe)

/-! ## Balances -/

/-- The `FundsUpdate` of one item. -/
def fundsUpdate (session : DropCopy) (balances : Json.Balances) (item : Json.BalancesDataItem) :
    FundsUpdate where
  streamId := session.streamId
  account := session.account
  currency := item.asset
  balance := item.amount
  updateType := .incremental
  exchangeTimeUtc := toNanoseconds item.timestamp
  exchangeSequence := balances.sequence

/-- `operator()(Trace<json::Balances>)`. -/
def onBalances (session : DropCopy) (balances : Json.Balances) : List Dispatch :=
  balances.data.map fun item => .fundsUpdate (session.fundsUpdate balances item)

/-- The balances handler dispatches funds only. -/
theorem kind_of_mem_onBalances {session : DropCopy} {balances : Json.Balances}
    {event : Dispatch} (member : event ∈ session.onBalances balances) :
    ∃ update, event = .fundsUpdate update := by
  obtain ⟨item, -, rfl⟩ := List.mem_map.mp member
  exact ⟨_, rfl⟩

/-! ## Executions -/

/-- The `discard` lambda: which execution reports a message of this type skips. -/
def discard (type : Json.MessageType) (execType : Json.ExecType) : Bool :=
  match execType with
  | .pendingNew | .new => false
  | .undefinedInternal | .unknownInternal
  | .trade | .filled | .canceled | .icebergRefill | .expired | .amended | .restated
  | .status => type = .snapshot

/-- Only snapshots are skipped. -/
theorem discard_update (execType : Json.ExecType) : discard .update execType = false := by
  cases execType <;> rfl

/-- The `traded_quantity` lambda. -/
def tradedQuantity (item : Json.ExecutionsDataItem) : Float :=
  if item.cumQty.isNaN then 0.0 else item.cumQty

/-- The `OrderUpdate` of one item. -/
def orderUpdate (session : DropCopy) (settings : Settings) (updateType : Roq.UpdateType)
    (item : Json.ExecutionsDataItem) : OrderUpdate where
  account := session.account
  exchange := settings.exchange
  symbol := item.symbol
  side := item.side.map
  orderType := item.orderType.map
  timeInForce := item.timeInForce.map
  createTimeUtc := toNanoseconds item.timestamp
  updateTimeUtc := toNanoseconds item.timestamp
  externalOrderId := item.orderId
  clientOrderId := item.clOrdId
  orderStatus := item.orderStatus.map
  quantity := item.orderQty
  price := item.limitPrice
  remainingQuantity := item.orderQty - tradedQuantity item
  tradedQuantity := tradedQuantity item
  averageTradedPrice := item.avgPrice
  lastTradedQuantity := item.lastQty
  lastTradedPrice := item.lastPrice
  lastLiquidity := item.liquidityInd.map
  updateType := updateType

/-- The `TradeUpdate` of one item that the order manager matched to `order`. -/
def tradeUpdate (session : DropCopy) (settings : Settings) (updateType : Roq.UpdateType)
    (item : Json.ExecutionsDataItem) (order : Order) : TradeUpdate where
  streamId := session.streamId
  account := session.account
  orderId := order.orderId
  exchange := settings.exchange
  symbol := item.symbol
  side := item.side.map
  createTimeUtc := toNanoseconds item.timestamp
  updateTimeUtc := toNanoseconds item.timestamp
  externalOrderId := item.orderId
  clientOrderId := item.clOrdId
  fills :=
    [{ exchangeTimeUtc := toNanoseconds item.timestamp
       externalTradeId := toString item.tradeId
       quantity := item.lastQty
       price := item.lastPrice
       liquidity := item.liquidityInd.map }]
  updateType := updateType
  strategyId := order.strategyId

/-- One round of the loop.  `matched` is the order the dispatcher calls back
with while it handles this item's `OrderUpdate`, if any; without a callback the
user id stays at `SOURCE_NONE`. -/
def executionsItem (session : DropCopy) (server : Server) (settings : Settings)
    (type : Json.MessageType) (item : Json.ExecutionsDataItem) (matched : Option Order) :
    List Dispatch :=
  if discard type item.execType then
    []
  else
    let userId := (matched.map Order.userId).getD server.sourceNone
    .orderUpdate (session.orderUpdate settings type.map item) ::
      match matched with
      | some order =>
        if item.execType = .trade ∧ userId ≠ server.sourceNone then
          [.tradeUpdate (session.tradeUpdate settings type.map item order) userId]
        else []
      | none => []

/-- `operator()(Trace<json::Executions>)`.  `oms i` is the order the order
manager matches to the `i`-th item of the message. -/
def onExecutions (session : DropCopy) (server : Server) (settings : Settings)
    (executions : Json.Executions) (oms : Nat → Option Order) : List Dispatch :=
  executions.data.zipIdx.flatMap fun entry =>
    session.executionsItem server settings executions.type entry.1 (oms entry.2)

/-- The executions handler dispatches order and trade updates only. -/
theorem kinds_of_mem_onExecutions {session : DropCopy} {server : Server} {settings : Settings}
    {executions : Json.Executions} {oms : Nat → Option Order} {event : Dispatch}
    (member : event ∈ session.onExecutions server settings executions oms) :
    (∃ update, event = .orderUpdate update) ∨
      ∃ update userId, event = .tradeUpdate update userId := by
  obtain ⟨entry, -, member⟩ := List.mem_flatMap.mp member
  unfold executionsItem at member
  split at member
  · cases member
  · rcases List.mem_cons.mp member with rfl | member
    · exact .inl ⟨_, rfl⟩
    · split at member
      · split at member
        · exact .inr ⟨_, _, List.mem_singleton.mp member⟩
        · cases member
      · cases member

/-! ## Order acknowledgements -/

/-- `guess_error`, up to collisions of the hash it compares. -/
def guessError (error : String) : Error :=
  if error = "EOrder:Unknown order" then .tooLateToModifyOrCancel else .undefined

/-- The three acknowledgement handlers: nothing on success, one rejection
addressed by the request id on failure. -/
def onOrderAck (requestType : RequestType) (version : Nat) (ack : Json.OrderAck) :
    List Dispatch :=
  if ack.error.isEmpty then
    []
  else
    let (userId, orderId) := Encoder.unpackReqId ack.reqId
    [.response
      { requestType
        origin := .exchange
        requestStatus := .rejected
        error := guessError ack.error
        text := ack.error
        version } userId orderId]

def onAddOrder : Json.OrderAck → List Dispatch := onOrderAck .createOrder 1

def onAmendOrder : Json.OrderAck → List Dispatch := onOrderAck .modifyOrder 0

def onCancelOrder : Json.OrderAck → List Dispatch := onOrderAck .cancelOrder 0

/-- The handler of the acknowledgements of a method. -/
def onAck : OrderMethod → Json.OrderAck → List Dispatch
  | .addOrder => onAddOrder
  | .amendOrder => onAmendOrder
  | .cancelOrder => onCancelOrder

/-- The three handlers differ in the request type and the version. -/
theorem onAck_eq (method : OrderMethod) (ack : Json.OrderAck) :
    ∃ version, onAck method ack = onOrderAck method.requestType version ack := by
  cases method <;> exact ⟨_, rfl⟩

/-- What a failed acknowledgement leads to: one rejection, addressed by its request
id. -/
theorem onAck_failed (method : OrderMethod) {ack : Json.OrderAck} (failed : ack.error ≠ "") :
    ∃ response : Response, onAck method ack =
        [.response response (Encoder.unpackReqId ack.reqId).1 (Encoder.unpackReqId ack.reqId).2] ∧
      response.requestStatus = .rejected ∧ response.requestType = method.requestType := by
  have nonempty : ack.error.isEmpty = false := by simpa using failed
  obtain ⟨version, handler⟩ := onAck_eq method ack
  rw [handler, onOrderAck, nonempty]
  exact ⟨_, rfl, rfl, rfl⟩

theorem onAck_succeeded (method : OrderMethod) {ack : Json.OrderAck}
    (succeeded : ack.error = "") : onAck method ack = [] := by
  obtain ⟨version, handler⟩ := onAck_eq method ack
  rw [handler, onOrderAck, succeeded]
  rfl

/-- An acknowledgement dispatches nothing but a rejection. -/
theorem kind_of_mem_onAck {method : OrderMethod} {ack : Json.OrderAck} {dispatched : Dispatch}
    (member : dispatched ∈ onAck method ack) :
    ack.error ≠ "" ∧ ∃ response : Response, response.requestType = method.requestType ∧
      dispatched = .response response (Encoder.unpackReqId ack.reqId).1
        (Encoder.unpackReqId ack.reqId).2 := by
  by_cases succeeded : ack.error = ""
  · rw [onAck_succeeded method succeeded] at member
    cases member
  · obtain ⟨response, only, -, type⟩ := onAck_failed method succeeded
    rw [only] at member
    exact ⟨succeeded, response, type, List.mem_singleton.mp member⟩

/-! ## Decoded messages -/

/-- `Parser::Handler`; `none` is `log::fatal`. -/
def onMessage (session : DropCopy) (server : Server) (settings : Settings)
    (oms : Nat → Option Order) : Json.Message → Option (DropCopy × List Output)
  | .status => some session.onStatus
  | .heartbeat => some (session, [])
  | .error => some (session, [])
  | .pong => some (session, [])
  | .subscribe => some (session, [])
  | .instrument _ => none
  | .ticker _ => none
  | .trade _ => none
  | .book _ => none
  | .balances balances => some (session, (session.onBalances balances).map .dispatch)
  | .executions executions =>
    some (session, (session.onExecutions server settings executions oms).map .dispatch)
  | .addOrder ack => some (session, (onAddOrder ack).map .dispatch)
  | .amendOrder ack => some (session, (onAmendOrder ack).map .dispatch)
  | .cancelOrder ack => some (session, (onCancelOrder ack).map .dispatch)
  | .cancelAll => some (session, [])

/-! ## Order requests -/

/-- The order requests a client can make. -/
inductive Request where
  | createOrder (event : CreateOrder) (order : Order) (refData : RefData) (requestId : String)
  | modifyOrder (event : ModifyOrder) (order : Order) (refData : RefData)
  | cancelOrder (event : CancelOrder) (order : Order)
  | cancelAllOrders (event : CancelAllOrders)
deriving DecidableEq

/-- The account a request names. -/
def Request.account : Request → String
  | createOrder event _ _ _ => event.account
  | modifyOrder event _ _ => event.account
  | cancelOrder event _ => event.account
  | cancelAllOrders event => event.account

/-- The frame a request is sent as. -/
def Request.frame (token : String) : Request → Frame
  | createOrder event order refData requestId => .addOrder event order refData requestId token
  | modifyOrder event order refData => .amendOrder event order refData token
  | cancelOrder _ order => .cancelOrder order token
  | cancelAllOrders _ => .cancelAll token

/-- The four order handlers: encode with the session's token, send, return the
stream id. -/
def onRequest (session : DropCopy) (request : Request) : UInt16 × List Output :=
  (session.streamId, [.send (request.frame session.token)])

/-! ## The session as a machine -/

/-- What reaches a session.  The events left out (`Connected`, `Close`, and
`Start`, `Stop` and `Timer`, which only reach the connection) change nothing and
put nothing out. -/
inductive Event where
  | disconnected
  | ready
  | latency (sample : Int)
  | binary
  /-- A decoded message, with the order manager's answers to its items. -/
  | message (message : Json.Message) (oms : Nat → Option Order)
  | request (request : Request)

def Event.isDisconnected : Event → Bool
  | .disconnected => true
  | _ => false

def Event.isStatus : Event → Bool
  | .message .status _ => true
  | _ => false

/-- The frames a session with a token sends at an event. -/
def Event.sends (token : String) : Event → List Frame
  | .message .status _ =>
    [.subscribeToken "executions" token, .subscribeToken "balances" token]
  | .request asked => [asked.frame token]
  | _ => []

/-- The events at which a session dispatches something. -/
def Event.Dispatches (event : Event) : Dispatch → Prop
  | .streamStatus _ | .externalLatency _ => True
  | .fundsUpdate _ => ∃ balances oms, event = .message (.balances balances) oms
  | .orderUpdate _ | .tradeUpdate _ _ =>
    ∃ executions oms, event = .message (.executions executions) oms
  | .response response userId orderId =>
    ∃ method ack oms, event = .message (OrderMethod.message method ack) oms ∧ ack.error ≠ "" ∧
      response.requestType = method.requestType ∧
      (userId, orderId) = Encoder.unpackReqId ack.reqId
  | _ => False

/-- One event of a session. -/
def step (server : Server) (settings : Settings) : Step DropCopy Event (List Output) :=
  fun session event =>
    match event with
    | .disconnected => some session.onDisconnected
    | .ready => some session.onReady
    | .latency sample => some (session, session.onLatency sample)
    | .binary => none
    | .message message oms => session.onMessage server settings oms message
    | .request request => some (session, (session.onRequest request).2)

section Step

variable {server : Server} {settings : Settings} {session session' : DropCopy} {event : Event}
  {out : List Output}

/-- No event changes who the session is, its token included. -/
theorem step_constant (stepped : step server settings session event = some (session', out)) :
    session'.streamId = session.streamId ∧ session'.account = session.account ∧
      session'.token = session.token := by
  cases event with
  | message message oms =>
    cases message <;> cases stepped <;> exact ⟨rfl, rfl, rfl⟩
  | _ => cases stepped <;> exact ⟨rfl, rfl, rfl⟩

/-- An event dispatches what the session has for it. -/
theorem step_dispatch (stepped : step server settings session event = some (session', out))
    {dispatched : Dispatch} (member : .dispatch dispatched ∈ out) :
    event.Dispatches dispatched := by
  have there : ∀ {events : List Dispatch}, .dispatch dispatched ∈ events.map Output.dispatch →
      dispatched ∈ events := by
    intro events mapped
    obtain ⟨event, found, same⟩ := List.mem_map.mp mapped
    cases same
    exact found
  have fromAck : ∀ (method : OrderMethod) (ack : Json.OrderAck) (oms : Nat → Option Order),
      dispatched ∈ onAck method ack →
        (Event.message (method.message ack) oms).Dispatches dispatched := by
    intro method ack oms rejected
    obtain ⟨failed, response, type, rfl⟩ := kind_of_mem_onAck rejected
    exact ⟨method, ack, oms, rfl, failed, type, rfl⟩
  cases event with
  | message message oms =>
    cases message with
    | status =>
      cases stepped
      rcases List.mem_cons.mp member with same | member
      · cases same
        trivial
      · simp [subscribe] at member
    | balances balances =>
      cases stepped
      obtain ⟨update, rfl⟩ := kind_of_mem_onBalances (there member)
      exact ⟨balances, oms, rfl⟩
    | executions executions =>
      cases stepped
      rcases kinds_of_mem_onExecutions (there member) with ⟨update, rfl⟩ | ⟨update, userId, rfl⟩
      · exact ⟨executions, oms, rfl⟩
      · exact ⟨executions, oms, rfl⟩
    | addOrder ack =>
      cases stepped
      exact fromAck .addOrder ack oms (there member)
    | amendOrder ack =>
      cases stepped
      exact fromAck .amendOrder ack oms (there member)
    | cancelOrder ack =>
      cases stepped
      exact fromAck .cancelOrder ack oms (there member)
    | heartbeat | error | pong | subscribe | cancelAll =>
      cases stepped
      cases member
    | instrument _ | ticker _ | trade _ | book _ => cases stepped
  | disconnected | ready =>
    cases stepped
    cases List.mem_singleton.mp member
    trivial
  | latency sample =>
    cases stepped
    cases List.mem_singleton.mp member
    trivial
  | binary => cases stepped
  | request request =>
    cases stepped
    simp [onRequest] at member

@[simp] theorem Request.frame_token (token : String) (request : Request) :
    (request.frame token).token? = some token := by
  cases request <;> rfl

@[simp] theorem Request.frame_channel? (token : String) (request : Request) :
    (request.frame token).channel? = none := by
  cases request <;> rfl

/-- An event sends what the session has for it. -/
theorem step_frames (stepped : step server settings session event = some (session', out)) :
    frames out = event.sends session.token := by
  cases event with
  | message message oms =>
    cases message with
    | instrument _ | ticker _ | trade _ | book _ => cases stepped
    | status =>
      cases stepped
      rfl
    | _ =>
      cases stepped
      simp [Event.sends]
  | binary => cases stepped
  | _ =>
    cases stepped
    rfl

/-- Every frame a session sends carries its token. -/
theorem step_frames_token
    (stepped : step server settings session event = some (session', out)) {frame : Frame}
    (sent : frame ∈ frames out) : frame.token? = some session.token := by
  rw [step_frames stepped] at sent
  unfold Event.sends at sent
  split at sent
  · simp only [List.mem_cons, List.not_mem_nil, or_false] at sent
    rcases sent with rfl | rfl <;> rfl
  · cases List.mem_singleton.mp sent
    exact Request.frame_token ..
  · cases sent

/-- A session asks for its two channels at each status message and at no other
event. -/
theorem step_channels (stepped : step server settings session event = some (session', out)) :
    (frames out).filterMap Frame.channel? =
      if event.isStatus then ["executions", "balances"] else [] := by
  rw [step_frames stepped]
  cases event with
  | message message oms => cases message <;> rfl
  | request request => simp [Event.sends, Event.isStatus]
  | _ => rfl

end Step

/-- Everything a logged run put out. -/
def outputs (log : List (Event × List Output)) : List Output := log.flatMap Prod.snd

@[simp] theorem outputs_cons (entry : Event × List Output) (log : List (Event × List Output)) :
    outputs (entry :: log) = entry.2 ++ outputs log := rfl

end DropCopy

end RoqKraken.Gateway
