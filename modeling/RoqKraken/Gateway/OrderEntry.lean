import RoqKraken.Fallible
import RoqKraken.Machine
import RoqKraken.Gateway.Dispatch

/-!
# `OrderEntry`: the REST session of an account

The session object as `order_entry.cpp` has it: a download in stages, one
request and one handler for its response at every stage.  Its handlers call
others that may raise, the dispatcher and the REST client, so they are actions.

`core::Download2` and the generated decoders are not part of the repository.
The download is a parameter with the laws the source relies on, `Download2`; the
decoders are the fields of `Decoders`.  Assertions are compiled out.
-/

namespace RoqKraken.Json

/-! ## Decoded responses -/

/-- As far as it is read. -/
structure TokenAckResult where
  token : String
deriving DecidableEq

structure TokenAck where
  error : List String
  result : TokenAckResult
deriving DecidableEq

/-- `BalanceAckResultItem`: `KEY` and `VALUE`. -/
structure BalanceAckResultItem where
  key : String
  value : String
deriving DecidableEq

structure BalanceAck where
  error : List String
  result : List BalanceAckResultItem
deriving DecidableEq

/-- As far as it is read. -/
structure TradeBalanceAck where
  error : List String
deriving DecidableEq

/-- As far as it is read. -/
structure OpenPositionsAck where
  error : List String
deriving DecidableEq

/-- As far as it is read. -/
structure OpenOrdersAck where
  error : List String
deriving DecidableEq

end RoqKraken.Json

namespace RoqKraken.Gateway

namespace OrderEntry

/-! ## Stages -/

/-- `OrderEntry::State`. -/
inductive State where
  | undefined | token | balance | tradeBalance | openPositions | openOrders | done
deriving DecidableEq, Repr

/-- The next value of the enumeration. -/
def State.next : State → State
  | .undefined => .token
  | .token => .balance
  | .balance => .tradeBalance
  | .tradeBalance => .openPositions
  | .openPositions => .openOrders
  | .openOrders => .done
  | .done => .done

/-- The stages that wait for a response. -/
def stages : List State := [.token, .balance, .tradeBalance, .openPositions, .openOrders]

/-! ## What the session relies on -/

/-- `core::Download2`.  A call may run the callback of one stage, the second
component of its result; `settle` is what becomes of the download once the
callback has returned a count, or has raised. -/
structure Download2 where
  Data : Type
  initial : Data
  /-- The stage it is at. -/
  stage : Data → State
  downloading : Data → Bool
  sequence : Data → UInt32
  skip : Data → UInt32 → State → Bool
  begin : Data → Data × Option State
  bump : Data → Data × Option State
  retry : Data → State → Data × Option State
  check : Data → State → Data × Option State
  reset : Data → Data
  settle : Data → Option Int → Data
  stage_initial : stage initial = .undefined
  /-- A download begins with the first stage. -/
  begin_spec : ∀ data, stage (begin data).1 = .token ∧ (begin data).2 = some .token
  bump_spec : ∀ data, stage (bump data).1 = stage data ∧
    ∀ state ∈ (bump data).2, state = stage data
  /-- A retry requests the current stage again. -/
  retry_spec : ∀ data state, stage (retry data state).1 = stage data ∧
    ∀ called ∈ (retry data state).2, called = stage data
  retry_current : ∀ data, (retry data (stage data)).2 = some (stage data)
  /-- Only a check of the current stage advances, to the next stage. -/
  check_current : ∀ data, stage data ∈ stages →
    stage (check data (stage data)).1 = (stage data).next ∧
      (check data (stage data)).2 = some (stage data).next
  check_other : ∀ data state, stage data ≠ state →
    stage (check data state).1 = stage data ∧ (check data state).2 = none
  reset_spec : ∀ data, stage (reset data) = .undefined
  settle_spec : ∀ data result,
    stage (settle data result) = stage data ∨ stage (settle data result) = .undefined

/-- What `process_response` catches. -/
inductive Exception where
  /-- `server::oms::Exception`. -/
  | oms
  /-- `NetworkError`. -/
  | network
  /-- Any other `std::exception`. -/
  | std
deriving DecidableEq, Repr

/-- The generated decoders, which raise on a text they do not accept, and
`utils::charconv::from_string_relaxed`. -/
structure Decoders where
  tokenAck : String → Except Exception Json.TokenAck
  balanceAck : String → Except Exception Json.BalanceAck
  tradeBalanceAck : String → Except Exception Json.TradeBalanceAck
  openPositionsAck : String → Except Exception Json.OpenPositionsAck
  openOrdersAck : String → Except Exception Json.OpenOrdersAck
  fromStringRelaxed : String → Except Exception Float

/-- `web::http::Category`, as far as it is told apart. -/
inductive Category where
  | success | clientError | serverError | other
deriving DecidableEq, Repr

/-- `web::rest::Response`: its result, which may raise, is a category and a
body. -/
abbrev RestResponse := Except Exception (Category × String)

/-- One thing the session does: the calls that leave it, and those that move the
download. -/
inductive Effect where
  /-- A call of the dispatcher. -/
  | dispatch (event : Dispatch)
  /-- `handler_(TokenUpdate)`: the controller learns the token. -/
  | tokenUpdate (account token : String)
  /-- A request, its response carries the sequence number back. -/
  | request (path name : String) (sequence : UInt32)
  | begin
  | bump
  | reset
  | retry (stage : State)
  | check (stage : State)
deriving DecidableEq

end OrderEntry

structure OrderEntry (core : OrderEntry.Download2) where
  streamId : UInt16
  /-- `account_.name`. -/
  account : String
  connectionStatus : ConnectionStatus := .undefined
  download : core.Data := core.initial

namespace OrderEntry

/-- The session while it handles an event, with what it did so far. -/
structure Turn (core : Download2) where
  session : OrderEntry core
  effects : List Effect := []

abbrev Act (core : Download2) := Fallible Exception (Turn core)

variable {core : Download2}

/-! ## Actions -/

def Turn.note (turn : Turn core) (effect : Effect) : Turn core :=
  { turn with effects := turn.effects ++ [effect] }

def Turn.setDownload (turn : Turn core) (data : core.Data) : Turn core :=
  { turn with session := { turn.session with download := data } }

def note (effect : Effect) : Act core PUnit := modify fun turn => turn.note effect

/-- A call that leaves the session.  `raises` says which of the calls of a turn
raise, counting what the session did before. -/
def perform (raises : Nat → Option Exception) (effect : Effect) : Act core PUnit := do
  let turn ← get
  note effect
  match raises turn.effects.length with
  | none => pure ()
  | some exception => throw exception

@[simp] theorem after_perform (raises : Nat → Option Exception) (effect : Effect)
    (turn : Turn core) : (perform raises effect).after turn = turn.note effect := by
  unfold perform note
  rw [Fallible.after_get_bind, Fallible.after_modify_bind]
  split <;> rfl

/-- The result of a decoder. -/
def decoded {α : Type} : Except Exception α → Act core α
  | .ok value => pure value
  | .error exception => throw exception

@[simp] theorem after_decoded_ok_bind {α β : Type} (value : α) (next : α → Act core β)
    (turn : Turn core) : (decoded (.ok value) >>= next).after turn = (next value).after turn := rfl

section Handlers

variable (decoders : Decoders) (raises : Nat → Option Exception)

/-- `operator()(Trace<ConnectionStatus>)`. -/
def onConnectionStatus (status : ConnectionStatus) (reason : String := "") : Act core PUnit := do
  let turn ← get
  modify fun turn =>
    { turn with session := { turn.session with connectionStatus := status } }
  perform raises (.dispatch (.streamStatus
    { streamId := turn.session.streamId
      account := turn.session.account
      connectionStatus := status
      reason }))

/-! ## Requests -/

/-- What the five requests share; the signed body is made elsewhere. -/
def request (path name : String) : Act core PUnit := do
  let turn ← get
  perform raises (.request path name (core.sequence turn.session.download))

def getToken : Act core PUnit := request raises "/0/private/GetWebSocketsToken" "token"

def getBalance : Act core PUnit := request raises "/0/private/Balance" "balance"

def getTradeBalance : Act core PUnit := request raises "/0/private/TradeBalance" "trade_balance"

def getOpenPositions : Act core PUnit :=
  request raises "/0/private/OpenPositions" "open-positions"

def getOpenOrders : Act core PUnit := request raises "/0/private/OpenOrders" "open-orders"

/-- `download(state)`, the callback of the download. -/
def onDownload : State → Act core Int
  | .undefined => pure 0
  | .token => do
    getToken raises
    return 1
  | .balance => do
    onConnectionStatus raises .downloading "balance"
    getBalance raises
    return 1
  | .tradeBalance => do
    onConnectionStatus raises .downloading "trade-balance"
    getTradeBalance raises
    return 1
  | .openPositions => do
    onConnectionStatus raises .downloading "open-positions"
    getOpenPositions raises
    return 1
  | .openOrders => do
    onConnectionStatus raises .downloading "open-orders"
    getOpenOrders raises
    return 1
  | .done => do
    onConnectionStatus raises .ready
    return 0

/-! ## Calls on the download -/

def settle (result : Option Int) : Act core PUnit :=
  modify fun turn => turn.setDownload (core.settle turn.session.download result)

/-- The callback runs while the call on the download is not finished. -/
def callback (state : State) : Act core PUnit :=
  tryCatch (onDownload raises state >>= fun count => settle (some count)) fun exception => do
    settle none
    throw exception

/-- A call on the download that leads to `moved`. -/
def move (moved : core.Data × Option State) : Act core PUnit := do
  modify fun turn => turn.setDownload moved.1
  match moved.2 with
  | none => pure ()
  | some state => callback raises state

/-- `download_.begin`. -/
def begin : Act core PUnit := do
  note .begin
  let turn ← get
  move raises (core.begin turn.session.download)

/-- `download_.bump`. -/
def bump : Act core PUnit := do
  note .bump
  let turn ← get
  move raises (core.bump turn.session.download)

/-- `download_.reset`. -/
def reset : Act core PUnit := do
  note .reset
  modify fun turn => turn.setDownload (core.reset turn.session.download)

/-- `download_.retry`. -/
def retry (stage : State) : Act core PUnit := do
  note (.retry stage)
  let turn ← get
  move raises (core.retry turn.session.download stage)

/-- `download_.check`. -/
def check (stage : State) : Act core PUnit := do
  note (.check stage)
  let turn ← get
  move raises (core.check turn.session.download stage)

@[simp] theorem after_retry (stage : State) (turn : Turn core) :
    (retry raises stage).after turn =
      (move raises (core.retry turn.session.download stage)).after (turn.note (.retry stage)) :=
  rfl

@[simp] theorem after_bump (turn : Turn core) :
    (bump raises).after turn =
      (move raises (core.bump turn.session.download)).after (turn.note .bump) := rfl

@[simp] theorem after_check (stage : State) (turn : Turn core) :
    (check raises stage).after turn =
      (move raises (core.check turn.session.download stage)).after (turn.note (.check stage)) :=
  rfl

@[simp] theorem after_begin (turn : Turn core) :
    (begin raises).after turn =
      (move raises (core.begin turn.session.download)).after (turn.note .begin) := rfl

@[simp] theorem after_reset (turn : Turn core) :
    reset.after turn = (turn.note .reset).setDownload (core.reset turn.session.download) := rfl

/-! ## Responses -/

/-- `process_response`.  `expect` raises on every category but success. -/
def processResponse (response : RestResponse) (errorHandler : Act core PUnit)
    (successHandler : String → Act core PUnit) : Act core PUnit :=
  tryCatch
    (do
      let (category, body) ← decoded response
      match category with
      | .success => successHandler body
      | .clientError => errorHandler
      | .serverError => errorHandler
      | .other => throw .std)
    fun
      | .oms => errorHandler
      | .network => errorHandler
      | .std => errorHandler

/-- What the five handlers of responses share: `accept` is what a handler does
with the body of a response that is not stale. -/
def ack (stage : State) (accept : String → Act core PUnit) (response : RestResponse)
    (sequence : UInt32) : Act core PUnit :=
  processResponse response (retry raises stage) fun body => do
    let turn ← get
    if core.skip turn.session.download sequence stage then
      pure ()
    else
      accept body

/-- `operator()(Trace<TokenAck>)`. -/
def onTokenAck (tokenAck : Json.TokenAck) : Act core PUnit := do
  let turn ← get
  perform raises (.tokenUpdate turn.session.account tokenAck.result.token)

/-- The only handler that looks at `error`. -/
def getTokenAck : RestResponse → UInt32 → Act core PUnit :=
  ack raises .token fun body => do
    let tokenAck ← decoded (decoders.tokenAck body)
    if tokenAck.error.isEmpty then
      onTokenAck raises tokenAck
      check raises .token
    else
      retry raises .token

/-- `operator()(Trace<BalanceAck>)`. -/
def onBalanceAck (balanceAck : Json.BalanceAck) : Act core PUnit :=
  balanceAck.result.forM fun item => do
    let balance ← decoded (decoders.fromStringRelaxed item.value)
    let turn ← get
    perform raises (.dispatch (.fundsUpdate
      { streamId := turn.session.streamId
        account := turn.session.account
        currency := item.key
        balance
        updateType := .snapshot }))

def getBalanceAck : RestResponse → UInt32 → Act core PUnit :=
  ack raises .balance fun body => do
    let balanceAck ← decoded (decoders.balanceAck body)
    onBalanceAck decoders raises balanceAck
    check raises .balance

/-- The body is not looked at. -/
def getTradeBalanceAck : RestResponse → UInt32 → Act core PUnit :=
  ack raises .tradeBalance fun _ => check raises .tradeBalance

/-- The decoded response only reaches the log. -/
def getOpenPositionsAck : RestResponse → UInt32 → Act core PUnit :=
  ack raises .openPositions fun body => do
    let _ ← decoded (decoders.openPositionsAck body)
    check raises .openPositions

/-- The decoded response only reaches the log. -/
def getOpenOrdersAck : RestResponse → UInt32 → Act core PUnit :=
  ack raises .openOrders fun body => do
    let _ ← decoded (decoders.openOrdersAck body)
    check raises .openOrders

/-- The handler of a response, by the request it answers. -/
def onAck : State → RestResponse → UInt32 → Act core PUnit
  | .undefined => fun _ _ => pure ()
  | .token => getTokenAck decoders raises
  | .balance => getBalanceAck decoders raises
  | .tradeBalance => getTradeBalanceAck raises
  | .openPositions => getOpenPositionsAck decoders raises
  | .openOrders => getOpenOrdersAck decoders raises
  | .done => fun _ _ => pure ()

/-! ## Events of the connection -/

/-- `operator()(Trace<web::rest::Connected>)`. -/
def onConnected : Act core PUnit := do
  let turn ← get
  if core.downloading turn.session.download then
    bump raises
  else
    begin raises

/-- `operator()(Trace<web::rest::Disconnected>)`. -/
def onDisconnected : Act core PUnit := do
  onConnectionStatus raises .disconnected
  let turn ← get
  if core.downloading turn.session.download then
    pure ()
  else
    reset

/-- `operator()(Trace<web::rest::Latency>)`. -/
def onLatency (sample : Int) : Act core PUnit := do
  let turn ← get
  perform raises (.dispatch (.externalLatency
    { streamId := turn.session.streamId
      account := turn.session.account
      latency := sample }))

end Handlers

/-! ## The session as a machine -/

/-- What reaches the session.  Start, stop and the timer go on to the connection
only, and order requests raise. -/
inductive Input where
  | connected
  | disconnected
  | latency (sample : Int)
  /-- A response, with the sequence number of its request. -/
  | ack (stage : State) (response : RestResponse) (sequence : UInt32)
deriving DecidableEq

/-- An input, with the calls that raise while it is handled. -/
structure Event where
  input : Input
  raises : Nat → Option Exception := fun _ => none

def onInput (decoders : Decoders) (event : Event) : Act core PUnit :=
  match event.input with
  | .connected => onConnected event.raises
  | .disconnected => onDisconnected event.raises
  | .latency sample => onLatency event.raises sample
  | .ack stage response sequence => onAck decoders event.raises stage response sequence

/-- The constructor. -/
def create (core : Download2) (streamId : UInt16) (account : String) : OrderEntry core :=
  { streamId, account }

/-- One event of the session.  An exception that escapes is the caller's, the
session stays as it is then. -/
def step (decoders : Decoders) : Step (OrderEntry core) Event (List Effect) :=
  fun session event =>
    let turn := (onInput decoders event).after { session }
    some (turn.session, turn.effects)

end OrderEntry

end RoqKraken.Gateway
