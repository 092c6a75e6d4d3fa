import RoqKraken.Protocol.Encoder
import RoqKraken.Gateway.Dispatch

/-!
# What sessions read and send

The settings and the parts of the server that a session looks at, and its
outputs.  A `Frame` is one `send_text` on the connection of a session, with what
the session put into it; `Frame.text` is the text on the wire.
-/

namespace RoqKraken.Gateway

/-- The settings the modelled code reads, with the default values of the flags. -/
structure Settings where
  exchange : String := "kraken"
  wsApi : Bool := true
  publicSubscribeBookDepth : UInt16 := 10
  /-- In nanoseconds. -/
  publicPingFreq : Int := 5000000000
deriving DecidableEq

/-- What the code asks of the server around it. -/
structure Server where
  /-- `SOURCE_NONE`: the user id that stands for no user. -/
  sourceNone : UInt8
  /-- `Dispatcher::discard_symbol`: the configured symbol filter. -/
  discardSymbol : String → Bool

inductive Frame where
  /-- Heartbeat of a market-data stream. -/
  | ping (reqId : Int)
  /-- `MarketData::subscribe(channel)`. -/
  | subscribe (channel : String)
  /-- `MarketData::subscribe(channel, symbols)`. -/
  | subscribeSymbols (channel : String) (symbols : List String)
  /-- `DropCopy::subscribe(channel)`. -/
  | subscribeToken (channel token : String)
  | addOrder (createOrder : CreateOrder) (order : Order) (refData : RefData)
      (requestId token : String)
  | amendOrder (modifyOrder : ModifyOrder) (order : Order) (refData : RefData) (token : String)
  | cancelOrder (order : Order) (token : String)
  | cancelAll (token : String)
deriving DecidableEq

namespace Frame

/-- The text handed to `send_text`. -/
def text (format : Format) (settings : Settings) : Frame → String
  | ping reqId =>
    r"{" ++ r#""method":"ping","# ++ r#""req_id":"# ++ toString reqId ++ r"}"
  | subscribe channel =>
    r"{" ++ r#""method":"subscribe","# ++ r#""params":{"# ++
      r#""channel":""# ++ channel ++ r#"""# ++ r"}" ++ r"}"
  | subscribeSymbols channel symbols =>
    r"{" ++ r#""method":"subscribe","# ++ r#""params":{"# ++
      r#""channel":""# ++ channel ++ r#"","# ++
      r#""symbol":[""# ++ String.intercalate r#"",""# symbols ++ r#""]"# ++
      (if channel = "ticker" then r#","event_trigger":"bbo""# else "") ++
      (if channel = "book" then
        (if settings.publicSubscribeBookDepth ≠ 0 then
          r#","depth":"# ++ toString settings.publicSubscribeBookDepth.toNat
        else "") ++ r#","snapshot":true"#
      else "") ++ r"}" ++ r"}"
  | subscribeToken channel token =>
    r"{" ++ r#""method":"subscribe","# ++ r#""params":{"# ++
      r#""channel":""# ++ channel ++ r#"","# ++ r#""token":""# ++ token ++ r#"""# ++
      (if channel = "executions" then r#","snap_orders":true"# ++ r#","snap_trades":true"# else "") ++
      r"}" ++ r"}"
  | addOrder createOrder order refData requestId token =>
    Encoder.addOrderJson format createOrder order refData requestId token
  | amendOrder modifyOrder order refData token =>
    Encoder.amendOrderJson format modifyOrder order refData token
  | cancelOrder order token => Encoder.cancelOrderJson order token
  | cancelAll token => Encoder.cancelAllJson token

/-- The token a frame of the private session carries. -/
def token? : Frame → Option String
  | ping _ => none
  | subscribe _ => none
  | subscribeSymbols _ _ => none
  | subscribeToken _ token => some token
  | addOrder _ _ _ _ token => some token
  | amendOrder _ _ _ token => some token
  | cancelOrder _ token => some token
  | cancelAll token => some token

/-- The channel and symbol pairs a frame of the public session requests. -/
def requests : Frame → List (String × String)
  | subscribeSymbols channel symbols => symbols.map fun symbol => (channel, symbol)
  | _ => []

/-- The channel a frame requests for the session as a whole: `instrument` on the
public side, `executions` and `balances` on the private one. -/
def channel? : Frame → Option String
  | subscribe channel => some channel
  | subscribeToken channel _ => some channel
  | _ => none

end Frame

/-- One thing a session does to the outside. -/
inductive Output where
  | send (frame : Frame)
  | dispatch (event : Dispatch)
deriving DecidableEq

/-- The frames among the outputs, in order. -/
def frames (outputs : List Output) : List Frame :=
  outputs.filterMap fun
    | .send frame => some frame
    | .dispatch _ => none

/-- The dispatched events among the outputs, in order. -/
def dispatches (outputs : List Output) : List Dispatch :=
  outputs.filterMap fun
    | .send _ => none
    | .dispatch event => some event

theorem mem_frames {frame : Frame} {outputs : List Output} :
    frame ∈ frames outputs ↔ .send frame ∈ outputs := by
  simp only [frames, List.mem_filterMap]
  constructor
  · rintro ⟨output, member, isFrame⟩
    cases output with
    | send sent =>
      cases isFrame
      exact member
    | dispatch event => cases isFrame
  · intro member
    exact ⟨_, member, rfl⟩

theorem mem_dispatches {event : Dispatch} {outputs : List Output} :
    event ∈ dispatches outputs ↔ .dispatch event ∈ outputs := by
  simp only [dispatches, List.mem_filterMap]
  constructor
  · rintro ⟨output, member, dispatched⟩
    cases output with
    | send sent => cases dispatched
    | dispatch event =>
      cases dispatched
      exact member
  · intro member
    exact ⟨_, member, rfl⟩

@[simp] theorem dispatches_append (left right : List Output) :
    dispatches (left ++ right) = dispatches left ++ dispatches right := List.filterMap_append

@[simp] theorem dispatches_map_dispatch (events : List Dispatch) :
    dispatches (events.map .dispatch) = events := by
  induction events with
  | nil => rfl
  | cons event events ih => exact congrArg (event :: ·) ih

@[simp] theorem frames_nil : frames [] = [] := rfl

@[simp] theorem frames_send_cons (frame : Frame) (outputs : List Output) :
    frames (.send frame :: outputs) = frame :: frames outputs := rfl

@[simp] theorem frames_dispatch_cons (event : Dispatch) (outputs : List Output) :
    frames (.dispatch event :: outputs) = frames outputs := rfl

@[simp] theorem frames_append (left right : List Output) :
    frames (left ++ right) = frames left ++ frames right := List.filterMap_append

@[simp] theorem frames_map_dispatch (events : List Dispatch) :
    frames (events.map .dispatch) = [] := by
  induction events with
  | nil => rfl
  | cons event events ih => simpa using ih

@[simp] theorem frames_map_send (sent : List Frame) : frames (sent.map .send) = sent := by
  induction sent with
  | nil => rfl
  | cons frame sent ih => simpa using ih

end RoqKraken.Gateway
