import RoqKraken.Gateway.Session
import RoqKraken.Gateway.Symbols
import Mathlib.Data.Finset.Insert
import Mathlib.Tactic.Tauto

/-!
# `MarketData`: a public stream

The session object as `market_data.cpp` has it, one per slice of the symbol
list: its handlers for socket events, timers and decoded messages.  The streams
share the buffers and symbol tables of `Shared`.
-/

namespace RoqKraken.Gateway

/-- What the streams share. -/
structure Shared (core : Symbols) where
  bids : List MbpUpdate := []
  asks : List MbpUpdate := []
  trades : List Trade := []
  symbols : core.State
  allSymbols : Finset String := ∅

/-- Put symbols into `all_symbols` one by one, keeping those that were new. -/
def emplaceNew (allSymbols : Finset String) : List String → Finset String × List String
  | [] => (allSymbols, [])
  | symbol :: symbols =>
    if symbol ∈ allSymbols then
      emplaceNew allSymbols symbols
    else
      let (allSymbols, new) := emplaceNew (insert symbol allSymbols) symbols
      (allSymbols, symbol :: new)

/-- The new symbols are those that were missing, each once. -/
theorem emplaceNew_spec (allSymbols : Finset String) (symbols : List String) :
    (emplaceNew allSymbols symbols).2.Nodup ∧
      (∀ symbol ∈ (emplaceNew allSymbols symbols).2, symbol ∉ allSymbols) ∧
      ∀ symbol, symbol ∈ (emplaceNew allSymbols symbols).1 ↔
        symbol ∈ allSymbols ∨ symbol ∈ (emplaceNew allSymbols symbols).2 := by
  induction symbols generalizing allSymbols with
  | nil => simp [emplaceNew]
  | cons first symbols ih =>
    unfold emplaceNew
    split
    · exact ih allSymbols
    · next missing =>
      obtain ⟨nodup, fresh, known⟩ := ih (insert first allSymbols)
      refine ⟨List.nodup_cons.mpr ⟨fun member => ?_, nodup⟩, ?_, ?_⟩
      · exact fresh first member (Finset.mem_insert_self ..)
      · intro symbol member
        rcases List.mem_cons.mp member with rfl | member
        · exact missing
        · exact fun there => fresh symbol member (Finset.mem_insert_of_mem there)
      · intro symbol
        simp only [known, Finset.mem_insert, List.mem_cons]
        tauto

structure MarketData where
  streamId : UInt16
  /-- The slice the stream serves. -/
  index : Nat
  nextHeartbeat : Int := 0
  connectionStatus : ConnectionStatus := .undefined
deriving DecidableEq

namespace MarketData

variable {core : Symbols}

def ready (session : MarketData) : Bool := session.connectionStatus = .ready

/-! ## Subscriptions -/

/-- `subscribe_static()`. -/
def subscribeStatic : List Output := [.send (.subscribe "instrument")]

/-- `subscribe(channel, symbols)`. -/
def subscribeChannel (channel : String) (symbols : List String) : List Output :=
  if symbols.isEmpty then [] else [.send (.subscribeSymbols channel symbols)]

/-- `subscribe(symbols)`. -/
def subscribeSymbols (symbols : List String) : List Output :=
  subscribeChannel "ticker" symbols ++ subscribeChannel "trade" symbols ++
    subscribeChannel "book" symbols

/-- `subscribe(start_from)`. -/
def subscribe (session : MarketData) (symbols : core.State) (startFrom : Nat := 0) :
    List Output :=
  if session.ready then subscribeSymbols (core.getSlice symbols session.index startFrom) else []

/-! ## Socket events and timers -/

/-- `operator()(Trace<Timer>)`. -/
def onTimer (session : MarketData) (settings : Settings) (now : Int) :
    MarketData × List Output :=
  if session.ready then
    if session.nextHeartbeat < now then
      ({ session with nextHeartbeat := now + settings.publicPingFreq }, [.send (.ping now)])
    else (session, [])
  else (session, [])

/-- `operator()(Trace<ConnectionStatus>)`. -/
def onConnectionStatus (session : MarketData) (status : ConnectionStatus) :
    MarketData × List Output :=
  ({ session with connectionStatus := status },
    [.dispatch (.streamStatus { streamId := session.streamId, connectionStatus := status })])

/-- `operator()(Trace<web::socket::Disconnected>)`. -/
def onDisconnected (session : MarketData) : MarketData × List Output :=
  { session with nextHeartbeat := 0 }.onConnectionStatus .disconnected

/-- `operator()(Trace<web::socket::Ready>)`: the upgrade succeeded, a status
message is awaited. -/
def onReady (session : MarketData) : MarketData × List Output :=
  session.onConnectionStatus .downloading

/-- `operator()(Trace<web::socket::Latency>)`. -/
def onLatency (session : MarketData) (sample : Int) : List Output :=
  [.dispatch (.externalLatency { streamId := session.streamId, latency := sample })]

/-- `operator()(Trace<json::Status>)`.  The current status is not looked at. -/
def onStatus (session : MarketData) (symbols : core.State) : MarketData × List Output :=
  let (session, outputs) := session.onConnectionStatus .ready
  (session, outputs ++ (if session.index = 0 then subscribeStatic else []) ++
    session.subscribe symbols)

/-! ## Instruments -/

/-- The `discard` lambda. -/
def discard (server : Server) (item : Json.InstrumentDataPairsItem) : Bool :=
  if item.status = .delisted then true else server.discardSymbol item.symbol

def referenceData (session : MarketData) (server : Server) (settings : Settings)
    (item : Json.InstrumentDataPairsItem) : ReferenceData where
  streamId := session.streamId
  exchange := settings.exchange
  symbol := item.symbol
  baseCurrency := item.base
  quoteCurrency := item.quote
  tickSize := item.priceIncrement
  minTradeVol := item.qtyIncrement
  tradeVolStepSize := item.qtyIncrement
  discard := discard server item

def marketStatus (session : MarketData) (settings : Settings)
    (item : Json.InstrumentDataPairsItem) : MarketStatus where
  streamId := session.streamId
  exchange := settings.exchange
  symbol := item.symbol
  tradingStatus := item.status.map

/-- The loop over the pairs: the symbols known afterwards, what is dispatched,
and the new symbols. -/
def instrumentLoop (session : MarketData) (server : Server) (settings : Settings)
    (allSymbols : Finset String) :
    List Json.InstrumentDataPairsItem → Finset String × List Dispatch × List String
  | [] => (allSymbols, [], [])
  | item :: items =>
    let reference := Dispatch.referenceData (session.referenceData server settings item)
    if discard server item then
      let (allSymbols, events, new) := session.instrumentLoop server settings allSymbols items
      (allSymbols, reference :: events, new)
    else
      let first := if item.symbol ∈ allSymbols then [] else [item.symbol]
      let status := Dispatch.marketStatus (session.marketStatus settings item)
      let (allSymbols, events, new) :=
        session.instrumentLoop server settings (insert item.symbol allSymbols) items
      (allSymbols, reference :: status :: events, first ++ new)

/-- The loop keeps the books on symbols as `emplaceNew` does over the pairs that
are not discarded. -/
theorem instrumentLoop_symbols (session : MarketData) (server : Server) (settings : Settings)
    (allSymbols : Finset String) (items : List Json.InstrumentDataPairsItem) :
    emplaceNew allSymbols ((items.filter fun item => !discard server item).map
        Json.InstrumentDataPairsItem.symbol) =
      ((session.instrumentLoop server settings allSymbols items).1,
        (session.instrumentLoop server settings allSymbols items).2.2) := by
  induction items generalizing allSymbols with
  | nil => rfl
  | cons item items ih =>
    unfold instrumentLoop
    by_cases dropped : discard server item = true
    · simpa [dropped] using ih allSymbols
    · simp only [dropped, Bool.not_false, List.filter_cons_of_pos, List.map_cons,
        emplaceNew, Bool.false_eq_true, if_false]
      by_cases known : item.symbol ∈ allSymbols
      · simp [known, Finset.insert_eq_of_mem known, ih]
      · simp [known, ih]

/-- `operator()(Trace<json::Instrument>)`.  The new symbols, unless there are
none, leave in a `SymbolsUpdate`. -/
def onInstrument (session : MarketData) (server : Server) (settings : Settings)
    (shared : Shared core) (instrument : Json.Instrument) :
    Shared core × List Dispatch × List String :=
  let (allSymbols, events, new) :=
    session.instrumentLoop server settings shared.allSymbols instrument.pairs
  ({ shared with allSymbols }, events, new)

/-! ## Tickers -/

def topOfBook (session : MarketData) (settings : Settings) (type : Json.MessageType)
    (item : Json.TickerDataItem) : TopOfBook where
  streamId := session.streamId
  exchange := settings.exchange
  symbol := item.symbol
  bidPrice := item.bid
  bidQuantity := item.bidQty
  askPrice := item.ask
  askQuantity := item.askQty
  updateType := type.map
  exchangeTimeUtc := toNanoseconds item.timestamp

def statisticsUpdate (session : MarketData) (settings : Settings) (type : Json.MessageType)
    (item : Json.TickerDataItem) : StatisticsUpdate where
  streamId := session.streamId
  exchange := settings.exchange
  symbol := item.symbol
  statistics :=
    [(.tradeVolume, item.volume), (.lowestTradedPrice, item.low),
      (.highestTradedPrice, item.high)]
  updateType := type.map
  exchangeTimeUtc := toNanoseconds item.timestamp

/-- `operator()(Trace<json::Ticker>)`. -/
def onTicker (session : MarketData) (settings : Settings) (ticker : Json.Ticker) :
    List Dispatch :=
  ticker.data.flatMap fun item =>
    [.topOfBook (session.topOfBook settings ticker.type item),
      .statisticsUpdate (session.statisticsUpdate settings ticker.type item)]

/-! ## Trades -/

/-- The locals of the trade handler, with the shared buffer. -/
structure TradeLoop where
  previous : String := ""
  exchangeTimeUtc : Int := 0
  trades : List Trade := []

/-- The `dispatch` lambda. -/
def TradeLoop.dispatch (loop : TradeLoop) (session : MarketData) (settings : Settings) :
    TradeLoop × List Dispatch :=
  if loop.trades.isEmpty then
    (loop, [])
  else
    ({ loop with trades := [] },
      [.tradeSummary
        { streamId := session.streamId
          exchange := settings.exchange
          symbol := loop.previous
          trades := loop.trades
          exchangeTimeUtc := loop.exchangeTimeUtc }])

/-- The `emplace_back` lambda and what follows it in the loop. -/
def TradeLoop.emplaceBack (loop : TradeLoop) (item : Json.TradeDataItem) : TradeLoop where
  previous := item.symbol
  exchangeTimeUtc := max loop.exchangeTimeUtc (toNanoseconds item.timestamp)
  trades := loop.trades ++
    [{ side := item.side.map
       price := item.price
       quantity := item.qty
       tradeId := toString item.tradeId }]

def TradeLoop.run (session : MarketData) (settings : Settings) :
    TradeLoop → List Json.TradeDataItem → TradeLoop × List Dispatch
  | loop, [] => loop.dispatch session settings
  | loop, item :: items =>
    let (loop, events) :=
      if item.symbol ≠ loop.previous then loop.dispatch session settings else (loop, [])
    let (loop, later) := TradeLoop.run session settings (loop.emplaceBack item) items
    (loop, events ++ later)

/-- `operator()(Trace<json::Trade>)`. -/
def onTrade (session : MarketData) (settings : Settings) (shared : Shared core)
    (trade : Json.Trade) : Shared core × List Dispatch :=
  let (loop, events) := TradeLoop.run session settings {} trade.data
  ({ shared with trades := loop.trades }, events)

/-! ## Books -/

/-- The `emplace_back` lambda over one side: the updates, and the price level
reached. -/
def mbpUpdates (priceLevel : UInt32) :
    List Json.BookDataBidsAsksItem → List MbpUpdate × UInt32
  | [] => ([], priceLevel)
  | value :: values =>
    let priceLevel := priceLevel + 1
    let (updates, last) := mbpUpdates priceLevel values
    ({ price := value.price, quantity := value.qty, priceLevel } :: updates, last)

/-- The locals of the book handler, with the shared buffers. -/
structure BookLoop where
  bids : List MbpUpdate := []
  asks : List MbpUpdate := []
  priceLevel : UInt32 := 0

/-- One round of the loop over the data items. -/
def BookLoop.item (session : MarketData) (settings : Settings) (type : Json.MessageType)
    (loop : BookLoop) (item : Json.BookData) : BookLoop × List Dispatch :=
  let (bids, priceLevel) := mbpUpdates loop.priceLevel item.bids
  let (asks, priceLevel) := mbpUpdates priceLevel item.asks
  let bids := loop.bids ++ bids
  let asks := loop.asks ++ asks
  if !(bids.isEmpty && asks.isEmpty) then
    ({ priceLevel },
      [.marketByPriceUpdate
        { streamId := session.streamId
          exchange := settings.exchange
          symbol := item.symbol
          bids
          asks
          updateType := type.map
          exchangeTimeUtc := toNanoseconds item.timestamp }])
  else
    ({ bids, asks, priceLevel }, [])

def BookLoop.run (session : MarketData) (settings : Settings) (type : Json.MessageType) :
    BookLoop → List Json.BookData → BookLoop × List Dispatch
  | loop, [] => (loop, [])
  | loop, item :: items =>
    let (loop, events) := loop.item session settings type item
    let (loop, later) := BookLoop.run session settings type loop items
    (loop, events ++ later)

/-- `operator()(Trace<json::Book>)`. -/
def onBook (session : MarketData) (settings : Settings) (shared : Shared core)
    (book : Json.Book) : Shared core × List Dispatch :=
  let (loop, events) := BookLoop.run session settings book.type {} book.data
  ({ shared with bids := loop.bids, asks := loop.asks }, events)

/-! ## The session as a machine -/

/-- What one event leaves behind: the session, what is shared, the outputs, and
the new symbols for the controller. -/
structure Result (core : Symbols) where
  session : MarketData
  shared : Shared core
  outputs : List Output := []
  newSymbols : List String := []

/-- `Parser::Handler`; `none` is `log::fatal`. -/
def onMessage (session : MarketData) (server : Server) (settings : Settings)
    (shared : Shared core) : Json.Message → Option (Result core)
  | .status =>
    let (session, outputs) := session.onStatus shared.symbols
    some { session, shared, outputs }
  | .heartbeat => some { session, shared }
  | .error => some { session, shared }
  | .pong => some { session, shared }
  | .subscribe => some { session, shared }
  | .instrument instrument =>
    let (shared, events, newSymbols) := session.onInstrument server settings shared instrument
    some { session, shared, outputs := events.map .dispatch, newSymbols }
  | .ticker ticker =>
    some { session, shared, outputs := (session.onTicker settings ticker).map .dispatch }
  | .trade trade =>
    let (shared, events) := session.onTrade settings shared trade
    some { session, shared, outputs := events.map .dispatch }
  | .book book =>
    let (shared, events) := session.onBook settings shared book
    some { session, shared, outputs := events.map .dispatch }
  | .balances _ => none
  | .executions _ => none
  | .addOrder _ => none
  | .amendOrder _ => none
  | .cancelOrder _ => none
  | .cancelAll => none

/-- What reaches a stream over its connection. -/
inductive Event where
  | disconnected
  | ready
  | latency (sample : Int)
  | binary
  | message (message : Json.Message)
deriving DecidableEq

/-- One event of a stream. -/
def onEvent (session : MarketData) (server : Server) (settings : Settings)
    (shared : Shared core) : Event → Option (Result core)
  | .disconnected =>
    let (session, outputs) := session.onDisconnected
    some { session, shared, outputs }
  | .ready =>
    let (session, outputs) := session.onReady
    some { session, shared, outputs }
  | .latency sample => some { session, shared, outputs := session.onLatency sample }
  | .binary => none
  | .message message => session.onMessage server settings shared message

/-! ## What an event dispatches -/

/-- The events at which a stream dispatches something. -/
def Event.Dispatches (event : Event) : Dispatch → Prop
  | .streamStatus _ | .externalLatency _ => True
  | .referenceData _ | .marketStatus _ => ∃ instrument, event = .message (.instrument instrument)
  | .topOfBook _ | .statisticsUpdate _ => ∃ ticker, event = .message (.ticker ticker)
  | .tradeSummary _ => ∃ trade, event = .message (.trade trade)
  | .marketByPriceUpdate _ => ∃ book, event = .message (.book book)
  | _ => False

section Dispatches

variable {server : Server} {settings : Settings} {session : MarketData} {shared : Shared core}
  {event : Event} {result : Result core}

theorem kinds_of_mem_instrumentLoop {allSymbols : Finset String}
    {items : List Json.InstrumentDataPairsItem} {dispatched : Dispatch}
    (member : dispatched ∈ (session.instrumentLoop server settings allSymbols items).2.1) :
    (∃ data, dispatched = .referenceData data) ∨ ∃ status, dispatched = .marketStatus status := by
  induction items generalizing allSymbols with
  | nil => cases member
  | cons item items ih =>
    unfold instrumentLoop at member
    split at member
    · rcases List.mem_cons.mp member with rfl | member
      · exact .inl ⟨_, rfl⟩
      · exact ih member
    · rcases List.mem_cons.mp member with rfl | member
      · exact .inl ⟨_, rfl⟩
      · rcases List.mem_cons.mp member with rfl | member
        · exact .inr ⟨_, rfl⟩
        · exact ih member

theorem kinds_of_mem_trades {loop : TradeLoop} {items : List Json.TradeDataItem}
    {dispatched : Dispatch} (member : dispatched ∈ (TradeLoop.run session settings loop items).2) :
    ∃ summary, dispatched = .tradeSummary summary := by
  have once : ∀ {loop : TradeLoop}, dispatched ∈ (loop.dispatch session settings).2 →
      ∃ summary, dispatched = .tradeSummary summary := by
    intro loop member
    unfold TradeLoop.dispatch at member
    split at member
    · cases member
    · exact ⟨_, List.mem_singleton.mp member⟩
  induction items generalizing loop with
  | nil => exact once member
  | cons item items ih =>
    simp only [TradeLoop.run, List.mem_append] at member
    rcases member with now | later
    · split at now
      · exact once now
      · cases now
    · exact ih later

theorem kinds_of_mem_books {type : Json.MessageType} {loop : BookLoop} {items : List Json.BookData}
    {dispatched : Dispatch}
    (member : dispatched ∈ (BookLoop.run session settings type loop items).2) :
    ∃ update, dispatched = .marketByPriceUpdate update := by
  induction items generalizing loop with
  | nil => cases member
  | cons item items ih =>
    simp only [BookLoop.run, List.mem_append] at member
    rcases member with now | later
    · unfold BookLoop.item at now
      simp only at now
      split at now
      · exact ⟨_, List.mem_singleton.mp now⟩
      · cases now
    · exact ih later

/-- An event dispatches what the stream has for it. -/
theorem onEvent_dispatch
    (handled : session.onEvent server settings shared event = some result)
    {dispatched : Dispatch} (member : .dispatch dispatched ∈ result.outputs) :
    event.Dispatches dispatched := by
  have there : ∀ {events : List Dispatch}, .dispatch dispatched ∈ events.map Output.dispatch →
      dispatched ∈ events := by
    intro events mapped
    obtain ⟨event, found, same⟩ := List.mem_map.mp mapped
    cases same
    exact found
  cases event with
  | disconnected | ready =>
    cases handled
    cases Output.dispatch.inj (List.mem_singleton.mp member)
    trivial
  | latency sample =>
    cases handled
    cases Output.dispatch.inj (List.mem_singleton.mp member)
    trivial
  | binary => cases handled
  | message message =>
    cases message with
    | status =>
      cases handled
      simp only [List.mem_append] at member
      rcases member with (status | static) | subscribed
      · cases Output.dispatch.inj (List.mem_singleton.mp status)
        trivial
      · split at static <;> simp [subscribeStatic] at static
      · simp [subscribe, subscribeSymbols, subscribeChannel] at subscribed
    | instrument instrument =>
      cases handled
      rcases kinds_of_mem_instrumentLoop (there member) with ⟨_, rfl⟩ | ⟨_, rfl⟩ <;>
        exact ⟨instrument, rfl⟩
    | ticker ticker =>
      cases handled
      obtain ⟨item, -, listed⟩ := List.mem_flatMap.mp (there member)
      simp only [List.mem_cons, List.not_mem_nil, or_false] at listed
      rcases listed with rfl | rfl <;> exact ⟨ticker, rfl⟩
    | trade trade =>
      cases handled
      obtain ⟨_, rfl⟩ := kinds_of_mem_trades (there member)
      exact ⟨trade, rfl⟩
    | book book =>
      cases handled
      obtain ⟨_, rfl⟩ := kinds_of_mem_books (there member)
      exact ⟨book, rfl⟩
    | heartbeat | error | pong | subscribe =>
      cases handled
      cases member
    | _ => cases handled

end Dispatches

end MarketData

end RoqKraken.Gateway
