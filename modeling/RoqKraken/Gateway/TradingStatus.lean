import RoqKraken.Gateway.Controller

/-!
# The published trading status

For every pair item the instruments handler dispatches a `ReferenceData`, and,
unless the item is discarded, a `MarketStatus`.  An item is discarded for good by
the symbol filter, and as long as it is delisted.  This module follows both over
a run of the gateway: a symbol's last status is that of the last item that was
not delisted, and the last reference data say whether the last item was.
-/

namespace RoqKraken.Gateway

/-- What is published about a symbol. -/
inductive Published where
  /-- By a `ReferenceData`. -/
  | discard (discard : Bool)
  /-- By a `MarketStatus`. -/
  | status (tradingStatus : Roq.TradingStatus)
deriving DecidableEq

def Dispatch.published : Dispatch → Option (String × Published)
  | .referenceData event => some (event.symbol, .discard event.discard)
  | .marketStatus event => some (event.symbol, .status event.tradingStatus)
  | _ => none

/-- What dispatched events publish about which symbol. -/
def published (events : List Dispatch) : List (String × Published) :=
  events.filterMap Dispatch.published

/-- What a pair item leads to. -/
def publishedPair (server : Server) (item : Json.InstrumentDataPairsItem) :
    List (String × Published) :=
  if MarketData.discard server item then
    [(item.symbol, .discard true)]
  else
    [(item.symbol, .discard false), (item.symbol, .status item.status.map)]

namespace MarketData

variable {core : Symbols} {server : Server} {settings : Settings} {session : MarketData}
  {shared : Shared core} {event : Event} {result : Result core}

/-- The pair items an event delivers. -/
def Event.pairs : Event → List Json.InstrumentDataPairsItem
  | .message (.instrument instrument) => instrument.pairs
  | _ => []

theorem published_instrumentLoop (allSymbols : Finset String)
    (items : List Json.InstrumentDataPairsItem) :
    published (session.instrumentLoop server settings allSymbols items).2.1 =
      items.flatMap (publishedPair server) := by
  induction items generalizing allSymbols with
  | nil => rfl
  | cons item items ih =>
    unfold instrumentLoop
    rw [List.flatMap_cons, publishedPair]
    cases discarded : discard server item with
    | true =>
      rw [if_pos rfl, if_pos rfl, ← ih allSymbols]
      simp [published, Dispatch.published, referenceData, discarded]
    | false =>
      rw [if_neg Bool.false_ne_true, if_neg Bool.false_ne_true,
        ← ih (insert item.symbol allSymbols)]
      simp [published, Dispatch.published, referenceData, marketStatus, discarded]

/-- What a stream publishes on an event is what the pair items lead to. -/
theorem published_onEvent
    (handled : session.onEvent server settings shared event = some result) :
    published (dispatches result.outputs) = event.pairs.flatMap (publishedPair server) := by
  have silent : (∀ instrument, event ≠ .message (.instrument instrument)) →
      published (dispatches result.outputs) = [] := by
    intro other
    rw [published, List.filterMap_eq_nil_iff]
    intro dispatched member
    have source := onEvent_dispatch handled (mem_dispatches.mp member)
    cases dispatched with
    | referenceData | marketStatus =>
      obtain ⟨instrument, same⟩ := source
      exact absurd same (other instrument)
    | _ => rfl
  cases event with
  | message message =>
    cases message with
    | instrument instrument =>
      cases handled
      rw [dispatches_map_dispatch]
      exact published_instrumentLoop _ instrument.pairs
    | _ =>
      rw [silent (by simp)]
      rfl
  | _ =>
    rw [silent (by simp)]
    rfl

end MarketData

namespace Controller

variable {core : Symbols} {server : Server} {settings : Settings}
  {controller controller' : Controller core} {event : Event} {events : List Event}
  {out : List (Source × Output)} {log : List (Event × List (Source × Output))}

/-! ## Runs of the gateway -/

def Event.pairs : Event → List Json.InstrumentDataPairsItem
  | .marketData _ event => event.pairs
  | _ => []

/-- The pair items received over a run. -/
def pairs (events : List Event) : List Json.InstrumentDataPairsItem := events.flatMap Event.pairs

/-- What is published over a run, by any stream. -/
def publishedOver (log : List (Event × List (Source × Output))) : List (String × Published) :=
  log.flatMap fun entry => published (dispatches (entry.2.map Prod.snd))

theorem published_step (stepped : step server settings controller event = some (controller', out)) :
    published (dispatches (out.map Prod.snd)) = event.pairs.flatMap (publishedPair server) := by
  rcases step_dispatches stepped with ⟨index, received, session, result, rfl, handled, same⟩ |
    ⟨account, received, session, next, outputs, rfl, first, same⟩ | ⟨other, nothing⟩
  · rw [same]
    exact MarketData.published_onEvent handled
  · have nothing : published (dispatches outputs) = [] := by
      rw [published, List.filterMap_eq_nil_iff]
      intro dispatched member
      have source := DropCopy.step_dispatch first (mem_dispatches.mp member)
      cases dispatched with
      | referenceData | marketStatus => cases source
      | _ => rfl
    rw [same, nothing]
    rfl
  · have none : event.pairs = [] := by
      cases event with
      | marketData index received => exact absurd rfl (other index received)
      | _ => rfl
    rw [nothing, none]
    rfl

/-- Over a run, what is published is what the received items lead to, in order. -/
theorem publishedOver_run
    (ran : (step server settings).run controller events = some (controller', log)) :
    publishedOver log = (pairs events).flatMap (publishedPair server) := by
  induction events generalizing controller log with
  | nil =>
    obtain ⟨-, rfl⟩ := Step.run_nil.mp ran
    rfl
  | cons event events ih =>
    obtain ⟨next, out, rest, first, tail, rfl⟩ := Step.run_cons.mp ran
    have delivered : pairs (event :: events) = event.pairs ++ pairs events := rfl
    rw [publishedOver, List.flatMap_cons, published_step first, ← publishedOver, ih tail,
      delivered, List.flatMap_append]

/-! ## The last status -/

/-- The trading status in the last `MarketStatus` of a symbol. -/
def lastStatus (symbol : String) (entries : List (String × Published)) :
    Option Roq.TradingStatus :=
  (entries.filterMap fun
    | (about, .status status) => if about = symbol then some status else none
    | _ => none).getLast?

/-- The `discard` of the last `ReferenceData` of a symbol. -/
def lastDiscard (symbol : String) (entries : List (String × Published)) : Option Bool :=
  (entries.filterMap fun
    | (about, .discard discard) => if about = symbol then some discard else none
    | _ => none).getLast?

/-- The last pair item received for a symbol. -/
def lastPair (symbol : String) (items : List Json.InstrumentDataPairsItem) :
    Option Json.InstrumentDataPairsItem :=
  (items.filter fun item => item.symbol = symbol).getLast?

/-- The last pair item received for a symbol that was not delisted. -/
def lastListed (symbol : String) (items : List Json.InstrumentDataPairsItem) :
    Option Json.InstrumentDataPairsItem :=
  (items.filter fun item => item.symbol = symbol ∧ item.status ≠ .delisted).getLast?

/-- A symbol that the filter lets pass is discarded while it is delisted. -/
theorem discard_of_unfiltered {item : Json.InstrumentDataPairsItem}
    (unfiltered : server.discardSymbol item.symbol = false) :
    MarketData.discard server item = decide (item.status = .delisted) := by
  unfold MarketData.discard
  by_cases delisted : item.status = .delisted
  · simp [delisted]
  · simp [delisted, unfiltered]

theorem lastStatus_flatMap {symbol : String} (unfiltered : server.discardSymbol symbol = false)
    (items : List Json.InstrumentDataPairsItem) :
    lastStatus symbol (items.flatMap (publishedPair server)) =
      (lastListed symbol items).map fun item => item.status.map := by
  rw [lastStatus, lastListed, ← List.getLast?_map, List.filterMap_flatMap]
  refine congrArg List.getLast? ?_
  induction items with
  | nil => rfl
  | cons item items ih =>
    rw [List.flatMap_cons, ih, publishedPair]
    by_cases about : item.symbol = symbol
    · rw [discard_of_unfiltered (about ▸ unfiltered)]
      by_cases delisted : item.status = .delisted <;> simp [about, delisted]
    · split <;> simp [about]

theorem lastDiscard_flatMap {symbol : String} (unfiltered : server.discardSymbol symbol = false)
    (items : List Json.InstrumentDataPairsItem) :
    lastDiscard symbol (items.flatMap (publishedPair server)) =
      (lastPair symbol items).map fun item => decide (item.status = .delisted) := by
  rw [lastDiscard, lastPair, ← List.getLast?_map, List.filterMap_flatMap]
  refine congrArg List.getLast? ?_
  induction items with
  | nil => rfl
  | cons item items ih =>
    rw [List.flatMap_cons, ih, publishedPair]
    by_cases about : item.symbol = symbol
    · rw [discard_of_unfiltered (about ▸ unfiltered)]
      by_cases delisted : item.status = .delisted <;> simp [about, delisted]
    · split <;> simp [about]

/-- **Trading status of a symbol.**  Over a run, the last status dispatched for a
symbol is that of the last item received for it that was not delisted, and the
last reference data say whether the last item was delisted. -/
theorem lastStatus_run
    (ran : (step server settings).run controller events = some (controller', log))
    {symbol : String} (unfiltered : server.discardSymbol symbol = false) :
    lastStatus symbol (publishedOver log) =
        (lastListed symbol (pairs events)).map (fun item => item.status.map) ∧
      lastDiscard symbol (publishedOver log) =
        (lastPair symbol (pairs events)).map fun item => decide (item.status = .delisted) := by
  rw [publishedOver_run ran]
  exact ⟨lastStatus_flatMap unfiltered _, lastDiscard_flatMap unfiltered _⟩

/-- A pair that is online, and is then delisted. -/
def onlineThenDelisted : List Event :=
  [.marketData 0 (.message (.instrument
      ⟨[{ symbol := "BTC/USD", status := .online }, { symbol := "ETH/USD", status := .online }]⟩)),
    .marketData 0 (.message (.instrument ⟨[{ symbol := "BTC/USD", status := .delisted }]⟩))]

theorem lastStatus_run_onlineThenDelisted :
    ∃ (controller : Controller (Symbols.chunked 128 (by decide)))
      (log : List (Event × List (Source × Output))),
      (step ⟨255, fun _ => false⟩ {}).run (create _ ⟨["A1"], by decide⟩) onlineThenDelisted =
        some (controller, log) ∧
      lastStatus "BTC/USD" (publishedOver log) =
          (lastListed "BTC/USD" (pairs onlineThenDelisted)).map (fun item => item.status.map) ∧
        lastDiscard "BTC/USD" (publishedOver log) =
          (lastPair "BTC/USD" (pairs onlineThenDelisted)).map
            fun item => decide (item.status = .delisted) := by
  refine ⟨_, _, rfl, ?_⟩
  exact @lastStatus_run (Symbols.chunked 128 (by decide)) ⟨255, fun _ => false⟩ {}
    (create _ ⟨["A1"], by decide⟩) _ onlineThenDelisted _ rfl "BTC/USD" rfl

/-- The last status of the delisted pair is `open`, not the `close` that its
status maps to. -/
theorem delisted_pair_stays_open :
    ¬ ∀ (core : Symbols) (config : Config) (server : Server) (settings : Settings)
      (controller : Controller core) (events : List Event)
      (log : List (Event × List (Source × Output))) (symbol : String)
      (status : Roq.TradingStatus),
      (∀ event ∈ events, ∃ index instrument,
        event = .marketData index (.message (.instrument instrument))) →
      (step server settings).run (create core config) events = some (controller, log) →
      server.discardSymbol symbol = false →
      lastStatus symbol (publishedOver log) = some status →
        (lastPair symbol (pairs events)).map (fun item => item.status.map) = some status := by
  intro fresh
  have last := fresh (Symbols.chunked 128 (by decide)) ⟨["A1"], by decide⟩
    ⟨255, fun _ => false⟩ {} _ onlineThenDelisted _ "BTC/USD" .open
    (by simp [onlineThenDelisted]) rfl rfl (by decide)
  revert last
  decide

end Controller

end RoqKraken.Gateway
