import RoqKraken.Feed
import RoqKraken.Gateway.Controller
import Mathlib.Data.List.Induction

/-!
# Public streams as feeds

Every public stream is a `Feed` of the symbols of its slice: a status message
brings it up, new symbols are announced to it, a disconnect drops it.
`serves_step` shows that each event of the gateway keeps the symbol tables and
acts on the feed of each stream in this way.
-/

namespace RoqKraken.Gateway

/-! ## Frames and requests -/

/-- The frames one stream sends. -/
def sentBy (source : Source) (out : List (Source × Output)) : List Frame :=
  frames ((out.filter fun entry => entry.1 = source).map Prod.snd)

/-- The symbols frames request on a channel. -/
def requestedOn (channel : String) (sent : List Frame) : List String :=
  ((sent.flatMap Frame.requests).filter fun request => request.1 = channel).map Prod.snd

section Frames

variable {source other : Source} {channel : String}

@[simp] theorem sentBy_nil : sentBy source [] = [] := rfl

@[simp] theorem sentBy_append (left right : List (Source × Output)) :
    sentBy source (left ++ right) = sentBy source left ++ sentBy source right := by
  simp [sentBy]

@[simp] theorem sentBy_tag_self (outputs : List Output) :
    sentBy source (tag source outputs) = frames outputs := by
  simp [sentBy, tag, List.filter_map, Function.comp_def]

theorem sentBy_tag_of_ne (outputs : List Output) (ne : other ≠ source) :
    sentBy source (tag other outputs) = [] := by
  simp [sentBy, tag, List.filter_map, Function.comp_def, ne]

@[simp] theorem requestedOn_nil : requestedOn channel [] = [] := rfl

@[simp] theorem requestedOn_append (left right : List Frame) :
    requestedOn channel (left ++ right) =
      requestedOn channel left ++ requestedOn channel right := by
  simp [requestedOn]

theorem mem_requestedOn {symbol : String} {sent : List Frame} :
    symbol ∈ requestedOn channel sent ↔ (channel, symbol) ∈ sent.flatMap Frame.requests := by
  simp [requestedOn]

/-- Pairs repeat only where the requests on one channel repeat. -/
theorem nodup_requests {sent : List Frame}
    (each : ∀ channel, (requestedOn channel sent).Nodup) : (sent.flatMap Frame.requests).Nodup := by
  unfold requestedOn at each
  generalize sent.flatMap Frame.requests = requests at each
  induction requests with
  | nil => exact List.nodup_nil
  | cons request requests ih =>
    refine List.nodup_cons.mpr ⟨fun again => ?_, ih fun channel => ?_⟩
    · have own := each request.1
      simp only [List.filter_cons_of_pos, decide_true, List.map_cons, List.nodup_cons] at own
      exact own.1 (List.mem_map.mpr ⟨request, by simpa using again, rfl⟩)
    · exact (each channel).sublist
        (((List.sublist_cons_self request requests).filter _).map Prod.snd)

end Frames

namespace MarketData

variable {core : Symbols} {server : Server} {settings : Settings} {session : MarketData}
  {shared : Shared core}

/-- The channels a stream requests symbols on. -/
def channels : List String := ["ticker", "trade", "book"]

@[simp] theorem requestedOn_subscribeSymbols (channel : String) (symbols : List String) :
    requestedOn channel (frames (subscribeSymbols symbols)) =
      if channel ∈ channels then symbols else [] := by
  have one : ∀ name, requestedOn channel (frames (subscribeChannel name symbols)) =
      if name = channel then symbols else [] := by
    intro name
    cases symbols with
    | nil => simp [subscribeChannel]
    | cons symbol symbols =>
      simp only [subscribeChannel, List.isEmpty_cons, Bool.false_eq_true, if_false,
        frames_send_cons, frames_nil, requestedOn, List.flatMap_cons, List.flatMap_nil,
        List.append_nil, Frame.requests]
      split <;> simp_all [List.filter_map, Function.comp_def]
  simp only [subscribeSymbols, frames_append, requestedOn_append, one, channels, List.mem_cons,
    List.not_mem_nil, or_false]
  by_cases ticker : channel = "ticker"
  · simp [ticker]
  · by_cases trade : channel = "trade"
    · simp [trade]
    · by_cases book : channel = "book"
      · simp [book]
      · simp [ticker, trade, book, eq_comm]

theorem count_static_subscribeSymbols (symbols : List String) (channel : String) :
    (frames (subscribeSymbols symbols)).count (.subscribe channel) = 0 := by
  simp only [subscribeSymbols, subscribeChannel]
  split <;> simp

/-- What an event of its own does to the feed of a stream. -/
def Event.action : Event → Feed.Action String
  | .disconnected => .drop
  | .ready => .suspend
  | .message .status => .arrive
  | _ => .announce []

/-- The connection status an event leaves. -/
def Event.statusAfter (status : ConnectionStatus) : Event → ConnectionStatus
  | .disconnected => .disconnected
  | .ready => .downloading
  | .message .status => .ready
  | _ => status

/-- The frames an event makes a stream send. -/
def Event.sends (session : MarketData) (symbols : core.State) : Event → List Output
  | .message .status =>
    (if session.index = 0 then subscribeStatic else []) ++
      subscribeSymbols (core.getSlice symbols session.index 0)
  | _ => []

def Event.isDisconnected : Event → Bool
  | .disconnected => true
  | _ => false

def Event.isStatus : Event → Bool
  | .message .status => true
  | _ => false

/-- Only three kinds of event act on the feed. -/
theorem Event.cases_action (event : Event) :
    event = .disconnected ∨ event = .ready ∨ event = .message .status ∨
      event.action = .announce [] ∧ event.isDisconnected = false ∧ event.isStatus = false ∧
        (∀ status, event.statusAfter status = status) ∧
        ∀ (session : MarketData) (symbols : core.State), event.sends session symbols = [] := by
  cases event with
  | disconnected => exact .inl rfl
  | ready => exact .inr (.inl rfl)
  | message message =>
    cases message with
    | status => exact .inr (.inr (.inl rfl))
    | _ => exact .inr (.inr (.inr ⟨rfl, rfl, rfl, fun _ => rfl, fun _ _ => rfl⟩))
  | _ => exact .inr (.inr (.inr ⟨rfl, rfl, rfl, fun _ => rfl, fun _ _ => rfl⟩))

/-- All an event of a stream does to what subscriptions depend on. -/
theorem onEvent_spec {event : Event} {result : Result core}
    (handled : session.onEvent server settings shared event = some result) :
    result.session.index = session.index ∧
      result.session.connectionStatus = event.statusAfter session.connectionStatus ∧
      frames result.outputs = frames (event.sends session shared.symbols) ∧
      result.shared.symbols = shared.symbols ∧
      ∃ symbols, emplaceNew shared.allSymbols symbols =
        (result.shared.allSymbols, result.newSymbols) := by
  cases event with
  | disconnected | ready =>
    cases handled
    exact ⟨rfl, rfl, rfl, rfl, [], rfl⟩
  | latency sample =>
    cases handled
    exact ⟨rfl, rfl, rfl, rfl, [], rfl⟩
  | binary => cases handled
  | message message =>
    cases message with
    | status =>
      cases handled
      refine ⟨rfl, rfl, ?_, rfl, [], rfl⟩
      simp [Event.sends, subscribe, ready]
    | instrument instrument =>
      cases handled
      exact ⟨rfl, rfl, by simp [Event.sends], rfl, _,
        instrumentLoop_symbols session server settings shared.allSymbols instrument.pairs⟩
    | ticker ticker =>
      cases handled
      exact ⟨rfl, rfl, by simp [Event.sends], rfl, [], rfl⟩
    | trade trade =>
      cases handled
      exact ⟨rfl, rfl, by simp [Event.sends], rfl, [], rfl⟩
    | book book =>
      cases handled
      exact ⟨rfl, rfl, by simp [Event.sends], rfl, [], rfl⟩
    | heartbeat | error | pong | subscribe =>
      cases handled
      exact ⟨rfl, rfl, rfl, rfl, [], rfl⟩
    | _ => cases handled

/-- A timer makes a stream send a heartbeat at most. -/
theorem onTimer_spec (session : MarketData) (settings : Settings) (now : Int) :
    (session.onTimer settings now).1.index = session.index ∧
      (session.onTimer settings now).1.ready = session.ready ∧
      ∀ frame ∈ frames (session.onTimer settings now).2, frame = .ping now := by
  unfold onTimer
  split
  · split
    · exact ⟨rfl, rfl, by simp⟩
    · exact ⟨rfl, rfl, by simp⟩
  · exact ⟨rfl, rfl, by simp⟩

end MarketData

namespace Controller

variable {core : Symbols} {server : Server} {settings : Settings} {config : Config}
  {controller controller' : Controller core} {event : Event} {events : List Event}
  {out : List (Source × Output)} {log : List (Event × List (Source × Output))}
  {index statuses : Nat} {sent : List Frame} {feed : Feed String}

/-! ## The symbol tables -/

/-- The tables of the gateway while `pending` is on its way from `all_symbols`
to the symbol list: nothing occurs twice, every symbol has a stream for its
slice, and a stream serves the slice of its position. -/
structure Tables (controller : Controller core) (pending : List String) : Prop where
  nodup : (core.toList controller.shared.symbols ++ pending).Nodup
  known : ∀ symbol, symbol ∈ controller.shared.allSymbols ↔
    symbol ∈ core.toList controller.shared.symbols ++ pending
  sliced : ∀ position < (core.toList controller.shared.symbols).length,
    core.slice position < controller.marketData.length
  index : ∀ (index : Nat) (session : MarketData),
    controller.marketData[index]? = some session → session.index = index

theorem tables_create : (create core config).Tables [] := by
  refine ⟨?_, ?_, ?_, ?_⟩
  · simp [create, core.toList_empty]
  · simp [create, core.toList_empty]
  · simp [create, core.toList_empty]
  · intro index session found
    cases index with
    | zero =>
      cases found
      rfl
    | succ index => cases found

/-- Symbols that enter `all_symbols` are pending. -/
theorem Tables.emplaceNew (tables : controller.Tables []) (symbols : List String) :
    ({ controller with shared := { controller.shared with
        allSymbols := (emplaceNew controller.shared.allSymbols symbols).1 } } :
      Controller core).Tables (emplaceNew controller.shared.allSymbols symbols).2 := by
  obtain ⟨nodup, fresh, known⟩ := emplaceNew_spec controller.shared.allSymbols symbols
  have listed : ∀ symbol, symbol ∈ controller.shared.allSymbols ↔
      symbol ∈ core.toList controller.shared.symbols := by
    simpa using tables.known
  refine ⟨?_, ?_, tables.sliced, tables.index⟩
  · refine List.nodup_append'.mpr ⟨by simpa using tables.nodup, nodup, ?_⟩
    exact fun symbol old new => fresh symbol new ((listed symbol).mpr old)
  · intro symbol
    rw [known, List.mem_append, listed]

/-- The streams `ensure_symbol_slices` adds come after the others, serve the
slice of their position, and have no connection yet. -/
theorem ensureSymbolSlices_spec (controller : Controller core) (size : Nat) :
    (controller.ensureSymbolSlices size).shared = controller.shared ∧
      ∃ added, (controller.ensureSymbolSlices size).marketData = controller.marketData ++ added ∧
        size ≤ (controller.marketData ++ added).length ∧
        ∀ position session, added[position]? = some session →
          session.index = controller.marketData.length + position ∧ session.ready = false := by
  have loop := sliceLoop_ensureSymbolSlices controller size
  have keeps : ∀ state : Controller core,
      (state.shared = controller.shared ∧
        ∃ added, state.marketData = controller.marketData ++ added ∧
          ∀ position session, added[position]? = some session →
            session.index = controller.marketData.length + position ∧ session.ready = false) →
      state.addMarketData.shared = controller.shared ∧
        ∃ added, state.addMarketData.marketData = controller.marketData ++ added ∧
          ∀ position session, added[position]? = some session →
            session.index = controller.marketData.length + position ∧ session.ready = false := by
    rintro state ⟨shared, added, streams, each⟩
    refine ⟨shared, added ++ [{
      streamId := state.streamId + 1
      index := state.marketData.length }], ?_, ?_⟩
    · rw [addMarketData, streams, List.append_assoc]
    · intro position session found
      rw [List.getElem?_append] at found
      split at found
      · exact each position session found
      · next beyond =>
        rw [List.getElem?_singleton] at found
        split at found
        · cases found
          refine ⟨?_, rfl⟩
          simp only [streams, List.length_append]
          omega
        · cases found
  obtain ⟨shared, added, streams, each⟩ :=
    loop.invariant keeps ⟨rfl, [], (List.append_nil _).symm, by simp⟩
  exact ⟨shared, added, streams, streams ▸ loop.enough, each⟩

/-! ## Streams as feeds -/

/-- Stream `index`, with the frames it sent and the status messages it received
since its last disconnect, is the feed of its slice. -/
structure Serves (controller : Controller core) (index : Nat) (sent : List Frame)
    (statuses : Nat) (feed : Feed String) : Prop where
  live : feed.live = (controller.marketData[index]?).any MarketData.ready
  topics : feed.topics = core.getSlice controller.shared.symbols index 0
  requested : ∀ channel,
    requestedOn channel sent = if channel ∈ MarketData.channels then feed.requested else []
  static : sent.count (.subscribe "instrument") = if index = 0 then feed.arrivals else 0
  arrivals : feed.arrivals = statuses

theorem serves_create : (create core config).Serves index [] 0 {} where
  live := by
    cases index with
    | zero => rfl
    | succ index => rfl
  topics := by simp [create, core.getSlice_eq, core.toList_empty, slicePart]
  requested := by simp
  static := by simp
  arrivals := rfl

/-- A loop over the streams makes each of them send its own frames. -/
theorem sentBy_flatMap {streams : List MarketData}
    (position : ∀ (index : Nat) (session : MarketData),
      streams[index]? = some session → session.index = index)
    (outputs : MarketData → List Output) :
    sentBy (.marketData index) (streams.flatMap fun session =>
        tag (.marketData session.index) (outputs session)) =
      (streams[index]?).elim [] fun session => frames (outputs session) := by
  induction streams using List.reverseRecOn with
  | nil => rfl
  | append_singleton streams last ih =>
    have before : ∀ (index : Nat) (session : MarketData),
        streams[index]? = some session → session.index = index := by
      intro index session found
      refine position index session ?_
      rw [List.getElem?_append_left (List.getElem?_eq_some_iff.mp found).1, found]
    have own : last.index = streams.length := position _ _ (by simp)
    rw [List.flatMap_append, sentBy_append, ih before, List.flatMap_singleton, own]
    rcases lt_trichotomy index streams.length with left | rfl | right
    · rw [sentBy_tag_of_ne _ (by simpa using left.ne'), List.getElem?_append_left left,
        List.append_nil]
    · simp
    · rw [sentBy_tag_of_ne _ (by simpa using right.ne), List.getElem?_eq_none right.le,
        List.getElem?_eq_none (by rw [List.length_append]; exact right)]
      rfl

/-- Whether a stream is up does not change with the streams that are added. -/
theorem any_ready_append {streams added : List MarketData}
    (down : ∀ (position : Nat) (session : MarketData),
      added[position]? = some session → session.ready = false) :
    ((streams ++ added)[index]?).any MarketData.ready = (streams[index]?).any MarketData.ready := by
  rw [List.getElem?_append]
  split
  · rfl
  · next beyond =>
    rw [List.getElem?_eq_none (Nat.le_of_not_lt beyond)]
    cases found : added[index - streams.length]? with
    | none => rfl
    | some session => exact down _ session found

variable {new : List String}

theorem shared_onSymbolsUpdate (new : List String) :
    (controller.onSymbolsUpdate new).1.shared = { controller.shared with
      symbols := (core.append controller.shared.symbols new).1 } :=
  (ensureSymbolSlices_spec _ _).1

/-- Pending symbols reach the symbol list, and every slice has its stream. -/
theorem tables_onSymbolsUpdate (tables : controller.Tables new) :
    (controller.onSymbolsUpdate new).1.Tables [] := by
  obtain ⟨shared, added, streams, enough, each⟩ := ensureSymbolSlices_spec
    { controller with shared := { controller.shared with
        symbols := (core.append controller.shared.symbols new).1 } }
    (core.append controller.shared.symbols new).2.1
  have listed : core.toList (controller.onSymbolsUpdate new).1.shared.symbols =
      core.toList controller.shared.symbols ++ new := by
    rw [shared_onSymbolsUpdate, core.toList_append]
  refine ⟨?_, ?_, ?_, ?_⟩
  · simpa [listed] using tables.nodup
  · intro symbol
    rw [listed, List.append_nil, ← tables.known, shared_onSymbolsUpdate]
  · intro position bound
    rw [shared_onSymbolsUpdate] at bound
    refine lt_of_lt_of_le (core.slice_lt _ _ position bound) ?_
    exact streams ▸ enough
  · intro index session found
    have found : (controller.marketData ++ added)[index]? = some session := streams ▸ found
    rw [List.getElem?_append] at found
    split at found
    · exact tables.index index session found
    · next beyond =>
      rw [(each _ session found).1]
      exact Nat.add_sub_cancel' (Nat.le_of_not_lt beyond)

/-- A symbols update announces to every feed the new symbols of its slice. -/
theorem serves_onSymbolsUpdate (tables : controller.Tables new)
    (serves : controller.Serves index sent statuses feed) :
    ∃ added, (controller.onSymbolsUpdate new).1.Serves index
      (sent ++ sentBy (.marketData index) (controller.onSymbolsUpdate new).2) statuses
      (feed.act (.announce added)) := by
  obtain ⟨-, added, streams, -, each⟩ := ensureSymbolSlices_spec
    { controller with shared := { controller.shared with
        symbols := (core.append controller.shared.symbols new).1 } }
    (core.append controller.shared.symbols new).2.1
  have streams : (controller.onSymbolsUpdate new).1.marketData = controller.marketData ++ added :=
    streams
  have live : ((controller.onSymbolsUpdate new).1.marketData[index]?).any MarketData.ready =
      feed.live := by
    rw [streams, any_ready_append (fun position session found => (each position session found).2),
      serves.live]
  let fresh := core.getSlice (core.append controller.shared.symbols new).1 index
    (core.append controller.shared.symbols new).2.2
  have sends : sentBy (.marketData index) (controller.onSymbolsUpdate new).2 =
      if feed.live then frames (MarketData.subscribeSymbols fresh) else [] := by
    have settled := (tables_onSymbolsUpdate tables).index
    rw [← live]
    refine (sentBy_flatMap settled _).trans ?_
    cases found : (controller.onSymbolsUpdate new).1.marketData[index]? with
    | none => rfl
    | some session =>
      cases settled index session found
      simp only [Option.elim_some, Option.any_some, MarketData.subscribe]
      split <;> rfl
  refine ⟨fresh, ?_, ?_, ?_, ?_, serves.arrivals⟩
  · exact live.symm
  · rw [shared_onSymbolsUpdate, core.getSlice_append, Feed.act, serves.topics]
  · intro channel
    rw [requestedOn_append, sends, serves.requested, Feed.act]
    by_cases up : feed.live = true
    · by_cases known : channel ∈ MarketData.channels <;> simp [up, known]
    · simp [up]
  · rw [List.count_append, serves.static, sends]
    by_cases up : feed.live = true
    · simp [up, MarketData.count_static_subscribeSymbols, Feed.act]
    · simp [up, Feed.act]

/-! ## Events of a connection -/

/-- Whether an event is the disconnect of a stream. -/
def Event.disconnects (source : Source) : Event → Bool
  | .marketData index event => source = .marketData index && event.isDisconnected
  | .dropCopy account event => source = .dropCopy account && event.isDisconnected
  | _ => false

/-- Whether an event is a status message to a stream. -/
def Event.isStatus (source : Source) : Event → Bool
  | .marketData index event => source = .marketData index && event.isStatus
  | .dropCopy account event => source = .dropCopy account && event.isStatus
  | _ => false

/-- The frames a stream sent since its last disconnect, after one more event. -/
def nextSent (source : Source) (sent : List Frame) (entry : Event × List (Source × Output)) :
    List Frame :=
  (if entry.1.disconnects source then [] else sent) ++ sentBy source entry.2

/-- The frames a stream sent since its last disconnect. -/
def sentSince (source : Source) (log : List (Event × List (Source × Output))) : List Frame :=
  log.foldl (nextSent source) []

/-- The status messages a stream received since its last disconnect, after one
more event. -/
def nextStatuses (source : Source) (statuses : Nat) (event : Event) : Nat :=
  if event.disconnects source then 0
  else if event.isStatus source then statuses + 1
  else statuses

/-- The status messages a stream received since its last disconnect. -/
def statusesSince (source : Source) (events : List Event) : Nat :=
  events.foldl (nextStatuses source) 0

@[simp] theorem sentSince_concat (source : Source) (log : List (Event × List (Source × Output)))
    (entry : Event × List (Source × Output)) :
    sentSince source (log ++ [entry]) = nextSent source (sentSince source log) entry := by
  simp [sentSince]

@[simp] theorem statusesSince_concat (source : Source) (events : List Event) (event : Event) :
    statusesSince source (events ++ [event]) =
      nextStatuses source (statusesSince source events) event := by
  simp [statusesSince]

/-- What an event does to the feed of stream `index` by itself. -/
def Event.action (index : Nat) : Event → Feed.Action String
  | .marketData position event => if position = index then event.action else .announce []
  | _ => .announce []

/-- The event of a stream before its new symbols, if any, are announced. -/
theorem serves_onEvent {position : Nat} {session : MarketData} {received : MarketData.Event}
    {result : MarketData.Result core} (tables : controller.Tables [])
    (serves : controller.Serves index sent statuses feed)
    (found : controller.marketData[position]? = some session)
    (handled : session.onEvent server settings controller.shared received = some result) :
    ({ controller with
        shared := result.shared
        marketData := controller.marketData.set position result.session } :
      Controller core).Serves index
      (nextSent (.marketData index) sent
        (.marketData position received, tag (.marketData session.index) result.outputs))
      (nextStatuses (.marketData index) statuses (.marketData position received))
      (feed.act ((Event.marketData position received).action index)) := by
  obtain ⟨-, status, sends, sameSymbols, -⟩ := MarketData.onEvent_spec handled
  have own := tables.index position session found
  by_cases here : position = index
  · subst here
    have wasLive : feed.live = session.ready := by rw [serves.live, found, Option.any_some]
    have nowLive : ((controller.marketData.set position result.session)[position]?).any
        MarketData.ready = decide (received.statusAfter session.connectionStatus = .ready) := by
      have bound := (List.getElem?_eq_some_iff.mp found).1
      rw [List.getElem?_set_self bound, Option.any_some, MarketData.ready, status]
    have nowSent : nextSent (.marketData position) sent
        (.marketData position received, tag (.marketData session.index) result.outputs) =
        (if received.isDisconnected then [] else sent) ++
          frames (received.sends session controller.shared.symbols) := by
      rw [nextSent, own, sentBy_tag_self, sends]
      simp [Event.disconnects]
    have nowStatuses : nextStatuses (.marketData position) statuses
        (.marketData position received) =
        if received.isDisconnected then 0
        else if received.isStatus then statuses + 1 else statuses := by
      simp [nextStatuses, Event.disconnects, Event.isStatus]
    rw [nowSent, nowStatuses]
    simp only [Event.action, if_true]
    rcases received.cases_action with
      rfl | rfl | rfl | ⟨quiet, notDropped, notStatus, keeps, silent⟩
    · refine ⟨nowLive.symm, sameSymbols ▸ serves.topics, fun channel => ?_, ?_, rfl⟩
      · change requestedOn channel [] = if channel ∈ MarketData.channels then [] else []
        simp
      · change List.count _ [] = if position = 0 then 0 else 0
        simp
    · refine ⟨nowLive.symm, sameSymbols ▸ serves.topics, fun channel => ?_, ?_, serves.arrivals⟩
      · exact (congrArg _ (List.append_nil sent)).trans (serves.requested channel)
      · exact (congrArg _ (List.append_nil sent)).trans serves.static
    · have topics : core.getSlice controller.shared.symbols session.index 0 = feed.topics := by
        rw [own, serves.topics]
      refine ⟨nowLive.symm, sameSymbols ▸ serves.topics, fun channel => ?_, ?_,
        congrArg (· + 1) serves.arrivals⟩
      · change requestedOn channel (sent ++ frames (_ ++ _)) =
          if channel ∈ MarketData.channels then feed.requested ++ feed.topics else []
        rw [topics, frames_append, requestedOn_append, requestedOn_append, serves.requested,
          MarketData.requestedOn_subscribeSymbols]
        split
        · split <;> simp [MarketData.subscribeStatic, requestedOn, Frame.requests]
        · split <;> simp [MarketData.subscribeStatic, requestedOn, Frame.requests]
      · change List.count _ (sent ++ frames (_ ++ _)) =
          if position = 0 then feed.arrivals + 1 else 0
        rw [frames_append, List.count_append, List.count_append, serves.static,
          MarketData.count_static_subscribeSymbols, own]
        split <;> simp [MarketData.subscribeStatic]
    · rw [quiet, notDropped, notStatus, silent, Feed.act_announce_nil]
      refine ⟨?_, sameSymbols ▸ serves.topics, fun channel => ?_, ?_, serves.arrivals⟩
      · rw [nowLive, keeps, wasLive, MarketData.ready]
      · simpa using serves.requested channel
      · simpa using serves.static
  · have other : Source.marketData position ≠ .marketData index := by simpa using here
    have nowSent : nextSent (.marketData index) sent
        (.marketData position received, tag (.marketData session.index) result.outputs) = sent := by
      rw [nextSent, own, sentBy_tag_of_ne _ other]
      simp [Event.disconnects, Ne.symm other]
    have nowStatuses : nextStatuses (.marketData index) statuses
        (.marketData position received) = statuses := by
      simp [nextStatuses, Event.disconnects, Event.isStatus, Ne.symm other]
    rw [nowSent, nowStatuses]
    simp only [Event.action, here, if_false, Feed.act_announce_nil]
    refine ⟨?_, sameSymbols ▸ serves.topics, serves.requested, serves.static, serves.arrivals⟩
    rw [serves.live, List.getElem?_set_ne here]

theorem tables_onEvent {position : Nat} {session : MarketData} {received : MarketData.Event}
    {result : MarketData.Result core} (tables : controller.Tables [])
    (found : controller.marketData[position]? = some session)
    (handled : session.onEvent server settings controller.shared received = some result) :
    ({ controller with
        shared := result.shared
        marketData := controller.marketData.set position result.session } :
      Controller core).Tables result.newSymbols := by
  obtain ⟨sameIndex, -, -, sameSymbols, symbols, entered⟩ := MarketData.onEvent_spec handled
  have pending := tables.emplaceNew symbols
  rw [entered] at pending
  refine ⟨sameSymbols ▸ pending.nodup, sameSymbols ▸ pending.known, ?_, ?_⟩
  · simpa [sameSymbols] using pending.sliced
  · intro index other there
    rw [List.getElem?_set] at there
    split at there
    · next same =>
      split at there
      · cases there
        rw [sameIndex, tables.index position session found, same]
      · cases there
    · exact tables.index index other there

/-- Events that neither reach a public stream nor make one send. -/
theorem serves_unchanged (shared : controller'.shared = controller.shared)
    (streams : controller'.marketData = controller.marketData)
    (silent : ∀ index, sentBy (.marketData index) out = [])
    (connected : ∀ index, event.disconnects (.marketData index) = false)
    (noStatus : ∀ index, event.isStatus (.marketData index) = false)
    (quiet : ∀ index, event.action index = .announce []) (tables : controller.Tables []) :
    controller'.Tables [] ∧
      ∀ {index sent statuses feed}, controller.Serves index sent statuses feed →
        ∃ added, controller'.Serves index (nextSent (.marketData index) sent (event, out))
          (nextStatuses (.marketData index) statuses event)
          ((feed.act (event.action index)).act (.announce added)) := by
  refine ⟨⟨shared ▸ tables.nodup, shared ▸ tables.known, shared ▸ streams ▸ tables.sliced,
    streams ▸ tables.index⟩, fun serves => ⟨[], ?_⟩⟩
  simp only [nextSent, nextStatuses, silent, connected, noStatus, quiet, Bool.false_eq_true,
    if_false, List.append_nil, Feed.act_announce_nil]
  exact ⟨streams ▸ serves.live, shared ▸ serves.topics, serves.requested, serves.static,
    serves.arrivals⟩

/-- A timer reaches the streams, but not their subscriptions. -/
theorem serves_onTimer (now : Int) (tables : controller.Tables [])
    (serves : controller.Serves index sent statuses feed) :
    (controller.onTimer settings now).1.Serves index
      (sent ++ sentBy (.marketData index) (controller.onTimer settings now).2) statuses feed := by
  have sends : ∀ frame ∈ sentBy (.marketData index) (controller.onTimer settings now).2,
      frame = .ping now := by
    intro frame member
    rw [onTimer, sentBy_flatMap tables.index] at member
    cases found : controller.marketData[index]? with
    | none => simp [found] at member
    | some session =>
      rw [found] at member
      exact (session.onTimer_spec settings now).2.2 frame member
  have pings : sentBy (.marketData index) (controller.onTimer settings now).2 =
      List.replicate (sentBy (.marketData index) (controller.onTimer settings now).2).length
        (.ping now) := List.eq_replicate_of_mem sends
  refine ⟨?_, serves.topics, fun channel => ?_, ?_, serves.arrivals⟩
  · simp only [onTimer, List.getElem?_map, serves.live]
    cases controller.marketData[index]? with
    | none => rfl
    | some session => simp [(session.onTimer_spec settings now).2.1]
  · rw [requestedOn_append, serves.requested, pings]
    simp [requestedOn, Frame.requests]
  · rw [List.count_append, serves.static, pings]
    simp [List.count_replicate]

/-- A symbols update comes from an instrument message or a client's Subscribe; as
an event of its own it has no sender. -/
def Event.HasSender : Event → Prop
  | .symbolsUpdate _ => False
  | _ => True

theorem onTokenUpdate_public {account token : String}
    (stepped : controller.onTokenUpdate account token = some controller') :
    controller'.shared = controller.shared ∧ controller'.marketData = controller.marketData := by
  unfold onTokenUpdate at stepped
  split at stepped <;> cases stepped <;> exact ⟨rfl, rfl⟩

/-- **Step rule.**  Every event keeps the tables and acts on the feed of every
stream: by itself, and through the symbols it announces. -/
theorem serves_step (sender : event.HasSender)
    (stepped : step server settings controller event = some (controller', out))
    (tables : controller.Tables []) : controller'.Tables [] ∧
      ∀ {index sent statuses feed}, controller.Serves index sent statuses feed →
        ∃ added, controller'.Serves index (nextSent (.marketData index) sent (event, out))
          (nextStatuses (.marketData index) statuses event)
          ((feed.act (event.action index)).act (.announce added)) := by
  cases event with
  | symbolsUpdate symbols => cases sender
  | subscribe symbols =>
    cases stepped
    have pending := tables.emplaceNew symbols
    refine ⟨tables_onSymbolsUpdate pending, fun serves => ?_⟩
    simp only [Event.action, Feed.act_announce_nil]
    exact serves_onSymbolsUpdate pending
      ⟨serves.live, serves.topics, serves.requested, serves.static, serves.arrivals⟩
  | marketData position received =>
    obtain ⟨session, result, found, handled, ⟨none, rfl, rfl⟩ | ⟨rfl, rfl⟩⟩ :=
      step_marketData stepped
    · have pending := tables_onEvent tables found handled
      rw [none] at pending
      exact ⟨pending, fun serves =>
        ⟨[], by simpa using serves_onEvent tables serves found handled⟩⟩
    · have pending := tables_onEvent tables found handled
      refine ⟨tables_onSymbolsUpdate pending, fun serves => ?_⟩
      have own := serves_onEvent tables serves found handled
      simpa [nextSent] using serves_onSymbolsUpdate pending own
  | timer now =>
    cases stepped
    refine ⟨⟨tables.nodup, tables.known, ?_, ?_⟩, fun serves => ⟨[], ?_⟩⟩
    · simpa [onTimer] using tables.sliced
    · intro index session found
      simp only [List.getElem?_map, Option.map_eq_some_iff] at found
      obtain ⟨before, there, rfl⟩ := found
      rw [(before.onTimer_spec settings now).1, tables.index index before there]
    · simp only [Event.action, Feed.act_announce_nil]
      exact serves_onTimer now tables serves
  | start | stop =>
    cases stepped
    exact serves_unchanged rfl rfl (fun _ => rfl) (fun _ => rfl) (fun _ => rfl) (fun _ => rfl)
      tables
  | tokenUpdate account token =>
    obtain ⟨updated, rfl⟩ := step_tokenUpdate stepped
    obtain ⟨shared, streams⟩ := onTokenUpdate_public updated
    exact serves_unchanged shared streams (fun _ => rfl) (fun _ => rfl) (fun _ => rfl)
      (fun _ => rfl) tables
  | request request =>
    obtain ⟨rfl, rfl | ⟨session, -, rfl⟩⟩ := step_request stepped
    · exact serves_unchanged rfl rfl (fun _ => rfl) (fun _ => rfl) (fun _ => rfl) (fun _ => rfl)
        tables
    · exact serves_unchanged rfl rfl (fun _ => sentBy_tag_of_ne _ (by simp)) (fun _ => rfl)
        (fun _ => rfl) (fun _ => rfl) tables
  | dropCopy account received =>
    obtain ⟨session, next, outputs, -, -, rfl, rfl⟩ := step_dropCopy stepped
    exact serves_unchanged rfl rfl (fun _ => sentBy_tag_of_ne _ (by simp))
      (fun _ => by simp [Event.disconnects]) (fun _ => by simp [Event.isStatus]) (fun _ => rfl)
      tables

end Controller

end RoqKraken.Gateway
