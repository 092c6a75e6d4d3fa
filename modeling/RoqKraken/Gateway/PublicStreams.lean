import RoqKraken.Gateway.Connections
import RoqKraken.Gateway.Trades

/-!
# What a public stream publishes

All public streams fill the same buffers and look at the same symbol tables.  What one
of them dispatches is still a matter of its own messages: `publishes` says what a stream
with a given id makes of an event, and `marketData_run` that a stream of the gateway
dispatches that for each of its events and nothing else, whatever other streams, accounts
and clients do in between.
-/

namespace RoqKraken.Gateway

namespace MarketData

variable {core : Symbols} {server : Server} {settings : Settings} {session : MarketData}
  {shared : Shared core}

/-! ## One stream -/

/-- What is published about a pair. -/
def publishesPair (session : MarketData) (server : Server) (settings : Settings)
    (item : Json.InstrumentDataPairsItem) : List Dispatch :=
  .referenceData (session.referenceData server settings item) ::
    if discard server item then [] else [.marketStatus (session.marketStatus settings item)]

/-- What a stream with this id publishes at an event. -/
def publishes (server : Server) (settings : Settings) (streamId : UInt16) (event : Event) :
    List Dispatch :=
  let session : MarketData := { streamId, index := 0 }
  match event with
  | .disconnected => [.streamStatus { streamId, connectionStatus := .disconnected }]
  | .ready => [.streamStatus { streamId, connectionStatus := .downloading }]
  | .latency sample => [.externalLatency { streamId, latency := sample }]
  | .message .status => [.streamStatus { streamId, connectionStatus := .ready }]
  | .message (.instrument instrument) =>
    instrument.pairs.flatMap (session.publishesPair server settings)
  | .message (.ticker ticker) => session.onTicker settings ticker
  | .message (.trade trade) =>
    (session.summaries settings 0 (symbolRuns trade.data)).map .tradeSummary
  | .message (.book book) => (BookLoop.run session settings book.type {} book.data).2
  | _ => []

/-- The loop over the pairs publishes them one by one, whatever symbols are known. -/
theorem instrumentLoop_publishes (session : MarketData) (server : Server) (settings : Settings)
    (allSymbols : Finset String) (items : List Json.InstrumentDataPairsItem) :
    (session.instrumentLoop server settings allSymbols items).2.1 =
      items.flatMap (session.publishesPair server settings) := by
  induction items generalizing allSymbols with
  | nil => rfl
  | cons item items ih =>
    unfold instrumentLoop
    rw [List.flatMap_cons, publishesPair]
    by_cases dropped : discard server item = true
    · rw [if_pos dropped, if_pos dropped]
      exact congrArg (_ :: ·) (ih allSymbols)
    · rw [if_neg dropped, if_neg dropped]
      exact congrArg (_ :: _ :: ·) (ih _)

/-- The id is all that the loops over trades and books have of the stream. -/
theorem summaries_congr {other : MarketData} (same : other.streamId = session.streamId)
    (time : Int) (runs : List (List Json.TradeDataItem)) :
    other.summaries settings time runs = session.summaries settings time runs := by
  induction runs generalizing time with
  | nil => rfl
  | cons run runs ih => rw [summaries, summaries, ih, summary, summary, same]

theorem books_congr {other : MarketData} (same : other.streamId = session.streamId)
    (type : Json.MessageType) (loop : BookLoop) (items : List Json.BookData) :
    BookLoop.run other settings type loop items =
      BookLoop.run session settings type loop items := by
  induction items generalizing loop with
  | nil => rfl
  | cons item items ih => simp only [BookLoop.run, BookLoop.item, same, ih]

/-- What a stream asks for once it is ready dispatches nothing. -/
theorem dispatches_onStatus (session : MarketData) (symbols : core.State) :
    dispatches (session.onStatus symbols).2 =
      [.streamStatus { streamId := session.streamId, connectionStatus := .ready }] := by
  have silent : dispatches ((if session.index = 0 then subscribeStatic else []) ++
      ({ session with connectionStatus := .ready } : MarketData).subscribe symbols) = [] := by
    rw [List.eq_nil_iff_forall_not_mem]
    intro event member
    rw [mem_dispatches, List.mem_append] at member
    rcases member with static | symbols
    · split at static <;> simp [subscribeStatic] at static
    · simp [subscribe, subscribeSymbols, subscribeChannel] at symbols
  change dispatches ((session.onConnectionStatus .ready).2 ++
    (if session.index = 0 then subscribeStatic else []) ++
      ({ session with connectionStatus := .ready } : MarketData).subscribe symbols) = _
  rw [List.append_assoc, dispatches_append, silent]
  rfl

/-- **One event.**  What is dispatched has nothing to do with what is shared. -/
theorem onEvent_publishes {event : Event} {result : Result core}
    (handled : session.onEvent server settings shared event = some result) :
    dispatches result.outputs = publishes server settings session.streamId event := by
  have same : session.streamId = ({ streamId := session.streamId, index := 0 } :
      MarketData).streamId := rfl
  cases event with
  | disconnected | ready | latency =>
    cases handled
    rfl
  | binary => cases handled
  | message message =>
    cases message with
    | status =>
      cases handled
      exact dispatches_onStatus session shared.symbols
    | instrument instrument =>
      cases handled
      rw [dispatches_map_dispatch]
      exact instrumentLoop_publishes session server settings _ instrument.pairs
    | ticker ticker =>
      cases handled
      rw [dispatches_map_dispatch]
      rfl
    | trade trade =>
      cases handled
      rw [dispatches_map_dispatch]
      refine (congrArg Prod.snd (session.onTrade_eq settings shared trade)).trans ?_
      exact congrArg (List.map Dispatch.tradeSummary) (summaries_congr same ..)
    | book book =>
      cases handled
      rw [dispatches_map_dispatch]
      exact congrArg Prod.snd (books_congr same ..)
    | heartbeat | error | pong | subscribe =>
      cases handled
      rfl
    | _ => cases handled

end MarketData

/-! ## The streams of the gateway -/

namespace Controller

variable {core : Symbols} {server : Server} {settings : Settings}
  {controller controller' : Controller core} {event : Event} {out : List (Source × Output)}

/-- What an event is for a public stream. -/
def Event.ofStream (index : Nat) : Event → Option MarketData.Event
  | .marketData position received => if position = index then some received else none
  | _ => none

theorem dispatches_outputsBy (silent : dispatches (out.map Prod.snd) = []) (source : Source) :
    dispatches (outputsBy source out) = [] := by
  rw [List.eq_nil_iff_forall_not_mem] at silent ⊢
  intro dispatched member
  refine silent dispatched (mem_dispatches.mpr ?_)
  obtain ⟨entry, listed, same⟩ := List.mem_map.mp (mem_dispatches.mp member)
  exact List.mem_map.mpr ⟨entry, (List.mem_filter.mp listed).1, same⟩

theorem index_of_tidy (tidy : controller.Tidy) {index : Nat} {session : MarketData}
    (found : controller.marketData[index]? = some session) : session.index = index := by
  have bound := (List.getElem?_eq_some_iff.mp found).1
  have listed : (controller.marketData.map MarketData.index)[index]? = some session.index := by
    rw [List.getElem?_map, found]
    rfl
  rw [tidy.index, List.getElem?_range bound] at listed
  exact (Option.some.inj listed).symm

/-- One event of the gateway, as a public stream has a part in it. -/
theorem step_publishes (tidy : controller.Tidy)
    (stepped : step server settings controller event = some (controller', out)) (index : Nat) :
    (event.ofStream index = none ∧ dispatches (outputsBy (.marketData index) out) = []) ∨
      ∃ received session, event.ofStream index = some received ∧
        controller.marketData[index]? = some session ∧
        dispatches (outputsBy (.marketData index) out) =
          MarketData.publishes server settings session.streamId received := by
  cases event with
  | marketData position received =>
    obtain ⟨session, result, found, handled, moved⟩ := step_marketData stepped
    have own := index_of_tidy tidy found
    have published : dispatches (outputsBy (.marketData index) out) =
        if position = index then dispatches result.outputs else [] := by
      rcases moved with ⟨-, -, rfl⟩ | ⟨-, rfl⟩
      · rw [outputsBy_tag, own]
        by_cases same : position = index <;> simp [same, dispatches]
      · rw [outputsBy_append, dispatches_append, outputsBy_tag, own,
          dispatches_outputsBy (dispatches_onSymbolsUpdate _), List.append_nil]
        by_cases same : position = index <;> simp [same, dispatches]
    by_cases same : position = index
    · subst same
      refine .inr ⟨received, session, if_pos rfl, found, ?_⟩
      rw [published, if_pos rfl]
      exact MarketData.onEvent_publishes handled
    · exact .inl ⟨if_neg same, by rw [published, if_neg same]⟩
  | dropCopy account received =>
    obtain ⟨session, next, outputs, -, -, -, rfl⟩ := step_dropCopy stepped
    exact .inl ⟨rfl, by rw [outputsBy_tag, if_neg (by simp)]; rfl⟩
  | request request =>
    obtain ⟨-, rfl | ⟨session, -, rfl⟩⟩ := step_request stepped
    · exact .inl ⟨rfl, rfl⟩
    · exact .inl ⟨rfl, by rw [outputsBy_tag, if_neg (by simp)]; rfl⟩
  | subscribe symbols =>
    obtain ⟨-, rfl⟩ := step_subscribe stepped
    exact .inl ⟨rfl, dispatches_outputsBy (dispatches_onSymbolsUpdate _) _⟩
  | symbolsUpdate symbols =>
    obtain ⟨-, rfl⟩ := step_symbolsUpdate stepped
    exact .inl ⟨rfl, dispatches_outputsBy (dispatches_onSymbolsUpdate _) _⟩
  | timer now =>
    obtain ⟨-, rfl⟩ := step_timer stepped
    exact .inl ⟨rfl, dispatches_outputsBy (dispatches_onTimer now) _⟩
  | tokenUpdate account token =>
    obtain ⟨-, rfl⟩ := step_tokenUpdate stepped
    exact .inl ⟨rfl, rfl⟩
  | start | stop =>
    cases stepped
    exact .inl ⟨rfl, rfl⟩

/-- A stream keeps its id. -/
theorem streamId_step (tidy : controller.Tidy)
    (stepped : step server settings controller event = some (controller', out)) {index : Nat}
    {session session' : MarketData} (before : controller.marketData[index]? = some session)
    (after : controller'.marketData[index]? = some session') :
    session'.streamId = session.streamId := by
  obtain ⟨new, split⟩ := (grow_step tidy.dropCopy stepped).extends.marketData
  have bound := (List.getElem?_eq_some_iff.mp before).1
  have same : (controller'.marketData.map MarketData.identity)[index]? =
      some session.identity := by
    change controller'.streamTables.marketData[index]? = _
    rw [← split, List.getElem?_append_left (by rwa [length_streamTables])]
    simp [streamTables, before]
  rw [List.getElem?_map, after, Option.map_some, Option.some_inj] at same
  exact congrArg Prod.fst same

theorem vacant_step (tidy : controller.Tidy)
    (stepped : step server settings controller event = some (controller', out)) {index : Nat}
    (after : controller'.marketData[index]? = none) : controller.marketData[index]? = none := by
  obtain ⟨new, split⟩ := (grow_step tidy.dropCopy stepped).extends.marketData
  have lengths := congrArg List.length split
  rw [List.length_append, length_streamTables, length_streamTables] at lengths
  rw [List.getElem?_eq_none_iff] at after ⊢
  omega

/-- What a public stream has dispatched is what it publishes at its events; one that is
still to come has had none. -/
structure Follows (server : Server) (settings : Settings) (index : Nat)
    (controller : Controller core) (past : List (Event × List (Source × Output))) : Prop where
  vacant : controller.marketData[index]? = none →
    past.filterMap (fun entry => entry.1.ofStream index) = [] ∧
      dispatches (past.flatMap fun entry => outputsBy (.marketData index) entry.2) = []
  session : ∀ session, controller.marketData[index]? = some session →
    dispatches (past.flatMap fun entry => outputsBy (.marketData index) entry.2) =
      (past.filterMap fun entry => entry.1.ofStream index).flatMap
        (MarketData.publishes server settings session.streamId)

theorem Follows.step {index : Nat} {past : List (Event × List (Source × Output))}
    (follows : controller.Follows server settings index past) (tidy : controller.Tidy)
    (stepped : step server settings controller event = some (controller', out)) :
    controller'.Follows server settings index (past ++ [(event, out)]) := by
  have split : dispatches ((past ++ [(event, out)]).flatMap fun entry =>
      outputsBy (.marketData index) entry.2) =
        dispatches (past.flatMap fun entry => outputsBy (.marketData index) entry.2) ++
          dispatches (outputsBy (.marketData index) out) := by simp
  rcases step_publishes tidy stepped index with ⟨other, silent⟩ |
    ⟨received, session, own, found, made⟩
  · have same : (past ++ [(event, out)]).filterMap (fun entry => entry.1.ofStream index) =
        past.filterMap fun entry => entry.1.ofStream index := by simp [other]
    rw [silent, List.append_nil] at split
    refine ⟨fun vacant => ?_, fun session' after => ?_⟩
    · rw [same, split]
      exact follows.vacant (vacant_step tidy stepped vacant)
    · rw [same, split]
      cases before : controller.marketData[index]? with
      | none =>
        obtain ⟨unused, quiet⟩ := follows.vacant before
        rw [unused, quiet]
        rfl
      | some session =>
        rw [streamId_step tidy stepped before after]
        exact follows.session session before
  · have next : (past ++ [(event, out)]).filterMap (fun entry => entry.1.ofStream index) =
        (past.filterMap fun entry => entry.1.ofStream index) ++ [received] := by simp [own]
    refine ⟨fun vacant => ?_, fun session' after => ?_⟩
    · cases found.symm.trans (vacant_step tidy stepped vacant)
    · rw [next, split, follows.session session found, made, streamId_step tidy stepped found after,
        List.flatMap_append, List.flatMap_singleton]

theorem follows_create (config : Config) (index : Nat) :
    (create core config).Follows server settings index [] :=
  ⟨fun _ => ⟨rfl, rfl⟩, fun _ _ => rfl⟩

end Controller

namespace System

open Controller (outputsBy)

variable {core : Symbols} {download : OrderEntry.Download2} {decoders : OrderEntry.Decoders}
  {server : Server} {settings : Settings} {config : Config} {system system' : System core download}
  {event : Event} {events : List Event} {out : List Emitted} {log : List (Event × List Emitted)}

/-- What an event is for a public stream. -/
def Event.ofStream (index : Nat) : Event → Option MarketData.Event
  | .controller event _ => event.ofStream index
  | .orderEntry .. => none

theorem kept_follows (index : Nat) : Kept server settings
    fun (controller : Controller core) past =>
      controller.Tidy ∧ controller.Follows server settings index past where
  step _ _ _ _ _ _ inv stepped :=
    ⟨(Controller.connects_step inv.1 stepped).tidy, inv.2.step inv.1 stepped⟩
  skip _ _ inv := ⟨inv.1.besides _ _, ⟨inv.2.vacant, inv.2.session⟩⟩

/-- No other events of a public stream than those of the controller. -/
theorem trace_ofStream (index : Nat) (entry : Event × List Emitted) :
    (controllerTrace entry).filterMap (fun entry => entry.1.ofStream index) =
      (entry.1.ofStream index).toList := by
  obtain ⟨event, out⟩ := entry
  cases event with
  | controller event external =>
    rw [controllerTrace, List.filterMap_cons]
    cases here : event.ofStream index <;> simp [Event.ofStream, here]
  | orderEntry name event =>
    rw [Event.ofStream, Option.toList_none, List.filterMap_eq_nil_iff]
    intro entry member
    simp only [controllerTrace, List.mem_filterMap] at member
    obtain ⟨⟨effect, position⟩, -, made⟩ := member
    cases effect with
    | tokenUpdate holder token =>
      simp only [handed] at made
      split at made
      · cases made
        rfl
      · cases made
    | _ => cases made

theorem traces_ofStream (index : Nat) (past : List (Event × List Emitted)) :
    (past.flatMap controllerTrace).filterMap (fun entry => entry.1.ofStream index) =
      (past.map Prod.fst).filterMap (Event.ofStream index) := by
  induction past with
  | nil => rfl
  | cons entry past ih =>
    rw [List.flatMap_cons, List.filterMap_append, trace_ofStream, ih, List.map_cons,
      List.filterMap_cons]
    cases entry.1.ofStream index <;> rfl

/-- **Public streams.**  What a public stream of the gateway dispatches in a run is what a
stream with its id publishes at its events, one after the other. -/
theorem marketData_run
    (ran : (step decoders server settings).run (create core download config) events =
      some (system, log)) (index : Nat) :
    ∃ streamId, (∀ session, system.controller.marketData[index]? = some session →
        session.streamId = streamId) ∧
      dispatches (log.flatMap fun entry =>
          outputsBy (.marketData index) (streamOutputs entry.2)) =
        (events.filterMap (Event.ofStream index)).flatMap
          (MarketData.publishes server settings streamId) := by
  obtain ⟨-, follows⟩ := controller_run (kept_follows index) ran
    ⟨Controller.tidy_create config, Controller.follows_create config index⟩
  have received : (log.flatMap controllerTrace).filterMap (fun entry => entry.1.ofStream index) =
      events.filterMap (Event.ofStream index) := by
    rw [traces_ofStream, Step.map_fst_log ran]
  rw [trace_outputs_run ran]
  cases there : system.controller.marketData[index]? with
  | none =>
    obtain ⟨unused, quiet⟩ := follows.vacant there
    refine ⟨0, nofun, ?_⟩
    rw [quiet, ← received, unused]
    rfl
  | some session =>
    refine ⟨session.streamId, fun _ same => (Option.some.inj same) ▸ rfl, ?_⟩
    rw [follows.session session there, received]

/-- Two streams take turns in one buffer, and an account signs in in between. -/
def twoStreams : List Event :=
  [.controller (.subscribe ["BTC/USD", "ETH/USD"]) trivial,
    .controller (.marketData 0 (.message (.trade ⟨[⟨"BTC/USD", .buy, 100.0, 0.5, 1, 20⟩]⟩)))
      trivial,
    .orderEntry "A1" { input := .connected },
    .controller (.marketData 1 (.message (.trade ⟨[⟨"ETH/USD", .sell, 10.0, 2.0, 2, 10⟩]⟩)))
      trivial,
    .orderEntry "A1" { input := .ack .token (.ok (.success, OrderEntry.tokenBody)) 1 },
    .controller (.marketData 1 (.message (.book ⟨.update, [⟨"ETH/USD", [], [⟨11.0, 1.0⟩], 30⟩]⟩)))
      trivial]

theorem marketData_run_twoStreams :
    ∃ (system : System (Symbols.chunked 1 (by decide)) OrderEntry.countingDownload)
      (log : List (Event × List Emitted)),
      (step OrderEntry.sampleDecoders ⟨255, fun _ => false⟩ {}).run (create _ _ ⟨["A1"], by decide⟩)
        twoStreams = some (system, log) ∧
      ∃ streamId, (∀ session, system.controller.marketData[1]? = some session →
          session.streamId = streamId) ∧
        dispatches (log.flatMap fun entry => outputsBy (.marketData 1) (streamOutputs entry.2)) =
          (twoStreams.filterMap (Event.ofStream 1)).flatMap
            (MarketData.publishes ⟨255, fun _ => false⟩ {} streamId) := by
  cases ran : (step OrderEntry.sampleDecoders ⟨255, fun _ => false⟩ {}).run
      (create (Symbols.chunked 1 (by decide)) OrderEntry.countingDownload ⟨["A1"], by decide⟩)
      twoStreams with
  | none => cases ran
  | some result => exact ⟨result.1, result.2, rfl, marketData_run ran 1⟩

end System

end RoqKraken.Gateway
