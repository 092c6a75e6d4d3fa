import RoqKraken.Gateway.Exchange
import RoqKraken.Gateway.PublicStreams
import RoqKraken.Gateway.TradingStatus

/-!
# Symbols are introduced

A symbol reaches the gateway through a client that subscribes to it, or through the list of
instruments.  In the second case its reference data go out first: `introduced_run` follows
what comes in and what goes out in the order it happens, and shows that no stream asks the
exchange for a symbol, and no trading status is published, before.
-/

namespace RoqKraken.Gateway

namespace MarketData

variable {core : Symbols} {server : Server} {settings : Settings} {session : MarketData}
  {shared : Shared core} {event : Event} {result : Result core} {symbol : String}

/-- The reference data of a symbol that is not discarded. -/
def Describes (symbol : String) : Output → Prop
  | .dispatch (.referenceData data) => data.symbol = symbol ∧ data.discard = false
  | _ => False

/-- A trading status comes after the reference data of its symbol. -/
def Described (past : List Output) : Output → Prop
  | .dispatch (.marketStatus status) => ∃ cause ∈ past, Describes status.symbol cause
  | _ => True

theorem Described.append {past : List Output} {output : Output} (described : Described past output)
    (earlier : List Output) : Described (earlier ++ past) output := by
  unfold Described at described ⊢
  split at described
  · obtain ⟨cause, member, describes⟩ := described
    exact ⟨cause, List.mem_append_right _ member, describes⟩
  · trivial

theorem described_instrumentLoop (allSymbols : Finset String)
    (items : List Json.InstrumentDataPairsItem) :
    Throughout Described
      ((session.instrumentLoop server settings allSymbols items).2.1.map Output.dispatch) := by
  induction items generalizing allSymbols with
  | nil => exact throughout_nil
  | cons item items ih =>
    let reference := Output.dispatch (.referenceData (session.referenceData server settings item))
    have first : Throughout Described [reference] := by
      refine throughout_of_forall fun output member past => ?_
      rw [List.mem_singleton.mp member]
      trivial
    unfold instrumentLoop
    split
    · refine first.append fun past output later split => ?_
      exact (ih _ past output later split).append _
    · next kept =>
      let status := Output.dispatch (.marketStatus (session.marketStatus settings item))
      have second : Throughout Described ([reference] ++ [status]) := by
        refine first.concat ⟨reference, List.mem_singleton_self _, rfl, ?_⟩
        simpa [referenceData] using kept
      refine second.append fun past output later split => ?_
      exact (ih _ past output later split).append _

/-- The instruments handler publishes the reference data first. -/
theorem described_onEvent
    (handled : session.onEvent server settings shared event = some result) :
    Throughout Described result.outputs := by
  by_cases listing : ∃ instrument, event = .message (.instrument instrument)
  · obtain ⟨instrument, rfl⟩ := listing
    cases handled
    exact described_instrumentLoop _ _
  · refine throughout_of_forall fun output member past => ?_
    unfold Described
    split
    · exact absurd (onEvent_dispatch handled member) listing
    · trivial

/-- A new symbol was described. -/
theorem describes_newSymbols
    (handled : session.onEvent server settings shared event = some result)
    (new : symbol ∈ result.newSymbols) : ∃ cause ∈ result.outputs, Describes symbol cause := by
  have announced := onEvent_announced handled
  have listed := subset_emplaceNew shared.allSymbols (event.announced server) symbol
    (by rw [announced]; exact new)
  unfold Event.announced at listed
  split at listed
  · next instrument =>
    obtain ⟨item, kept, rfl⟩ := List.mem_map.mp listed
    obtain ⟨inside, kept⟩ := List.mem_filter.mp kept
    have kept : discard server item = false := by simpa using kept
    have said : (item.symbol, Published.discard false) ∈ published (dispatches result.outputs) := by
      rw [published_onEvent handled]
      refine List.mem_flatMap.mpr ⟨item, inside, ?_⟩
      simp [publishedPair, kept]
    obtain ⟨dispatched, sent, same⟩ := List.mem_filterMap.mp said
    cases dispatched with
    | referenceData data =>
      simp only [Dispatch.published, Option.some.injEq, Prod.mk.injEq,
        Published.discard.injEq] at same
      exact ⟨_, mem_dispatches.mp sent, same⟩
    | _ => simp [Dispatch.published] at same
  · cases listed

end MarketData

namespace Controller

variable {core : Symbols} {server : Server} {settings : Settings} {config : Config}
  {controller controller' : Controller core} {event : Event} {out : List (Source × Output)}
  {log : List (Event × List (Source × Output))}

/-! ## What comes in and what goes out -/

/-- An event and then what it puts out. -/
def trace (entry : Event × List (Source × Output)) : List (Event ⊕ Source × Output) :=
  .inl entry.1 :: entry.2.map .inr

/-- A client asks for the symbol, or its reference data go out. -/
def Introduces (symbol : String) : Event ⊕ Source × Output → Prop
  | .inl (.subscribe symbols) => symbol ∈ symbols
  | .inl _ => False
  | .inr entry => MarketData.Describes symbol entry.2

def Known (past : List (Event ⊕ Source × Output)) (symbol : String) : Prop :=
  ∃ cause ∈ past, Introduces symbol cause

/-- The exchange is asked for known symbols only, and a trading status comes after the
reference data. -/
def Introduced (past : List (Event ⊕ Source × Output)) : Event ⊕ Source × Output → Prop
  | .inr (_, .send (.subscribeSymbols _ symbols)) => ∀ symbol ∈ symbols, Known past symbol
  | .inr (_, .dispatch (.marketStatus status)) =>
    ∃ entry, .inr entry ∈ past ∧ MarketData.Describes status.symbol entry.2
  | _ => True

theorem Known.append {past : List (Event ⊕ Source × Output)} {symbol : String}
    (known : Known past symbol) (later : List (Event ⊕ Source × Output)) :
    Known (past ++ later) symbol := by
  obtain ⟨cause, member, introduces⟩ := known
  exact ⟨cause, List.mem_append_left _ member, introduces⟩

/-- A subscription names symbols of the list. -/
theorem introduced_subscribeSymbols {past : List (Event ⊕ Source × Output)} {symbols : List String}
    (known : ∀ symbol ∈ symbols, Known past symbol) {source : Source} {output : Output}
    (sent : output ∈ MarketData.subscribeSymbols symbols) :
    Introduced past (.inr (source, output)) := by
  have one : ∀ channel, output ∈ MarketData.subscribeChannel channel symbols →
      Introduced past (.inr (source, output)) := by
    intro channel member
    unfold MarketData.subscribeChannel at member
    split at member
    · cases member
    · cases List.mem_singleton.mp member
      exact known
  simp only [MarketData.subscribeSymbols, List.mem_append] at sent
  rcases sent with (ticker | trade) | book
  · exact one "ticker" ticker
  · exact one "trade" trade
  · exact one "book" book

theorem introduced_onSymbolsUpdate {past : List (Event ⊕ Source × Output)} {symbols : List String}
    (old : ∀ symbol ∈ core.toList controller.shared.symbols, Known past symbol)
    (new : ∀ symbol ∈ symbols, Known past symbol) :
    (∀ symbol ∈ core.toList (controller.onSymbolsUpdate symbols).1.shared.symbols,
      Known past symbol) ∧
    ∀ entry ∈ (controller.onSymbolsUpdate symbols).2, Introduced past (.inr entry) := by
  have listed : ∀ symbol ∈ core.toList (controller.onSymbolsUpdate symbols).1.shared.symbols,
      Known past symbol :=
    fun symbol member => (mem_symbols_onSymbolsUpdate.mp member).elim (old symbol) (new symbol)
  refine ⟨listed, fun entry sent => ?_⟩
  rw [shared_onSymbolsUpdate] at listed
  obtain ⟨session, -, sent⟩ := List.mem_flatMap.mp sent
  obtain ⟨-, sent⟩ := mem_tag.mp sent
  unfold MarketData.subscribe at sent
  split at sent
  · exact introduced_subscribeSymbols (forall_getSlice listed _ _) sent
  · cases sent

/-- A private session asks for no symbols and knows no trading status. -/
theorem introduced_dropCopy {session next : DropCopy} {received : DropCopy.Event}
    {outputs : List Output} (first : session.step server settings received = some (next, outputs))
    {output : Output} (member : output ∈ outputs) (past : List (Event ⊕ Source × Output))
    (source : Source) : Introduced past (.inr (source, output)) := by
  unfold Introduced
  split
  · next same =>
    cases same
    cases DropCopy.step_frames_token first (mem_frames.mpr member)
  · next same =>
    cases same
    cases DropCopy.step_dispatch first member
  · trivial

theorem introduced_request {session : DropCopy} {request : DropCopy.Request} {output : Output}
    (member : output ∈ (session.onRequest request).2) (past : List (Event ⊕ Source × Output))
    (source : Source) : Introduced past (.inr (source, output)) := by
  cases List.mem_singleton.mp member
  cases request <;> trivial

/-- A public stream asks for symbols of the list. -/
theorem introduced_sends {past : List (Event ⊕ Source × Output)} {state : core.State}
    (known : ∀ symbol ∈ core.toList state, Known past symbol) {session : MarketData}
    {received : MarketData.Event} {output : Output} (sent : output ∈ received.sends session state)
    (source : Source) : Introduced past (.inr (source, output)) := by
  unfold MarketData.Event.sends at sent
  split at sent
  · rcases List.mem_append.mp sent with static | symbols
    · split at static
      · cases List.mem_singleton.mp static
        trivial
      · cases static
    · exact introduced_subscribeSymbols (forall_getSlice known _ _) symbols
  · cases sent

/-- What a public stream puts out at an event, in order. -/
theorem introduced_onEvent {past : List (Event ⊕ Source × Output)}
    (known : ∀ symbol ∈ core.toList controller.shared.symbols, Known past symbol)
    {session : MarketData} {received : MarketData.Event} {result : MarketData.Result core}
    (handled : session.onEvent server settings controller.shared received = some result)
    (source : Source) : Throughout (fun first entry =>
      Introduced (past ++ first.map .inr) (.inr entry)) (tag source result.outputs) := by
  obtain ⟨-, -, sends, -⟩ := MarketData.onEvent_spec handled
  intro first entry later split
  obtain ⟨before, rest, outputs, rfl, tagged⟩ := List.map_eq_append_iff.mp split
  obtain ⟨output, after, rfl, rfl, -⟩ := List.map_eq_cons_iff.mp tagged
  have member : output ∈ result.outputs := by
    rw [outputs]
    exact List.mem_append_right _ (List.mem_cons_self ..)
  cases output with
  | send frame =>
    have asked := mem_frames.mpr member
    rw [sends] at asked
    refine introduced_sends (fun symbol listed => ?_) (mem_frames.mp asked) source
    exact (known symbol listed).append _
  | dispatch dispatched =>
    have described := MarketData.described_onEvent handled before _ after outputs
    cases dispatched with
    | marketStatus status =>
      obtain ⟨cause, here, describes⟩ := described
      refine ⟨(source, cause), List.mem_append_right _ (List.mem_map_of_mem ?_), describes⟩
      exact List.mem_map_of_mem here
    | _ => trivial

/-- New symbols are described before they reach the list. -/
theorem introduced_marketData {index : Nat} {received : MarketData.Event}
    {past : List (Event ⊕ Source × Output)}
    (known : ∀ symbol ∈ core.toList controller.shared.symbols, Known past symbol)
    (stepped : step server settings controller (.marketData index received) =
      some (controller', out)) :
    (∀ symbol ∈ core.toList controller'.shared.symbols, Known (past ++ out.map .inr) symbol) ∧
      Throughout (fun first entry => Introduced (past ++ first.map .inr) (.inr entry)) out := by
  obtain ⟨session, result, -, handled, done⟩ := step_marketData stepped
  obtain ⟨-, -, -, same, -⟩ := MarketData.onEvent_spec handled
  have first := introduced_onEvent known handled (.marketData session.index)
  have old : ∀ past' symbol, symbol ∈ core.toList result.shared.symbols →
      Known (past ++ past') symbol := by
    intro past' symbol listed
    rw [same] at listed
    exact (known symbol listed).append past'
  rcases done with ⟨-, rfl, rfl⟩ | ⟨rfl, rfl⟩
  · exact ⟨old _, first⟩
  · let handled' : Controller core :=
      { controller with
        shared := result.shared
        marketData := controller.marketData.set index result.session }
    have new : ∀ later symbol, symbol ∈ result.newSymbols →
        Known (past ++ (tag (.marketData session.index) result.outputs ++ later).map .inr)
          symbol := by
      intro later symbol listed
      obtain ⟨cause, member, describes⟩ := MarketData.describes_newSymbols handled listed
      refine ⟨.inr (.marketData session.index, cause), ?_, describes⟩
      refine List.mem_append_right _ (List.mem_map_of_mem (List.mem_append_left _ ?_))
      exact List.mem_map_of_mem member
    have both := fun later => @introduced_onSymbolsUpdate core handled' _ _
      (old ((tag (.marketData session.index) result.outputs ++ later).map .inr)) (new later)
    refine ⟨(both _).1, first.append ?_⟩
    exact throughout_of_forall fun entry member later => (both later).2 entry member

/-- **Step rule.**  What is put out at an event was introduced, by the event itself or
before. -/
theorem introduced_step {past : List (Event ⊕ Source × Output)}
    (own : ∀ symbols, event ≠ .symbolsUpdate symbols)
    (asked : ∀ symbols, event = .subscribe symbols → ∀ symbol ∈ symbols, Known past symbol)
    (known : ∀ symbol ∈ core.toList controller.shared.symbols, Known past symbol)
    (stepped : step server settings controller event = some (controller', out)) :
    (∀ symbol ∈ core.toList controller'.shared.symbols, Known (past ++ out.map .inr) symbol) ∧
      Throughout (fun first entry => Introduced (past ++ first.map .inr) (.inr entry)) out := by
  have quiet : controller'.shared.symbols = controller.shared.symbols →
      (∀ entry ∈ out, ∀ past, Introduced past (.inr entry)) →
      (∀ symbol ∈ core.toList controller'.shared.symbols, Known (past ++ out.map .inr) symbol) ∧
        Throughout (fun first entry => Introduced (past ++ first.map .inr) (.inr entry)) out := by
    intro same introduced
    rw [same]
    exact ⟨fun symbol listed => (known symbol listed).append _,
      throughout_of_forall fun entry member first => introduced entry member _⟩
  cases event with
  | symbolsUpdate symbols => exact absurd rfl (own symbols)
  | marketData index received => exact introduced_marketData known stepped
  | subscribe symbols =>
    obtain ⟨rfl, rfl⟩ := step_subscribe stepped
    have new : ∀ symbol ∈ (emplaceNew controller.shared.allSymbols symbols).2,
        Known past symbol :=
      fun symbol listed => asked symbols rfl symbol (subset_emplaceNew _ _ symbol listed)
    let entered : Controller core :=
      { controller with
        shared := { controller.shared with
          allSymbols := (emplaceNew controller.shared.allSymbols symbols).1 } }
    have both := fun later => @introduced_onSymbolsUpdate core entered (past ++ later) _
      (fun symbol listed => (known symbol listed).append later)
      (fun symbol listed => (new symbol listed).append later)
    exact ⟨(both _).1, throughout_of_forall fun entry member first => (both _).2 entry member⟩
  | timer now =>
    obtain ⟨rfl, rfl⟩ := step_timer stepped
    refine quiet rfl fun entry member past => ?_
    obtain ⟨session, -, tagged⟩ := List.mem_flatMap.mp member
    obtain ⟨output, sent, rfl⟩ := List.mem_map.mp tagged
    unfold MarketData.onTimer at sent
    split at sent
    · split at sent
      · cases List.mem_singleton.mp sent
        trivial
      · cases sent
    · cases sent
  | tokenUpdate account token =>
    obtain ⟨updated, rfl⟩ := step_tokenUpdate stepped
    exact quiet (congrArg Shared.symbols (onTokenUpdate_public updated).1) (by simp)
  | dropCopy account received =>
    obtain ⟨session, next, outputs, -, first, rfl, rfl⟩ := step_dropCopy stepped
    refine quiet rfl fun entry member past => ?_
    obtain ⟨output, sent, rfl⟩ := List.mem_map.mp member
    exact introduced_dropCopy first sent past _
  | request request =>
    obtain ⟨rfl, rfl | ⟨session, -, rfl⟩⟩ := step_request stepped
    · exact quiet rfl (by simp)
    · refine quiet rfl fun entry member past => ?_
      obtain ⟨output, sent, rfl⟩ := List.mem_map.mp member
      exact introduced_request sent past _
  | start | stop =>
    cases stepped
    exact quiet rfl (by simp)

/-- A trace from its events and what they put out. -/
theorem throughout_trace {past : List (Event ⊕ Source × Output)}
    (all : Throughout (fun first entry =>
      Introduced (past ++ [.inl event] ++ first.map .inr) (.inr entry)) out) :
    Throughout (fun before => Introduced (past ++ before)) (trace (event, out)) := by
  intro before entry later split
  cases before with
  | nil =>
    cases split
    trivial
  | cons first before =>
    obtain ⟨rfl, tail⟩ : .inl event = first ∧ out.map .inr = before ++ entry :: later :=
      List.cons.inj split
    obtain ⟨outputs, rest, same, rfl, sent⟩ := List.map_eq_append_iff.mp tail
    obtain ⟨output, after, rfl, rfl, -⟩ := List.map_eq_cons_iff.mp sent
    have here : Introduced (past ++ [.inl event] ++ outputs.map .inr) (.inr output) :=
      all outputs output after same
    rwa [List.append_assoc] at here

end Controller

namespace System

variable {core : Symbols} {download : OrderEntry.Download2} {decoders : OrderEntry.Decoders}
  {server : Server} {settings : Settings} {config : Config} {events : List Event}
  {system : System core download} {log : List (Event × List Emitted)}

/-- **Introductions.**  In every run of the gateway, with everything in the order in which it
comes in and goes out: the exchange is asked for a symbol only after a client has asked
for it or its reference data have gone out, on whichever connection, and a trading status
goes out only after the reference data of its symbol. -/
theorem introduced_run
    (ran : (step decoders server settings).run (create core download config) events =
      some (system, log)) :
    Throughout Controller.Introduced ((log.flatMap controllerTrace).flatMap Controller.trace) := by
  have kept : @Kept core server settings fun controller past =>
      (∀ symbol ∈ core.toList controller.shared.symbols,
        Controller.Known (past.flatMap Controller.trace) symbol) ∧
      Throughout Controller.Introduced (past.flatMap Controller.trace) := by
    constructor
    · rintro controller past event controller' out own ⟨known, introduced⟩ stepped
      have asked : ∀ symbols, event = .subscribe symbols → ∀ symbol ∈ symbols,
          Controller.Known (past.flatMap Controller.trace ++ [.inl event]) symbol := by
        rintro symbols rfl symbol listed
        exact ⟨_, List.mem_append_right _ (List.mem_singleton_self _), listed⟩
      obtain ⟨next, here⟩ := Controller.introduced_step own asked
        (fun symbol listed => (known symbol listed).append _) stepped
      rw [List.flatMap_append, List.flatMap_singleton]
      refine ⟨?_, introduced.append (Controller.throughout_trace here)⟩
      rwa [List.append_assoc] at next
    · exact fun _ _ inv => inv
  refine (controller_run kept ran ⟨fun symbol listed => ?_, throughout_nil⟩).2
  rw [show (Controller.create core config).shared.symbols = core.empty from rfl,
    core.toList_empty] at listed
  cases listed

/-- One symbol of a client, and one that the exchange lists while the stream is ready. -/
def listing : List Event :=
  [.controller (.subscribe ["BTC/USD"]) trivial,
    .controller (.marketData 0 .ready) trivial,
    .controller (.marketData 0 (.message .status)) trivial,
    .controller (.marketData 0 (.message (.instrument ⟨[{ symbol := "ETH/USD", status := .online }]⟩)))
      trivial]

theorem introduced_run_listing :
    ∃ (system : System (Symbols.chunked 128 (by decide)) OrderEntry.countingDownload)
      (log : List (Event × List Emitted)),
      (step OrderEntry.sampleDecoders ⟨255, fun _ => false⟩ {}).run (create _ _ ⟨["A1"], by decide⟩)
        listing = some (system, log) ∧
      "ETH/USD" ∈ requestedOn "book"
        (sentBy (.marketData 0) (log.flatMap fun entry => streamOutputs entry.2)) ∧
      Throughout Controller.Introduced
        ((log.flatMap controllerTrace).flatMap Controller.trace) := by
  have ran : ((step OrderEntry.sampleDecoders ⟨255, fun _ => false⟩ {}).run
      (create (Symbols.chunked 128 (by decide)) OrderEntry.countingDownload ⟨["A1"], by decide⟩)
      listing).any (fun result => "ETH/USD" ∈ requestedOn "book"
        (sentBy (.marketData 0) (result.2.flatMap fun entry => streamOutputs entry.2))) = true := by
    decide +kernel
  obtain ⟨⟨system, log⟩, ran, asked⟩ := Option.any_eq_true _ _ |>.mp ran
  exact ⟨system, log, ran, of_decide_eq_true asked, introduced_run ran⟩

end System

end RoqKraken.Gateway
