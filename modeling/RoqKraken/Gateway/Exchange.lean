import RoqKraken.Gateway.PrivateSessions
import RoqKraken.Gateway.Subscriptions
import RoqKraken.Gateway.System
import RoqKraken.Gateway.Wire

/-!
# What the exchange has been asked for

The exchange sees the texts of the gateway, not its state.  `texts_run`: whatever the
gateway sends in a run is a JSON object without repeated keys that says what the frame
says.  `exchange_run`: while all public streams are ready, the exchange has been asked
on these connections for each channel of exactly the symbols that clients and
instrument messages announced, and for each of them on exactly one connection.
`limited_run`: on one connection it has never been asked for more symbols than
`core::Symbols` puts into a slice.
-/

namespace RoqKraken.Gateway

open JsonText

/-! ## Reading requests -/

/-- The value of a member of an object. -/
def member? (key : String) : Value → Option Value
  | .object members => members.lookup key
  | _ => none

/-- The symbols that are listed, each with the channel. -/
def listedSymbols (channel : String) (symbols : List Value) : List (String × String) :=
  symbols.filterMap fun
    | .string symbol => some (channel, symbol)
    | _ => none

/-- The channel and symbol pairs that a request subscribes to. -/
def subscriptions (request : Value) : List (String × String) :=
  match member? "method" request, member? "params" request with
  | some (.string method), some params =>
    if method = "subscribe" then
      match member? "channel" params, member? "symbol" params with
      | some (.string channel), some (.array symbols) => listedSymbols channel symbols
      | _, _ => []
    else []
  | _, _ => []

/-- What the exchange is asked for in texts. -/
def exchangeReads (texts : List String) : List (String × String) :=
  texts.flatMap fun text => ((read text.toList).map subscriptions).getD []

theorem listedSymbols_strings (channel : String) (symbols : List String) :
    listedSymbols channel (symbols.map .string) = symbols.map fun symbol => (channel, symbol) := by
  simp [listedSymbols, List.filterMap_map]

theorem subscriptions_value (format : Format) (settings : Settings) (frame : Frame) :
    subscriptions (frame.value format settings) = frame.requests := by
  cases frame with
  | subscribeSymbols channel symbols =>
    simp [subscriptions, member?, Frame.value, Frame.requests, List.lookup_cons,
      listedSymbols_strings]
  | subscribeToken channel token =>
    by_cases executions : channel = "executions" <;>
      simp [subscriptions, member?, Frame.value, Frame.requests, List.lookup_cons, executions]
  | _ => simp [subscriptions, member?, Frame.value, Frame.requests, List.lookup_cons, requestValue]

theorem exchangeReads_texts {format : Format} (lawful : format.Lawful) (settings : Settings)
    {sent : List Frame} (encodable : ∀ frame ∈ sent, frame.Encodable) :
    exchangeReads (sent.map (Frame.text format settings)) = sent.flatMap Frame.requests := by
  rw [exchangeReads, List.flatMap_map]
  refine List.flatMap_congr fun frame member => ?_
  rw [Frame.read_text lawful (encodable frame member), Option.map_some, Option.getD_some,
    subscriptions_value]

/-! ## Symbols that are announced -/

/-- The symbols of pairs that are not discarded. -/
def MarketData.Event.announced (server : Server) : MarketData.Event → List String
  | .message (.instrument instrument) =>
    (instrument.pairs.filter fun item => !MarketData.discard server item).map
      Json.InstrumentDataPairsItem.symbol
  | _ => []

theorem MarketData.onEvent_announced {core : Symbols} {session : MarketData} {server : Server}
    {settings : Settings} {shared : Shared core} {event : MarketData.Event}
    {result : MarketData.Result core}
    (handled : session.onEvent server settings shared event = some result) :
    emplaceNew shared.allSymbols (event.announced server) =
      (result.shared.allSymbols, result.newSymbols) := by
  cases event with
  | message message =>
    cases message with
    | instrument instrument =>
      cases handled
      exact instrumentLoop_symbols session server settings shared.allSymbols instrument.pairs
    | _ => cases handled <;> rfl
  | _ => cases handled <;> rfl

theorem subset_emplaceNew (allSymbols : Finset String) (symbols : List String) :
    ∀ symbol ∈ (emplaceNew allSymbols symbols).2, symbol ∈ symbols := by
  induction symbols generalizing allSymbols with
  | nil => simp [emplaceNew]
  | cons first symbols ih =>
    intro symbol member
    unfold emplaceNew at member
    split at member
    · exact List.mem_cons_of_mem _ (ih _ symbol member)
    · rcases List.mem_cons.mp member with rfl | member
      · exact List.mem_cons_self ..
      · exact List.mem_cons_of_mem _ (ih _ symbol member)

theorem mem_emplaceNew {allSymbols : Finset String} {symbols : List String} {symbol : String} :
    symbol ∈ (emplaceNew allSymbols symbols).1 ↔ symbol ∈ allSymbols ∨ symbol ∈ symbols := by
  induction symbols generalizing allSymbols with
  | nil => simp [emplaceNew]
  | cons first symbols ih =>
    unfold emplaceNew
    split
    · next known =>
      rw [ih, List.mem_cons]
      constructor
      · exact Or.imp_right .inr
      · rintro (old | rfl | new)
        · exact .inl old
        · exact .inl known
        · exact .inr new
    · simp only [ih, Finset.mem_insert, List.mem_cons]
      tauto

namespace Controller

variable {core : Symbols} {server : Server} {settings : Settings} {config : Config}
  {controller controller' : Controller core} {event : Event} {events : List Event}
  {out : List (Source × Output)} {log : List (Event × List (Source × Output))}

/-- The symbols an event announces. -/
def Event.announced (server : Server) : Event → List String
  | .subscribe symbols => symbols
  | .marketData _ received => received.announced server
  | _ => []

theorem allSymbols_step (sender : event.HasSender)
    (stepped : step server settings controller event = some (controller', out)) (symbol : String) :
    symbol ∈ controller'.shared.allSymbols ↔
      symbol ∈ controller.shared.allSymbols ∨ symbol ∈ event.announced server := by
  cases event with
  | symbolsUpdate symbols => cases sender
  | subscribe symbols =>
    have entered : controller'.shared.allSymbols =
        (emplaceNew controller.shared.allSymbols symbols).1 := by
      rw [(step_subscribe stepped).1]
      exact congrArg Shared.allSymbols (shared_onSymbolsUpdate _)
    rw [entered, mem_emplaceNew]
    rfl
  | marketData index received =>
    obtain ⟨session, result, -, handled, done⟩ := step_marketData stepped
    have entered : result.shared.allSymbols =
        (emplaceNew controller.shared.allSymbols (received.announced server)).1 :=
      (congrArg Prod.fst (MarketData.onEvent_announced handled)).symm
    have same : controller'.shared.allSymbols = result.shared.allSymbols := by
      rcases done with ⟨-, rfl, -⟩ | ⟨rfl, -⟩
      · rfl
      · rw [shared_onSymbolsUpdate]
    rw [same, entered, mem_emplaceNew]
    rfl
  | tokenUpdate account token =>
    rw [(onTokenUpdate_public (step_tokenUpdate stepped).1).1]
    simp [Event.announced]
  | request request =>
    rw [(step_request stepped).1]
    simp [Event.announced]
  | dropCopy account received =>
    obtain ⟨session, next, outputs, -, -, rfl, -⟩ := step_dropCopy stepped
    simp [Event.announced]
  | start | stop | timer now =>
    cases stepped
    simp [Event.announced]

/-- The gateway knows the symbols that were announced, and no others. -/
theorem allSymbols_run
    (ran : (step server settings).run (create core config) events = some (controller, log))
    (senders : ∀ event ∈ events, event.HasSender) (symbol : String) :
    symbol ∈ controller.shared.allSymbols ↔
      ∃ event ∈ events, symbol ∈ event.announced server := by
  rw [← Step.map_fst_log ran]
  refine @Step.run_induction _ _ _ _ _ _ _ _
    (fun (controller : Controller core) past => symbol ∈ controller.shared.allSymbols ↔
      ∃ event ∈ past.map Prod.fst, symbol ∈ event.announced server) [] ran ?_ ?_
  · intro controller past event controller' out member inv stepped
    rw [allSymbols_step (senders event member) stepped, inv, List.map_append, List.map_singleton]
    simp only [List.mem_append, List.mem_singleton, or_and_right, exists_or, exists_eq_left]
  · simp [create]

/-! ## Texts that need no escaping -/

/-- What an event brings in can be written as it is. -/
def Event.Clean (server : Server) : Event → Prop
  | .subscribe symbols | .symbolsUpdate symbols => ∀ symbol ∈ symbols, Plain symbol
  | .marketData _ received => ∀ symbol ∈ received.announced server, Plain symbol
  | .tokenUpdate _ token => Plain token
  | .request asked => ∀ token, Plain token → (asked.frame token).Encodable
  | .dropCopy _ (.request asked) => ∀ token, Plain token → (asked.frame token).Encodable
  | _ => True

/-- What the gateway writes can be written as it is. -/
structure Clean (controller : Controller core) : Prop where
  symbols : ∀ symbol ∈ core.toList controller.shared.symbols, Plain symbol
  tokens : ∀ account name token, controller.entry account = some (some (name, token)) →
    Plain token

theorem Clean.token (clean : controller.Clean) {account : String} {session : DropCopy}
    (found : controller.dropCopy.lookup account = some (some session)) : Plain session.token :=
  clean.tokens account session.account session.token (by rw [entry, found]; rfl)

/-- Tokens come in with token updates. -/
theorem tokens_step (clean : controller.Clean) (plain : event.Clean server)
    (stepped : step server settings controller event = some (controller', out))
    {account name token : String} (found : controller'.entry account = some (some (name, token))) :
    Plain token := by
  rw [entry_step stepped] at found
  obtain ⟨before, had, now⟩ := Option.map_eq_some_iff.mp found
  cases before with
  | some session =>
    cases now
    exact clean.tokens account _ _ had
  | none =>
    obtain ⟨own, handed, same⟩ := Option.map_eq_some_iff.mp now
    cases same
    cases event with
    | tokenUpdate holder granted =>
      simp only [Event.tokenFor] at handed
      split at handed
      · cases handed
        exact plain
      · cases handed
    | _ => cases handed

theorem encodable_subscribeSymbols {symbols : List String}
    (plain : ∀ symbol ∈ symbols, Plain symbol) :
    ∀ frame ∈ frames (MarketData.subscribeSymbols symbols), frame.Encodable := by
  have one : ∀ channel, Plain channel →
      ∀ frame ∈ frames (MarketData.subscribeChannel channel symbols), frame.Encodable := by
    intro channel plainChannel frame member
    unfold MarketData.subscribeChannel at member
    split at member
    · cases member
    · next nonempty =>
      cases List.mem_singleton.mp member
      exact ⟨plainChannel, by simpa using nonempty, plain⟩
  intro frame member
  simp only [MarketData.subscribeSymbols, frames_append, List.mem_append] at member
  rcases member with (ticker | trade) | book
  · exact one "ticker" (by decide) frame ticker
  · exact one "trade" (by decide) frame trade
  · exact one "book" (by decide) frame book

/-- A slice has symbols of the list only. -/
theorem forall_getSlice {P : String → Prop} {state : core.State}
    (all : ∀ symbol ∈ core.toList state, P symbol) (index start : Nat) :
    ∀ symbol ∈ core.getSlice state index start, P symbol := by
  intro symbol member
  obtain ⟨position, found, -⟩ := core.mem_getSlice.mp member
  exact all symbol (List.mem_of_getElem? found)

/-- The symbols that an event may put on the list. -/
def Event.listed (server : Server) : Event → List String
  | .symbolsUpdate symbols => symbols
  | event => event.announced server

theorem Event.Clean.plain_listed (clean : event.Clean server) :
    ∀ symbol ∈ event.listed server, Plain symbol := by
  cases event with
  | subscribe symbols | symbolsUpdate symbols | marketData index received => exact clean
  | _ => exact fun _ member => nomatch member

theorem mem_symbols_onSymbolsUpdate {symbols : List String} {symbol : String} :
    symbol ∈ core.toList (controller.onSymbolsUpdate symbols).1.shared.symbols ↔
      symbol ∈ core.toList controller.shared.symbols ∨ symbol ∈ symbols := by
  rw [shared_onSymbolsUpdate]
  simp only [core.toList_append, List.mem_append]

/-- A step puts nothing else on the list. -/
theorem mem_symbols_step
    (stepped : step server settings controller event = some (controller', out)) {symbol : String}
    (member : symbol ∈ core.toList controller'.shared.symbols) :
    symbol ∈ core.toList controller.shared.symbols ∨ symbol ∈ event.listed server := by
  cases event with
  | marketData index received =>
    obtain ⟨session, result, -, handled, done⟩ := step_marketData stepped
    obtain ⟨-, -, -, same, -⟩ := MarketData.onEvent_spec handled
    rcases done with ⟨-, rfl, -⟩ | ⟨rfl, -⟩
    · exact .inl (same ▸ member)
    · refine (mem_symbols_onSymbolsUpdate.mp member).imp (fun old => same ▸ old) fun new => ?_
      refine subset_emplaceNew controller.shared.allSymbols (received.announced server) symbol ?_
      rwa [MarketData.onEvent_announced handled]
  | subscribe symbols =>
    rw [(step_subscribe stepped).1] at member
    refine (mem_symbols_onSymbolsUpdate.mp member).imp_right fun new => ?_
    exact subset_emplaceNew _ _ symbol new
  | symbolsUpdate symbols =>
    rw [(step_symbolsUpdate stepped).1] at member
    exact mem_symbols_onSymbolsUpdate.mp member
  | tokenUpdate account token =>
    rw [(onTokenUpdate_public (step_tokenUpdate stepped).1).1] at member
    exact .inl member
  | request request =>
    rw [(step_request stepped).1] at member
    exact .inl member
  | dropCopy account received =>
    obtain ⟨session, next, outputs, -, -, rfl, -⟩ := step_dropCopy stepped
    exact .inl member
  | start | stop | timer now =>
    cases stepped
    exact .inl member

/-- What the streams send when more symbols are announced. -/
theorem encodable_onSymbolsUpdate {symbols : List String}
    (plain : ∀ symbol ∈ core.toList (controller.onSymbolsUpdate symbols).1.shared.symbols,
      Plain symbol) {source : Source} {frame : Frame}
    (sent : (source, .send frame) ∈ (controller.onSymbolsUpdate symbols).2) :
    frame.Encodable := by
  rw [shared_onSymbolsUpdate] at plain
  obtain ⟨session, -, sent⟩ := List.mem_flatMap.mp sent
  obtain ⟨-, sent⟩ := mem_tag.mp sent
  unfold MarketData.subscribe at sent
  split at sent
  · exact encodable_subscribeSymbols (forall_getSlice plain _ _) frame (mem_frames.mpr sent)
  · cases sent

/-- A public stream sends what its symbols allow. -/
theorem encodable_marketSends {session : MarketData} {received : MarketData.Event}
    {state : core.State} (plain : ∀ symbol ∈ core.toList state, Plain symbol) :
    ∀ frame ∈ frames (received.sends session state), frame.Encodable := by
  intro frame member
  unfold MarketData.Event.sends at member
  split at member
  · rw [frames_append, List.mem_append] at member
    rcases member with static | symbols
    · have plainName : Plain "instrument" := by decide
      split at static
      · cases List.mem_singleton.mp static
        exact plainName
      · cases static
    · exact encodable_subscribeSymbols (forall_getSlice plain _ _) frame symbols
  · cases member

/-- **Public frames.**  They have the symbols of the list. -/
theorem encodable_public
    (stepped : step server settings controller event = some (controller', out))
    (old : ∀ symbol ∈ core.toList controller.shared.symbols, Plain symbol)
    (new : ∀ symbol ∈ core.toList controller'.shared.symbols, Plain symbol)
    {index : Nat} {frame : Frame} (sent : (.marketData index, .send frame) ∈ out) :
    frame.Encodable := by
  cases event with
  | marketData index received =>
    obtain ⟨session, result, -, handled, done⟩ := step_marketData stepped
    obtain ⟨-, -, sends, -, -⟩ := MarketData.onEvent_spec handled
    have own : ∀ {source frame}, (source, Output.send frame) ∈
        tag (.marketData session.index) result.outputs → frame.Encodable := by
      intro source frame sent
      have member := mem_frames.mpr (mem_tag.mp sent).2
      rw [sends] at member
      exact encodable_marketSends old frame member
    rcases done with ⟨-, rfl, rfl⟩ | ⟨rfl, rfl⟩
    · exact own sent
    · rcases List.mem_append.mp sent with first | second
      · exact own first
      · exact encodable_onSymbolsUpdate new second
  | subscribe symbols =>
    obtain ⟨rfl, rfl⟩ := step_subscribe stepped
    exact encodable_onSymbolsUpdate new sent
  | symbolsUpdate symbols =>
    obtain ⟨rfl, rfl⟩ := step_symbolsUpdate stepped
    exact encodable_onSymbolsUpdate new sent
  | timer now =>
    obtain ⟨rfl, rfl⟩ := step_timer stepped
    obtain ⟨session, -, sent⟩ := List.mem_flatMap.mp sent
    rw [(session.onTimer_spec settings now).2.2 frame (mem_frames.mpr (mem_tag.mp sent).2)]
    trivial
  | tokenUpdate account token =>
    obtain ⟨-, rfl⟩ := step_tokenUpdate stepped
    cases sent
  | dropCopy account received =>
    obtain ⟨session, next, outputs, -, -, -, rfl⟩ := step_dropCopy stepped
    cases (mem_tag.mp sent).1
  | request request =>
    obtain ⟨-, rfl | ⟨session, found, rfl⟩⟩ := step_request stepped
    · cases sent
    · cases (mem_tag.mp sent).1
  | start | stop =>
    cases stepped
    cases sent

theorem encodable_sends {token : String} {received : DropCopy.Event} (plain : Plain token)
    (asked : ∀ request, received = .request request → (request.frame token).Encodable) :
    ∀ frame ∈ received.sends token, frame.Encodable := by
  intro frame member
  unfold DropCopy.Event.sends at member
  split at member
  · have plainExecutions : Plain "executions" := by decide
    have plainBalances : Plain "balances" := by decide
    simp only [List.mem_cons, List.not_mem_nil, or_false] at member
    rcases member with rfl | rfl
    · exact ⟨plainExecutions, plain⟩
    · exact ⟨plainBalances, plain⟩
  · next request =>
    cases List.mem_singleton.mp member
    exact asked request rfl
  · cases member

/-- **Private frames.**  They have the token of the session and what is asked. -/
theorem encodable_private (clean : controller.Clean) (plain : event.Clean server)
    (stepped : step server settings controller event = some (controller', out))
    {account : String} {frame : Frame} (sent : (.dropCopy account, .send frame) ∈ out) :
    frame.Encodable := by
  have updates : ∀ {holder : Controller core} {symbols : List String},
      (Source.dropCopy account, Output.send frame) ∉ (holder.onSymbolsUpdate symbols).2 := by
    intro holder symbols sent
    obtain ⟨session, -, sent⟩ := List.mem_flatMap.mp sent
    cases (mem_tag.mp sent).1
  cases event with
  | dropCopy account received =>
    obtain ⟨session, next, outputs, found, first, rfl, rfl⟩ := step_dropCopy stepped
    have own := mem_frames.mpr (mem_tag.mp sent).2
    rw [DropCopy.step_frames first] at own
    refine encodable_sends (clean.token found) (fun request same => ?_) frame own
    subst same
    exact plain _ (clean.token found)
  | request request =>
    obtain ⟨rfl, rfl | ⟨session, found, rfl⟩⟩ := step_request stepped
    · cases sent
    · cases List.mem_singleton.mp (mem_tag.mp sent).2
      exact plain _ (clean.token found)
  | marketData index received =>
    obtain ⟨session, result, -, -, ⟨-, -, rfl⟩ | ⟨-, rfl⟩⟩ := step_marketData stepped
    · cases (mem_tag.mp sent).1
    · rcases List.mem_append.mp sent with first | second
      · cases (mem_tag.mp first).1
      · exact (updates second).elim
  | subscribe symbols =>
    obtain ⟨rfl, rfl⟩ := step_subscribe stepped
    exact (updates sent).elim
  | symbolsUpdate symbols =>
    obtain ⟨rfl, rfl⟩ := step_symbolsUpdate stepped
    exact (updates sent).elim
  | timer now =>
    obtain ⟨rfl, rfl⟩ := step_timer stepped
    obtain ⟨session, -, sent⟩ := List.mem_flatMap.mp sent
    cases (mem_tag.mp sent).1
  | tokenUpdate account token =>
    obtain ⟨-, rfl⟩ := step_tokenUpdate stepped
    cases sent
  | start | stop =>
    cases stepped
    cases sent

/-- **Step rule for texts.**  What comes in clean goes out encodable. -/
theorem clean_step (clean : controller.Clean) (plain : event.Clean server)
    (stepped : step server settings controller event = some (controller', out)) :
    controller'.Clean ∧ ∀ source frame, (source, .send frame) ∈ out → frame.Encodable := by
  have symbols : ∀ symbol ∈ core.toList controller'.shared.symbols, Plain symbol := by
    intro symbol member
    exact (mem_symbols_step stepped member).elim (clean.symbols symbol)
      (plain.plain_listed symbol)
  refine ⟨⟨symbols, fun account name token found => tokens_step clean plain stepped found⟩, ?_⟩
  intro source frame sent
  cases source with
  | marketData index => exact encodable_public stepped clean.symbols symbols sent
  | dropCopy account => exact encodable_private clean plain stepped sent

/-! ## Runs -/

theorem clean_run
    (ran : (step server settings).run (create core config) events = some (controller, log))
    (clean : ∀ event ∈ events, event.Clean server) :
    ∀ entry ∈ log, ∀ source frame, (source, .send frame) ∈ entry.2 → frame.Encodable := by
  refine Step.forall_mem_log ran (fun controller event controller' out member held stepped =>
    clean_step held (clean event member) stepped) ⟨?_, fun account name token found => ?_⟩
  · simp [create, core.toList_empty]
  · rw [entry_create] at found
    split at found <;> cases found

/-- Where the announced symbols need no escaping, no public frame does. -/
theorem public_run
    (ran : (step server settings).run (create core config) events = some (controller, log))
    (senders : ∀ event ∈ events, event.HasSender)
    (plain : ∀ event ∈ events, ∀ symbol ∈ event.announced server, Plain symbol) :
    ∀ entry ∈ log, ∀ index frame, (.marketData index, .send frame) ∈ entry.2 →
      frame.Encodable := by
  have start : ∀ symbol ∈ core.toList (create core config).shared.symbols, Plain symbol := by
    simp [create, core.toList_empty]
  refine @Step.forall_mem_log _ _ _ _ _ _ _ _ (fun controller : Controller core =>
    ∀ symbol ∈ core.toList controller.shared.symbols, Plain symbol) _ ran ?_ start
  intro controller event controller' out member old stepped
  have listed : event.listed server = event.announced server := by
    cases event with
    | symbolsUpdate symbols => exact (senders _ member).elim
    | _ => rfl
  have new : ∀ symbol ∈ core.toList controller'.shared.symbols, Plain symbol := by
    intro symbol there
    refine (mem_symbols_step stepped there).elim (old symbol) fun announced => ?_
    exact plain event member symbol (listed ▸ announced)
  exact ⟨new, fun index frame => encodable_public stepped old new⟩

/-- **Texts of a run.**  Whatever a gateway that is not handed anything to escape sends, on
any connection, is one JSON object without repeated keys: the one of its frame. -/
theorem texts_run {format : Format} (lawful : format.Lawful)
    (ran : (step server settings).run (create core config) events = some (controller, log))
    (clean : ∀ event ∈ events, event.Clean server) {entry : Event × List (Source × Output)}
    (listed : entry ∈ log) {source : Source} {frame : Frame}
    (sent : (source, .send frame) ∈ entry.2) :
    read (frame.text format settings).toList = some (frame.value format settings) ∧
      (frame.value format settings).uniqueKeys = true :=
  ⟨Frame.read_text lawful (clean_run ran clean entry listed source frame sent),
    Frame.uniqueKeys_value format settings frame⟩

/-- A limit order. -/
def limitOrder : DropCopy.Request :=
  .createOrder ⟨"A1", "BTC/USD", .buy, .limit, .gtc, 2.0, 100.0⟩ ⟨7, 1000, 0, "", ""⟩
    ⟨none, none⟩ "roq-1"

theorem clean_startUp_limitOrder :
    ∀ event ∈ startUp ++ [.request limitOrder], event.Clean ⟨255, fun _ => false⟩ := by
  have order : ∀ token, Plain token → (limitOrder.frame token).Encodable := fun token plain =>
    ⟨plain, by decide, "buy", "limit", by decide, rfl, rfl, .inr rfl, by decide, .inr (by decide)⟩
  rw [List.forall_mem_append, List.forall_mem_singleton]
  refine ⟨?_, order⟩
  simp only [startUp, List.forall_mem_cons, List.not_mem_nil, Event.Clean, false_implies,
    implies_true, and_true]
  decide

/-- An order once the session has its token. -/
theorem texts_run_limitOrder :
    ∃ (controller : Controller (Symbols.chunked 128 (by decide)))
      (log : List (Event × List (Source × Output))) (entry : Event × List (Source × Output)),
      (step ⟨255, fun _ => false⟩ {}).run (create _ ⟨["A1"], by decide⟩)
        (startUp ++ [.request limitOrder]) = some (controller, log) ∧
      entry ∈ log ∧ (.dropCopy "A1", .send (limitOrder.frame "T1")) ∈ entry.2 ∧
      read ((limitOrder.frame "T1").text wholeFormat {}).toList =
          some ((limitOrder.frame "T1").value wholeFormat {}) ∧
        ((limitOrder.frame "T1").value wholeFormat {}).uniqueKeys = true := by
  have asked : (Source.dropCopy "A1", Output.send (limitOrder.frame "T1")) ∈
      (Event.request limitOrder, [(Source.dropCopy "A1", Output.send (limitOrder.frame "T1"))]).2 :=
    List.mem_singleton_self _
  refine ⟨_, _, _, rfl, List.mem_of_getLast? rfl, asked, ?_⟩
  exact @texts_run (Symbols.chunked 128 (by decide)) ⟨255, fun _ => false⟩ {} ⟨["A1"], by decide⟩ _
    (startUp ++ [.request limitOrder]) _ wholeFormat wholeFormat_lawful rfl
    clean_startUp_limitOrder _ (List.mem_of_getLast? rfl) (.dropCopy "A1") _ asked

theorem plain_startUp : ∀ event ∈ startUp, ∀ symbol ∈ event.announced ⟨255, fun _ => false⟩,
    Plain symbol := by
  decide

/-- What was sent since the last disconnect was sent at some time. -/
theorem mem_sentSince {source : Source} {frame : Frame}
    {past : List (Event × List (Source × Output))} (sent : frame ∈ sentSince source past) :
    ∃ entry ∈ past, (source, .send frame) ∈ entry.2 := by
  induction past using List.reverseRecOn with
  | nil => cases sent
  | append_singleton past entry ih =>
    rw [sentSince_concat, nextSent, List.mem_append] at sent
    rcases sent with old | new
    · split at old
      · cases old
      · obtain ⟨earlier, member, there⟩ := ih old
        exact ⟨earlier, List.mem_append_left _ member, there⟩
    · refine ⟨entry, by simp, ?_⟩
      simp only [sentBy, mem_frames, List.mem_map, List.mem_filter, decide_eq_true_eq] at new
      obtain ⟨⟨from_, output⟩, ⟨member, rfl⟩, rfl⟩ := new
      exact member

/-- What the exchange reads on the connection of a public stream. -/
def exchangeReadsOn (format : Format) (settings : Settings) (index : Nat)
    (log : List (Event × List (Source × Output))) : List (String × String) :=
  exchangeReads ((sentSince (.marketData index) log).map (Frame.text format settings))

/-- The exchange reads what the feed of the stream requested. -/
theorem mem_exchangeReadsOn {format : Format} (lawful : format.Lawful)
    (ran : (step server settings).run (create core config) events = some (controller, log))
    (senders : ∀ event ∈ events, event.HasSender)
    (plain : ∀ event ∈ events, ∀ symbol ∈ event.announced server, Plain symbol)
    {index statuses : Nat} {feed : Feed String}
    (serves : controller.Serves index (sentSince (.marketData index) log) statuses feed)
    {channel symbol : String} :
    (channel, symbol) ∈ exchangeReadsOn format settings index log ↔
      channel ∈ MarketData.channels ∧ symbol ∈ feed.requested := by
  have encodable : ∀ frame ∈ sentSince (.marketData index) log, frame.Encodable := by
    intro frame sent
    obtain ⟨entry, member, there⟩ := mem_sentSince sent
    exact public_run ran senders plain entry member index frame there
  rw [exchangeReadsOn, exchangeReads_texts lawful settings encodable, ← mem_requestedOn,
    serves.requested]
  split <;> simp [*]

/-- **The exchange's side of a run.**  While the public streams are ready, a channel and a
symbol have been asked for on exactly one connection if the channel is one of the three and
the symbol was announced, and on no connection otherwise. -/
theorem exchange_run {format : Format} (lawful : format.Lawful)
    (ran : (step server settings).run (create core config) events = some (controller, log))
    (senders : ∀ event ∈ events, event.HasSender)
    (plain : ∀ event ∈ events, ∀ symbol ∈ event.announced server, Plain symbol)
    (ready : ∀ session ∈ controller.marketData, session.connectionStatus = .ready)
    (channel symbol : String) :
    ((∃ index, (channel, symbol) ∈ exchangeReadsOn format settings index log) ↔
        channel ∈ ["ticker", "trade", "book"] ∧
          ∃ event ∈ events, symbol ∈ event.announced server) ∧
      ∀ index other, (channel, symbol) ∈ exchangeReadsOn format settings index log →
        (channel, symbol) ∈ exchangeReadsOn format settings other log → index = other := by
  obtain ⟨tables, feeds⟩ := serves_run ran senders
  have nodup : (core.toList controller.shared.symbols).Nodup := by simpa using tables.nodup
  have known : symbol ∈ core.toList controller.shared.symbols ↔
      ∃ event ∈ events, symbol ∈ event.announced server := by
    rw [← allSymbols_run ran senders, tables.known, List.append_nil]
  have asked : ∀ index, (channel, symbol) ∈ exchangeReadsOn format settings index log ↔
      channel ∈ MarketData.channels ∧ symbol ∈ core.getSlice controller.shared.symbols index 0 := by
    intro index
    obtain ⟨feed, sound, serves⟩ := feeds index
    have complete : symbol ∈ feed.requested ↔ symbol ∈ feed.topics := by
      refine ⟨sound.own symbol, fun topic => ?_⟩
      rw [serves.topics] at topic
      obtain ⟨position, found, rfl, -⟩ := core.mem_getSlice.mp topic
      have bound := tables.sliced position (List.getElem?_eq_some_iff.mp found).1
      have live : feed.live = true := by
        rw [serves.live, List.getElem?_eq_getElem bound, Option.any_some, MarketData.ready]
        exact decide_eq_true (ready _ (List.getElem_mem bound))
      exact sound.complete live symbol (by rwa [serves.topics])
    rw [mem_exchangeReadsOn lawful ran senders plain serves, complete, serves.topics]
  constructor
  · simp only [asked]
    constructor
    · rintro ⟨index, here, member⟩
      obtain ⟨position, found, -⟩ := core.mem_getSlice.mp member
      exact ⟨here, known.mp (List.mem_of_getElem? found)⟩
    · rintro ⟨here, announced⟩
      obtain ⟨position, found⟩ := List.mem_iff_getElem?.mp (known.mpr announced)
      exact ⟨_, here, core.mem_getSlice.mpr ⟨position, found, rfl, Nat.zero_le _⟩⟩
  · intro index other first second
    obtain ⟨position, found, rfl, -⟩ := core.mem_getSlice.mp ((asked index).mp first).2
    obtain ⟨position', found', rfl, -⟩ := core.mem_getSlice.mp ((asked other).mp second).2
    have bound := (List.getElem?_eq_some_iff.mp found).1
    rw [(List.getElem?_inj bound nodup).mp (found.trans found'.symm)]

theorem exchange_run_startUp :
    ∃ (controller : Controller (Symbols.chunked 128 (by decide)))
      (log : List (Event × List (Source × Output))),
      (step ⟨255, fun _ => false⟩ {}).run (create _ ⟨["A1"], by decide⟩) startUp =
        some (controller, log) ∧
      ((∃ index, ("book", "ETH/USD") ∈ exchangeReadsOn wholeFormat {} index log) ↔
          "book" ∈ ["ticker", "trade", "book"] ∧
            ∃ event ∈ startUp, "ETH/USD" ∈ event.announced ⟨255, fun _ => false⟩) ∧
        ∀ index other, ("book", "ETH/USD") ∈ exchangeReadsOn wholeFormat {} index log →
          ("book", "ETH/USD") ∈ exchangeReadsOn wholeFormat {} other log → index = other := by
  refine ⟨_, _, rfl, ?_⟩
  exact @exchange_run (Symbols.chunked 128 (by decide)) ⟨255, fun _ => false⟩ {}
    ⟨["A1"], by decide⟩ _ startUp _ wholeFormat wholeFormat_lawful rfl
    (by simp [startUp, Event.HasSender]) plain_startUp (by decide) "book" "ETH/USD"

/-! ## How much is asked for on one connection -/

/-- A slice takes at most `limit` positions. -/
def SliceLimit (core : Symbols) (limit : Nat) : Prop :=
  ∀ index bound, ((List.range bound).filter fun position => core.slice position = index).length ≤
    limit

theorem sliceLimit_chunked {size : Nat} (positive : 0 < size) :
    SliceLimit (Symbols.chunked size positive) size := by
  intro index bound
  let positions := (List.range bound).filter fun position => position / size = index
  have nodup : positions.Nodup := List.nodup_range.filter _
  have within : positions.toFinset ⊆ Finset.Ico (index * size) (index * size + size) := by
    intro position member
    obtain ⟨-, here⟩ := List.mem_filter.mp (List.mem_toFinset.mp member)
    have here : position / size = index := of_decide_eq_true here
    rw [Nat.div_eq_iff positive] at here
    rw [Finset.mem_Ico]
    omega
  calc positions.length = positions.toFinset.card := (List.toFinset_card_of_nodup nodup).symm
    _ ≤ (Finset.Ico (index * size) (index * size + size)).card := Finset.card_le_card within
    _ = size := by simp

theorem length_getSlice_le {limit : Nat} (room : SliceLimit core limit) (state : core.State)
    (index : Nat) : (core.getSlice state index 0).length ≤ limit := by
  have positions : ((core.toList state).zipIdx.map Prod.snd).filter
      (fun position => core.slice position = index) =
        ((core.toList state).zipIdx.filter fun entry => core.slice entry.2 = index).map
          Prod.snd := List.filter_map ..
  have bounded := room index (core.toList state).length
  rw [List.zipIdx_map_snd, ← List.range_eq_range'] at positions
  rw [positions, List.length_map] at bounded
  simpa [core.getSlice_eq, slicePart] using bounded

/-- **One connection.**  Between two drops of a connection, in any state of its stream, the
exchange is asked on it for at most as many symbols as a slice takes. -/
theorem limited_run {format : Format} (lawful : format.Lawful)
    (ran : (step server settings).run (create core config) events = some (controller, log))
    (senders : ∀ event ∈ events, event.HasSender)
    (plain : ∀ event ∈ events, ∀ symbol ∈ event.announced server, Plain symbol)
    {limit : Nat} (room : SliceLimit core limit) (index : Nat) :
    ((exchangeReadsOn format settings index log).map Prod.snd).toFinset.card ≤ limit := by
  obtain ⟨-, feeds⟩ := serves_run ran senders
  obtain ⟨feed, sound, serves⟩ := feeds index
  have topics : ((exchangeReadsOn format settings index log).map Prod.snd).toFinset ⊆
      feed.topics.toFinset := by
    intro symbol member
    obtain ⟨⟨channel, _⟩, listed, rfl⟩ := List.mem_map.mp (List.mem_toFinset.mp member)
    obtain ⟨-, requested⟩ := (mem_exchangeReadsOn lawful ran senders plain serves).mp listed
    exact List.mem_toFinset.mpr (sound.own _ requested)
  calc _ ≤ feed.topics.toFinset.card := Finset.card_le_card topics
    _ ≤ feed.topics.length := List.toFinset_card_le _
    _ ≤ limit := by
      rw [serves.topics]
      exact length_getSlice_le room _ index

/-- Two symbols, one on each of two connections. -/
theorem limited_run_startUp :
    ∃ (controller : Controller (Symbols.chunked 1 (by decide)))
      (log : List (Event × List (Source × Output))),
      (step ⟨255, fun _ => false⟩ {}).run (create _ ⟨["A1"], by decide⟩) startUp =
        some (controller, log) ∧
      ∀ index, ((exchangeReadsOn wholeFormat {} index log).map Prod.snd).toFinset.card ≤ 1 := by
  refine ⟨_, _, rfl, ?_⟩
  exact @limited_run (Symbols.chunked 1 (by decide)) ⟨255, fun _ => false⟩ {}
    ⟨["A1"], by decide⟩ _ startUp _ wholeFormat wholeFormat_lawful rfl
    (by simp [startUp, Event.HasSender]) plain_startUp 1 (sliceLimit_chunked (by decide))

end Controller

end RoqKraken.Gateway
