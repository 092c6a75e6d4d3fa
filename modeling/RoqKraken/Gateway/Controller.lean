import RoqKraken.WhileLoop
import RoqKraken.Gateway.DropCopy
import RoqKraken.Gateway.MarketData

/-!
# `Controller`: the gateway

The controller as `controller.cpp` has it.  It owns the streams, creates the
private session of an account when its token arrives, adds public streams as
symbols are announced, and routes order requests.  One machine takes everything
that reaches it: client and timer events, the updates its streams hand over, and
the events of the connections of its streams.

The state of an `OrderEntry` is not part of this module: the controller knows
its stream id, and all its order handlers raise.
-/

namespace RoqKraken.Gateway

/-- The configured accounts; the configuration is a map by name. -/
structure Config where
  accounts : List String
  nodup : accounts.Nodup

structure Controller (core : Symbols) where
  shared : Shared core
  streamId : UInt16
  marketData : List MarketData
  /-- The stream id of the `OrderEntry` of each account. -/
  orderEntry : List (String × UInt16)
  /-- A session is null until the first token of its account. -/
  dropCopy : List (String × Option DropCopy)

/-- The stream an output comes from. -/
inductive Source where
  | marketData (index : Nat)
  | dropCopy (account : String)
deriving DecidableEq

/-- The outputs of one stream, marked as such. -/
def tag (source : Source) (outputs : List Output) : List (Source × Output) :=
  outputs.map fun output => (source, output)

@[simp] theorem mem_tag {source from_ : Source} {output : Output} {outputs : List Output} :
    (from_, output) ∈ tag source outputs ↔ from_ = source ∧ output ∈ outputs := by
  simp only [tag, List.mem_map, Prod.mk.injEq]
  constructor
  · rintro ⟨_, member, rfl, rfl⟩
    exact ⟨rfl, member⟩
  · rintro ⟨rfl, member⟩
    exact ⟨_, member, rfl, rfl⟩

@[simp] theorem map_snd_tag (source : Source) (outputs : List Output) :
    (tag source outputs).map Prod.snd = outputs := by
  simp [tag, Function.comp_def]

namespace Controller

variable {core : Symbols}

/-! ## Construction -/

/-- `create_order_entry`, with the stream id counter. -/
def createOrderEntry (streamId : UInt16) : List String → UInt16 × List (String × UInt16)
  | [] => (streamId, [])
  | account :: accounts =>
    let streamId := streamId + 1
    let (last, streams) := createOrderEntry streamId accounts
    (last, (account, streamId) :: streams)

/-- `create_drop_copy`. -/
def createDropCopy (accounts : List String) : List (String × Option DropCopy) :=
  accounts.map fun account => (account, none)

/-- The constructor. -/
def create (core : Symbols) (config : Config) : Controller core :=
  let streamId := 1
  let marketData := [{ streamId, index := 0 }]
  let (streamId, orderEntry) := createOrderEntry streamId config.accounts
  { shared := { symbols := core.empty }
    streamId
    marketData
    orderEntry
    dropCopy := createDropCopy config.accounts }

/-! ## Symbols -/

/-- One round of the loop of `ensure_symbol_slices`. -/
def addMarketData (controller : Controller core) : Controller core :=
  let streamId := controller.streamId + 1
  let index := controller.marketData.length
  { controller with streamId, marketData := controller.marketData ++ [{ streamId, index }] }

/-- `ensure_symbol_slices`: add streams while there are fewer than slices. -/
def ensureSymbolSlices (controller : Controller core) (size : Nat) : Controller core :=
  (size - controller.marketData.length).repeat addMarketData controller

/-- The loop of `ensure_symbol_slices`. -/
def SliceLoop (size : Nat) : Controller core → Controller core → Prop :=
  While (fun controller => controller.marketData.length < size) addMarketData

namespace SliceLoop

variable {size : Nat} {controller controller' other : Controller core}

theorem enough (loop : SliceLoop size controller controller') :
    size ≤ controller'.marketData.length := by
  unfold SliceLoop at loop
  exact Nat.le_of_not_lt loop.not_continues

theorem unique (loop : SliceLoop size controller controller')
    (loop' : SliceLoop size controller other) : controller' = other := by
  unfold SliceLoop at loop loop'
  exact loop.unique loop'

/-- What a new stream keeps holds where the loop is left. -/
theorem invariant {Inv : Controller core → Prop} (loop : SliceLoop size controller controller')
    (keeps : ∀ state, Inv state → Inv state.addMarketData) (holds : Inv controller) :
    Inv controller' := by
  unfold SliceLoop at loop
  exact loop.invariant (fun state _ => keeps state) holds

end SliceLoop

/-- The loop ends. -/
theorem sliceLoop_ensureSymbolSlices (controller : Controller core) (size : Nat) :
    SliceLoop size controller (controller.ensureSymbolSlices size) := by
  have length : ∀ count, (count.repeat addMarketData controller).marketData.length =
      controller.marketData.length + count := by
    intro count
    induction count with
    | zero => rfl
    | succ count ih =>
      simp only [Nat.repeat, addMarketData, List.length_append, List.length_singleton, ih]
      exact Nat.add_assoc ..
  refine While.of_rounds (fun round bound => ?_) ?_
  · rw [length]
    omega
  · rw [length]
    omega

/-- `operator()(Trace<SymbolsUpdate>)`. -/
def onSymbolsUpdate (controller : Controller core) (symbols : List String) :
    Controller core × List (Source × Output) :=
  let (state, size, startFrom) := core.append controller.shared.symbols symbols
  let controller := { controller with shared := { controller.shared with symbols := state } }
  let controller := controller.ensureSymbolSlices size
  (controller, controller.marketData.flatMap fun session =>
    tag (.marketData session.index) (session.subscribe state startFrom))

/-- `operator()(Event<Subscribe>)`. -/
def onSubscribe (controller : Controller core) (symbols : List String) :
    Controller core × List (Source × Output) :=
  let (allSymbols, new) := emplaceNew controller.shared.allSymbols symbols
  { controller with shared := { controller.shared with allSymbols } }.onSymbolsUpdate new

/-! ## Tokens -/

/-- `(*iter).second = session` in the table of private sessions. -/
def assign (account : String) (session : DropCopy) (table : List (String × Option DropCopy)) :
    List (String × Option DropCopy) :=
  table.map fun entry => if entry.1 = account then (account, some session) else entry

theorem lookup_assign (account key : String) (session : DropCopy)
    (table : List (String × Option DropCopy)) :
    (assign account session table).lookup key =
      if key = account then (table.lookup key).map fun _ => some session
      else table.lookup key := by
  induction table with
  | nil => simp [assign]
  | cons entry table ih =>
    obtain ⟨name, value⟩ := entry
    simp only [assign, List.map_cons] at ih ⊢
    by_cases here : name = account
    · subst here
      by_cases found : key = name
      · simp [found]
      · simpa [found, List.lookup_cons, beq_false_of_ne found] using ih
    · by_cases found : key = name
      · subst found
        simp [here]
      · simpa [here, List.lookup_cons, beq_false_of_ne found] using ih

/-- `operator()(Trace<TokenUpdate>)`; `none` is `log::fatal`.  A session that
exists keeps its token. -/
def onTokenUpdate (controller : Controller core) (account token : String) :
    Option (Controller core) :=
  match controller.dropCopy.lookup account with
  | none => none
  | some (some _) => some controller
  | some none =>
    let streamId := controller.streamId + 1
    let session : DropCopy := { streamId, account, token }
    some
      { controller with
        streamId
        dropCopy := assign account session controller.dropCopy }

/-! ## Order requests -/

/-- What the handlers throw. -/
inductive RequestError where
  | notImplemented
  | notSupported
  | unknownAccount (account : String)
deriving DecidableEq, Repr

/-- `get_order_entry`. -/
def getOrderEntry (controller : Controller core) (account : String) :
    Except RequestError UInt16 :=
  match controller.orderEntry.lookup account with
  | some streamId => .ok streamId
  | none => .error (.unknownAccount account)

/-- `get_drop_copy`.  The reference it returns is null where the pointer is. -/
def getDropCopy (controller : Controller core) (account : String) :
    Except RequestError (Option DropCopy) :=
  match controller.dropCopy.lookup account with
  | some session => .ok session
  | none => .error (.unknownAccount account)

theorem getDropCopy_eq_ok {controller : Controller core} {account : String}
    {session : Option DropCopy} : controller.getDropCopy account = .ok session ↔
      controller.dropCopy.lookup account = some session := by
  unfold getDropCopy
  split <;> simp [*]

/-- The order handlers of `OrderEntry`. -/
def orderEntryError : DropCopy.Request → RequestError
  | .createOrder .. => .notImplemented
  | .modifyOrder .. => .notImplemented
  | .cancelOrder .. => .notImplemented
  | .cancelAllOrders _ => .notSupported

/-- How a request ends: a session took it and answered with its stream id, an
exception was raised, or a null reference was used. -/
inductive Outcome where
  | handled (session : DropCopy) (streamId : UInt16) (outputs : List Output)
  | raised (error : RequestError)
  | nullDereference
deriving DecidableEq

/-- The four order handlers. -/
def onRequest (controller : Controller core) (settings : Settings)
    (request : DropCopy.Request) : Outcome :=
  if settings.wsApi then
    match controller.getDropCopy request.account with
    | .ok (some session) =>
      let (streamId, outputs) := session.onRequest request
      .handled session streamId outputs
    | .ok none => .nullDereference
    | .error error => .raised error
  else
    match controller.getOrderEntry request.account with
    | .ok _ => .raised (orderEntryError request)
    | .error error => .raised error

/-- A request that is handled goes to the session of the account it names. -/
theorem session_of_onRequest {controller : Controller core} {settings : Settings}
    {request : DropCopy.Request} {session : DropCopy} {streamId : UInt16} {outputs : List Output}
    (handled : controller.onRequest settings request = .handled session streamId outputs) :
    controller.dropCopy.lookup request.account = some (some session) ∧
      (streamId, outputs) = session.onRequest request := by
  unfold onRequest at handled
  split at handled
  · split at handled
    · next found =>
      cases handled
      exact ⟨getDropCopy_eq_ok.mp found, rfl⟩
    · cases handled
    · cases handled
  · split at handled <;> cases handled

/-! ## The gateway as a machine -/

/-- What reaches the controller and its streams.  `marketData` and `dropCopy`
are events of the connection of a stream. -/
inductive Event where
  | start
  | stop
  | timer (now : Int)
  | subscribe (symbols : List String)
  | symbolsUpdate (symbols : List String)
  | tokenUpdate (account token : String)
  | request (request : DropCopy.Request)
  | marketData (index : Nat) (event : MarketData.Event)
  | dropCopy (account : String) (event : DropCopy.Event)

/-- `operator()(Trace<Timer>)`. -/
def onTimer (controller : Controller core) (settings : Settings) (now : Int) :
    Controller core × List (Source × Output) :=
  ({ controller with
      marketData := controller.marketData.map fun session => (session.onTimer settings now).1 },
    controller.marketData.flatMap fun session =>
      tag (.marketData session.index) (session.onTimer settings now).2)

/-- An event of a public stream.  New symbols go to the controller. -/
def onMarketData (controller : Controller core) (server : Server) (settings : Settings)
    (index : Nat) (event : MarketData.Event) :
    Option (Controller core × List (Source × Output)) := do
  let session ← controller.marketData[index]?
  let result ← session.onEvent server settings controller.shared event
  let controller :=
    { controller with
      shared := result.shared
      marketData := controller.marketData.set index result.session }
  let outputs := tag (.marketData session.index) result.outputs
  if result.newSymbols.isEmpty then
    some (controller, outputs)
  else
    let (controller, sent) := controller.onSymbolsUpdate result.newSymbols
    some (controller, outputs ++ sent)

/-- An event of a private session. -/
def onDropCopy (controller : Controller core) (server : Server) (settings : Settings)
    (account : String) (event : DropCopy.Event) :
    Option (Controller core × List (Source × Output)) := do
  let session ← (controller.dropCopy.lookup account).join
  let (session, outputs) ← session.step server settings event
  some
    ({ controller with dropCopy := assign account session controller.dropCopy },
      tag (.dropCopy account) outputs)

/-- One event of the gateway.  `none`: the process stops, or there is no such
stream. -/
def step (server : Server) (settings : Settings) :
    Step (Controller core) Event (List (Source × Output)) :=
  fun controller event =>
    match event with
    | .start => some (controller, [])
    | .stop => some (controller, [])
    | .timer now => some (controller.onTimer settings now)
    | .subscribe symbols => some (controller.onSubscribe symbols)
    | .symbolsUpdate symbols => some (controller.onSymbolsUpdate symbols)
    | .tokenUpdate account token =>
      (controller.onTokenUpdate account token).map fun controller => (controller, [])
    | .request request =>
      match controller.onRequest settings request with
      | .handled session _ outputs => some (controller, tag (.dropCopy session.account) outputs)
      | .raised _ => some (controller, [])
      | .nullDereference => none
    | .marketData index event => controller.onMarketData server settings index event
    | .dropCopy account event => controller.onDropCopy server settings account event

/-! ## What a step does -/

section Step

variable {server : Server} {settings : Settings} {controller controller' : Controller core}
  {out : List (Source × Output)}

/-- An event of a public stream is handled by the stream, and its new symbols, if
there are any, are announced to all streams. -/
theorem step_marketData {index : Nat} {event : MarketData.Event}
    (stepped : step server settings controller (.marketData index event) =
      some (controller', out)) :
    ∃ session result, controller.marketData[index]? = some session ∧
      session.onEvent server settings controller.shared event = some result ∧
      let handled : Controller core :=
        { controller with
          shared := result.shared
          marketData := controller.marketData.set index result.session }
      let outputs := tag (.marketData session.index) result.outputs
      (result.newSymbols = [] ∧ controller' = handled ∧ out = outputs) ∨
        (controller' = (handled.onSymbolsUpdate result.newSymbols).1 ∧
          out = outputs ++ (handled.onSymbolsUpdate result.newSymbols).2) := by
  simp only [step, onMarketData, Option.bind_eq_bind, Option.bind_eq_some_iff] at stepped
  obtain ⟨session, found, result, handled, rest⟩ := stepped
  refine ⟨session, result, found, handled, ?_⟩
  split at rest
  · next quiet =>
    cases rest
    exact .inl ⟨List.isEmpty_iff.mp quiet, rfl, rfl⟩
  · cases rest
    exact .inr ⟨rfl, rfl⟩

/-- An event of a private session is a step of the session. -/
theorem step_dropCopy {account : String} {event : DropCopy.Event}
    (stepped : step server settings controller (.dropCopy account event) =
      some (controller', out)) :
    ∃ session next outputs, controller.dropCopy.lookup account = some (some session) ∧
      session.step server settings event = some (next, outputs) ∧
      controller' =
        { controller with dropCopy := assign account next controller.dropCopy } ∧
      out = tag (.dropCopy account) outputs := by
  simp only [step, onDropCopy, Option.bind_eq_bind, Option.bind_eq_some_iff] at stepped
  obtain ⟨session, found, ⟨next, outputs⟩, first, rest⟩ := stepped
  cases rest
  exact ⟨session, next, outputs, Option.join_eq_some_iff.mp found, first, rfl, rfl⟩

/-- A request changes nothing in the gateway; the session of the account sends
it, or an exception is raised. -/
theorem step_request {request : DropCopy.Request}
    (stepped : step server settings controller (.request request) = some (controller', out)) :
    controller' = controller ∧
      (out = [] ∨ ∃ session, controller.dropCopy.lookup request.account = some (some session) ∧
        out = tag (.dropCopy session.account) (session.onRequest request).2) := by
  simp only [step] at stepped
  split at stepped
  · next session streamId outputs handled =>
    cases stepped
    obtain ⟨found, answer⟩ := session_of_onRequest handled
    cases answer
    exact ⟨rfl, .inr ⟨session, found, rfl⟩⟩
  · cases stepped
    exact ⟨rfl, .inl rfl⟩
  · cases stepped

/-- A token update changes the table of private sessions. -/
theorem step_tokenUpdate {account token : String}
    (stepped : step server settings controller (.tokenUpdate account token) =
      some (controller', out)) :
    controller.onTokenUpdate account token = some controller' ∧ out = [] := by
  obtain ⟨updated, result, rest⟩ := Option.map_eq_some_iff.mp stepped
  cases rest
  exact ⟨result, rfl⟩

/-- What streams send while symbols are announced dispatches nothing. -/
theorem dispatches_onSymbolsUpdate (symbols : List String) :
    dispatches ((controller.onSymbolsUpdate symbols).2.map Prod.snd) = [] := by
  rw [List.eq_nil_iff_forall_not_mem]
  intro event member
  rw [mem_dispatches] at member
  simp only [onSymbolsUpdate, List.map_flatMap, List.mem_flatMap, map_snd_tag] at member
  obtain ⟨session, -, member⟩ := member
  unfold MarketData.subscribe at member
  split at member
  · simp [MarketData.subscribeSymbols, MarketData.subscribeChannel] at member
  · cases member

theorem dispatches_onTimer (now : Int) :
    dispatches ((controller.onTimer settings now).2.map Prod.snd) = [] := by
  rw [List.eq_nil_iff_forall_not_mem]
  intro event member
  rw [mem_dispatches] at member
  simp only [onTimer, List.map_flatMap, List.mem_flatMap, map_snd_tag] at member
  obtain ⟨session, -, member⟩ := member
  unfold MarketData.onTimer at member
  split at member
  · split at member <;> simp at member
  · cases member

/-- What an event of the gateway dispatches is what the stream it is for does. -/
theorem step_dispatches {event : Event}
    (stepped : step server settings controller event = some (controller', out)) :
    (∃ index received session result, event = .marketData index received ∧
      MarketData.onEvent session server settings controller.shared received = some result ∧
      dispatches (out.map Prod.snd) = dispatches result.outputs) ∨
    (∃ account received session next outputs, event = .dropCopy account received ∧
      DropCopy.step server settings session received = some (next, outputs) ∧
      dispatches (out.map Prod.snd) = dispatches outputs) ∨
    ((∀ index received, event ≠ .marketData index received) ∧
      dispatches (out.map Prod.snd) = []) := by
  cases event with
  | marketData index received =>
    obtain ⟨session, result, -, handled, ⟨-, -, rfl⟩ | ⟨-, rfl⟩⟩ := step_marketData stepped
    · exact .inl ⟨index, received, session, result, rfl, handled, by rw [map_snd_tag]⟩
    · refine .inl ⟨index, received, session, result, rfl, handled, ?_⟩
      rw [List.map_append, dispatches_append, dispatches_onSymbolsUpdate, List.append_nil,
        map_snd_tag]
  | dropCopy account received =>
    obtain ⟨session, next, outputs, -, first, -, rfl⟩ := step_dropCopy stepped
    exact .inr (.inl ⟨account, received, session, next, outputs, rfl, first, by rw [map_snd_tag]⟩)
  | subscribe symbols =>
    cases stepped
    exact .inr (.inr ⟨by simp, dispatches_onSymbolsUpdate _⟩)
  | symbolsUpdate symbols =>
    cases stepped
    exact .inr (.inr ⟨by simp, dispatches_onSymbolsUpdate symbols⟩)
  | timer now =>
    cases stepped
    exact .inr (.inr ⟨by simp, dispatches_onTimer now⟩)
  | request request =>
    obtain ⟨-, rfl | ⟨session, -, rfl⟩⟩ := step_request stepped
    · exact .inr (.inr ⟨by simp, rfl⟩)
    · exact .inr (.inr ⟨by simp, by rw [map_snd_tag]; rfl⟩)
  | tokenUpdate account token =>
    obtain ⟨-, rfl⟩ := step_tokenUpdate stepped
    exact .inr (.inr ⟨by simp, rfl⟩)
  | start | stop =>
    cases stepped
    exact .inr (.inr ⟨by simp, rfl⟩)

end Step

end Controller

end RoqKraken.Gateway
