import RoqKraken.Gateway.Streams

/-!
# Subscriptions over a run of the gateway

What `Feed` knows about completeness and repetition holds of the frames a public
stream sent since its last disconnect: `served_run` and `subscribedOnce_run`.
The private sessions, which subscribe at each status message, are part of the
second.
-/

namespace RoqKraken.Gateway.Controller

variable {core : Symbols} {server : Server} {settings : Settings} {config : Config}
  {controller controller' : Controller core} {event : Event} {events : List Event}
  {out : List (Source × Output)} {log : List (Event × List (Source × Output))}

/-! ## Every symbol is served -/

theorem serves_run
    (ran : (step server settings).run (create core config) events = some (controller, log))
    (senders : ∀ event ∈ events, event.HasSender) : controller.Tables [] ∧
      ∀ index, ∃ feed : Feed String, feed.Sound ∧
        controller.Serves index (sentSince (.marketData index) log)
          (statusesSince (.marketData index) (log.map Prod.fst)) feed := by
  refine @Step.run_induction _ _ _ _ _ _ _ _
    (fun controller past => controller.Tables [] ∧ ∀ index, ∃ feed : Feed String, feed.Sound ∧
      controller.Serves index (sentSince (.marketData index) past)
        (statusesSince (.marketData index) (past.map Prod.fst)) feed) [] ran ?_
    ⟨tables_create, fun index => ⟨{}, ⟨nofun, nofun⟩, serves_create⟩⟩
  intro before past event after out member inv stepped
  obtain ⟨tables, follow⟩ := serves_step (senders event member) stepped inv.1
  refine ⟨tables, fun index => ?_⟩
  obtain ⟨feed, sound, serves⟩ := inv.2 index
  obtain ⟨added, serves⟩ := follow serves
  exact ⟨_, (sound.act _).act _, by simpa using serves⟩

/-- Each symbol of `all_symbols` occurs once in the symbol list and is in the
slice of exactly one stream, the one at the position its index says; and a stream
that is ready has requested, since its last disconnect, each channel for every
symbol of its slice and nothing else. -/
structure Served (controller : Controller core)
    (log : List (Event × List (Source × Output))) : Prop where
  once : ∀ symbol ∈ controller.shared.allSymbols,
    (core.toList controller.shared.symbols).count symbol = 1 ∧
      ∃! index, ∃ session, controller.marketData[index]? = some session ∧
        session.index = index ∧ symbol ∈ core.getSlice controller.shared.symbols index 0
  requested : ∀ (index : Nat) (session : MarketData),
    controller.marketData[index]? = some session → session.connectionStatus = .ready →
      ∀ channel symbol,
        (channel, symbol) ∈ (sentSince (.marketData index) log).flatMap Frame.requests ↔
          channel ∈ ["ticker", "trade", "book"] ∧
            symbol ∈ core.getSlice controller.shared.symbols index 0

theorem Tables.unique_slice (tables : controller.Tables []) {symbol : String}
    (known : symbol ∈ controller.shared.allSymbols) :
    ∃! index, ∃ session, controller.marketData[index]? = some session ∧
      session.index = index ∧ symbol ∈ core.getSlice controller.shared.symbols index 0 := by
  have listed : symbol ∈ core.toList controller.shared.symbols := by
    simpa using (tables.known symbol).mp known
  obtain ⟨position, bound, here⟩ := List.mem_iff_getElem.mp listed
  have found : (core.toList controller.shared.symbols)[position]? = some symbol :=
    List.getElem?_eq_some_iff.mpr ⟨bound, here⟩
  have stream := List.getElem?_eq_getElem (tables.sliced position bound)
  refine ⟨core.slice position, ⟨_, stream, tables.index _ _ stream,
    core.mem_getSlice.mpr ⟨position, found, rfl, Nat.zero_le _⟩⟩, ?_⟩
  rintro index ⟨-, -, -, member⟩
  obtain ⟨other, there, slice, -⟩ := core.mem_getSlice.mp member
  have nodup : (core.toList controller.shared.symbols).Nodup := by simpa using tables.nodup
  have same : position = other := (List.getElem?_inj bound nodup).mp (found.trans there.symm)
  rw [← slice, same]

/-- **Market data of a run.**  In every reachable state every symbol is served
by exactly its stream. -/
theorem served_run
    (ran : (step server settings).run (create core config) events = some (controller, log))
    (senders : ∀ event ∈ events, event.HasSender) : controller.Served log := by
  obtain ⟨tables, feeds⟩ := serves_run ran senders
  constructor
  · intro symbol known
    have nodup : (core.toList controller.shared.symbols).Nodup := by simpa using tables.nodup
    have listed : symbol ∈ core.toList controller.shared.symbols := by
      simpa using (tables.known symbol).mp known
    exact ⟨List.count_eq_one_of_mem nodup listed, tables.unique_slice known⟩
  · intro index session found up channel symbol
    obtain ⟨feed, sound, serves⟩ := feeds index
    have live : feed.live = true := by
      rw [serves.live, found]
      simpa [MarketData.ready] using up
    rw [← mem_requestedOn, serves.requested, ← serves.topics, ← sound.mem_requested_iff live]
    change _ ↔ channel ∈ MarketData.channels ∧ _
    split <;> simp [*]

/-- A stream comes up, a client subscribes, an instrument is announced, and the
private session comes up. -/
def startUp : List Event :=
  [.marketData 0 .ready, .marketData 0 (.message .status), .subscribe ["BTC/USD"],
    .marketData 0 (.message (.instrument
      ⟨[{ symbol := "ETH/USD", status := .online }, { symbol := "BTC/USD", status := .online }]⟩)),
    .tokenUpdate "A1" "T1", .dropCopy "A1" .ready, .dropCopy "A1" (.message .status fun _ => none)]

theorem served_run_startUp :
    ∃ (controller : Controller (Symbols.chunked 128 (by decide)))
      (log : List (Event × List (Source × Output))),
      (step ⟨255, fun _ => false⟩ {}).run (create _ ⟨["A1"], by decide⟩) startUp =
        some (controller, log) ∧ controller.Served log := by
  refine ⟨_, _, rfl, ?_⟩
  exact @served_run _ ⟨255, fun _ => false⟩ {} ⟨["A1"], by decide⟩ _ startUp _ rfl
    (by simp [startUp, Event.HasSender])

/-! ## Nothing is requested twice -/

/-- No stream receives two status messages without a disconnect in between. -/
def OneStatusPerConnection (events : List Event) : Prop :=
  ∀ source past later, events = past ++ later → statusesSince source past ≤ 1

theorem OneStatusPerConnection.of_append {past later : List Event}
    (one : OneStatusPerConnection (past ++ later)) : OneStatusPerConnection past :=
  fun source first rest cut => one source first (rest ++ later) (by rw [cut, List.append_assoc])

theorem statusesSince_le_countP (source : Source) (events : List Event) :
    statusesSince source events ≤ events.countP (Event.isStatus source) := by
  induction events using List.reverseRecOn with
  | nil => rfl
  | append_singleton events event ih =>
    rw [statusesSince_concat, nextStatuses, List.countP_append, List.countP_singleton]
    split
    · exact Nat.zero_le _
    · split <;> omega

/-- In particular when no stream receives a second status message at all. -/
theorem OneStatusPerConnection.of_countP
    (few : ∀ source, events.countP (Event.isStatus source) ≤ 1) :
    OneStatusPerConnection events := by
  rintro source past later rfl
  refine (statusesSince_le_countP source past).trans (le_trans ?_ (few source))
  rw [List.countP_append]
  exact Nat.le_add_right _ _

/-- Since its last disconnect no stream sent a second request for a channel and
symbol, or for a channel as a whole. -/
structure SubscribedOnce (log : List (Event × List (Source × Output))) : Prop where
  symbols : ∀ index, ((sentSince (.marketData index) log).flatMap Frame.requests).Nodup
  static : ∀ index, (sentSince (.marketData index) log).count (.subscribe "instrument") ≤ 1
  token : ∀ account, ((sentSince (.dropCopy account) log).filterMap Frame.channel?).Nodup

/-- The public side: a stream that comes up at most once per connection is a feed
that requests nothing twice. -/
theorem once_run
    (ran : (step server settings).run (create core config) events = some (controller, log))
    (senders : ∀ event ∈ events, event.HasSender)
    (one : OneStatusPerConnection events) (index : Nat) : ∃ feed : Feed String, feed.Once ∧
      controller.Serves index (sentSince (.marketData index) log)
        (statusesSince (.marketData index) events) feed := by
  have listed : log.map Prod.fst = events := Step.map_fst_log ran
  rw [← listed] at one ⊢
  have inv := @Step.run_induction _ _ _ _ _ _ _ _
    (fun controller past => OneStatusPerConnection (past.map Prod.fst) →
      controller.Tables [] ∧ ∃ feed : Feed String, feed.Sound ∧ feed.Once ∧
        controller.Serves index (sentSince (.marketData index) past)
          (statusesSince (.marketData index) (past.map Prod.fst)) feed) [] ran ?_
    (fun _ => ⟨tables_create, {}, ⟨nofun, nofun⟩, ⟨List.nodup_nil, fun _ => ⟨rfl, rfl⟩⟩,
      serves_create⟩) one
  · obtain ⟨-, feed, -, once, serves⟩ := inv
    exact ⟨feed, once, serves⟩
  intro before past event after out member inv stepped one
  rw [List.map_append] at one
  obtain ⟨tables, feed, sound, once, serves⟩ := inv one.of_append
  obtain ⟨tables, follow⟩ := serves_step (senders event member) stepped tables
  obtain ⟨added, serves⟩ := follow serves
  have topics : ((feed.act (event.action index)).act (.announce added)).topics.Nodup := by
    rw [serves.topics]
    exact core.nodup_getSlice (by simpa using tables.nodup)
  have arrivals : ((feed.act (event.action index)).act (.announce added)).arrivals ≤ 1 := by
    rw [serves.arrivals]
    simpa using one (.marketData index) _ [] (List.append_nil _).symm
  have first := once.act sound (event.action index) (List.nodup_append'.mp topics).1 arrivals
  exact ⟨tables, _, (sound.act _).act _, first.act (sound.act _) _ topics arrivals,
    by simpa using serves⟩

/-- The private side: a session asks for its channels at each status message. -/
theorem channels_step (account : String)
    (stepped : step server settings controller event = some (controller', out)) :
    (sentBy (.dropCopy account) out).filterMap Frame.channel? =
      if event.isStatus (.dropCopy account) then ["executions", "balances"] else [] := by
  have publicSide : ∀ (streams : List MarketData) (outputs : MarketData → List Output),
      sentBy (.dropCopy account) (streams.flatMap fun session =>
        tag (.marketData session.index) (outputs session)) = [] := by
    intro streams outputs
    induction streams with
    | nil => rfl
    | cons session streams ih =>
      rw [List.flatMap_cons, sentBy_append, ih, sentBy_tag_of_ne _ (by simp), List.append_nil]
  cases event with
  | dropCopy name received =>
    obtain ⟨session, next, outputs, -, first, -, rfl⟩ := step_dropCopy stepped
    by_cases here : name = account
    · subst here
      simpa [Event.isStatus] using DropCopy.step_channels first
    · rw [sentBy_tag_of_ne _ (by simpa using here)]
      simp [Event.isStatus, Ne.symm here]
  | request request =>
    obtain ⟨-, rfl | ⟨session, -, rfl⟩⟩ := step_request stepped
    · rfl
    · by_cases here : session.account = account
      · simp [here, Event.isStatus, DropCopy.onRequest]
      · rw [sentBy_tag_of_ne _ (by simpa using here)]
        rfl
  | marketData position received =>
    obtain ⟨session, result, -, -, ⟨-, -, rfl⟩ | ⟨-, rfl⟩⟩ := step_marketData stepped
    · rw [sentBy_tag_of_ne _ (by simp)]
      simp [Event.isStatus]
    · rw [sentBy_append, sentBy_tag_of_ne _ (by simp)]
      simp [publicSide, onSymbolsUpdate, Event.isStatus]
  | subscribe symbols =>
    cases stepped
    simp [publicSide, Event.isStatus]
  | symbolsUpdate symbols =>
    cases stepped
    simp [publicSide, Event.isStatus]
  | timer now =>
    cases stepped
    simp [publicSide, Event.isStatus]
  | start | stop =>
    cases stepped
    rfl
  | tokenUpdate name token =>
    obtain ⟨-, rfl⟩ := step_tokenUpdate stepped
    rfl

theorem channels_run
    (ran : (step server settings).run (create core config) events = some (controller, log))
    (account : String) : (sentSince (.dropCopy account) log).filterMap Frame.channel? =
      (List.replicate (statusesSince (.dropCopy account) (log.map Prod.fst))
        ["executions", "balances"]).flatten := by
  refine @Step.run_induction _ _ _ _ _ _ _ _
    (fun _ past => (sentSince (.dropCopy account) past).filterMap Frame.channel? =
      (List.replicate (statusesSince (.dropCopy account) (past.map Prod.fst))
        ["executions", "balances"]).flatten) [] ran ?_ rfl
  intro before past event after out member inv stepped
  have asked := channels_step account stepped
  have exclusive : event.disconnects (.dropCopy account) = true →
      event.isStatus (.dropCopy account) = false := by
    intro dropped
    cases event with
    | dropCopy name received => cases received <;> simp_all [Event.disconnects, Event.isStatus,
        DropCopy.Event.isDisconnected, DropCopy.Event.isStatus]
    | _ => cases dropped
  rw [sentSince_concat, nextSent, List.map_append, List.map_singleton, statusesSince_concat,
    nextStatuses, List.filterMap_append, asked]
  by_cases dropped : event.disconnects (.dropCopy account) = true
  · simp [dropped, exclusive dropped]
  · by_cases status : event.isStatus (.dropCopy account) = true
    · simp [dropped, status, inv, List.replicate_succ']
    · simp [dropped, status, inv]

/-- **Subscriptions of a run.**  With at most one status message per connection,
no stream requests anything twice on a connection. -/
theorem subscribedOnce_run
    (ran : (step server settings).run (create core config) events = some (controller, log))
    (senders : ∀ event ∈ events, event.HasSender)
    (one : OneStatusPerConnection events) : SubscribedOnce log := by
  refine ⟨fun index => nodup_requests fun channel => ?_, fun index => ?_, fun account => ?_⟩
  · obtain ⟨feed, once, serves⟩ := once_run ran senders one index
    rw [serves.requested]
    split
    · exact once.nodup
    · exact List.nodup_nil
  · obtain ⟨feed, -, serves⟩ := once_run ran senders one index
    rw [serves.static, serves.arrivals]
    split
    · exact one _ _ [] (List.append_nil _).symm
    · exact Nat.zero_le _
  · have few : statusesSince (.dropCopy account) events ≤ 1 :=
      one _ _ [] (List.append_nil _).symm
    rw [channels_run ran account, Step.map_fst_log ran]
    rcases Nat.le_one_iff_eq_zero_or_eq_one.mp few with none | once
    · rw [none]
      decide
    · rw [once]
      decide

theorem subscribedOnce_run_startUp :
    ∃ (controller : Controller (Symbols.chunked 128 (by decide)))
      (log : List (Event × List (Source × Output))),
      (step ⟨255, fun _ => false⟩ {}).run (create _ ⟨["A1"], by decide⟩) startUp =
        some (controller, log) ∧ SubscribedOnce log := by
  refine ⟨_, _, rfl, ?_⟩
  refine @subscribedOnce_run (Symbols.chunked 128 (by decide)) ⟨255, fun _ => false⟩ {}
    ⟨["A1"], by decide⟩ _ startUp _ rfl (by simp [startUp, Event.HasSender]) (.of_countP ?_)
  intro source
  cases source with
  | marketData index =>
    by_cases first : index = 0
    · subst first
      decide
    · simp [startUp, Event.isStatus, first]
  | dropCopy account =>
    by_cases own : account = "A1"
    · subst own
      decide
    · simp [startUp, Event.isStatus, own]

/-- The exchange repeats its status message, and everything is requested again. -/
theorem repeated_status_subscribes_twice :
    ¬ ∀ (core : Symbols) (server : Server) (settings : Settings) (config : Config)
      (events : List Event) (controller : Controller core)
      (log : List (Event × List (Source × Output))),
      (step server settings).run (create core config) events = some (controller, log) →
      (∀ event ∈ events, event.HasSender) → SubscribedOnce log := by
  intro once
  have twice := once (Symbols.chunked 128 (by decide)) ⟨255, fun _ => false⟩ {}
    ⟨["A1"], by decide⟩
    [.marketData 0 .ready, .marketData 0 (.message .status), .marketData 0 (.message .status)]
    _ _ rfl (by simp [Event.HasSender])
  exact absurd (twice.static 0) (by decide)

end RoqKraken.Gateway.Controller
