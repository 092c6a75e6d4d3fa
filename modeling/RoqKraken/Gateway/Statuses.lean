import RoqKraken.Mirror
import RoqKraken.Gateway.PublicStreams

/-!
# The published connection statuses

Every stream publishes the changes of its connection status in a `StreamStatus` under
its id.  `statuses` is what the streams hold, and `step_announces` shows that an event
of the gateway changes it as it is announced; so a client that keeps the last
`StreamStatus` of each id has the status of every stream at any time,
`published_run`, as long as the ids are distinct.
-/

namespace RoqKraken.Gateway

open Mirror

/-! ## What is announced -/

/-- The id and the status in a `StreamStatus`. -/
def Dispatch.announced : Dispatch → Option (UInt16 × ConnectionStatus)
  | .streamStatus status => some (status.streamId, status.connectionStatus)
  | _ => none

def announcedBy (events : List Dispatch) : List (UInt16 × ConnectionStatus) :=
  events.filterMap Dispatch.announced

/-- A handler that dispatches no `StreamStatus` announces nothing. -/
theorem announcedBy_map_dispatch {events : List Dispatch}
    (quiet : ∀ event ∈ events, event.announced = none) :
    announcedBy (dispatches (events.map .dispatch)) = [] := by
  rw [dispatches_map_dispatch]
  exact List.filterMap_eq_nil_iff.mpr quiet

namespace MarketData

variable {core : Symbols} {server : Server} {settings : Settings} {session : MarketData}
  {shared : Shared core}

def ownStatus (session : MarketData) : UInt16 × ConnectionStatus :=
  (session.streamId, session.connectionStatus)

/-- A stream announces its status exactly when an event sets it. -/
theorem onEvent_ownStatus {event : Event} {result : Result core}
    (handled : session.onEvent server settings shared event = some result) :
    (result.session.ownStatus = session.ownStatus ∧
        announcedBy (dispatches result.outputs) = []) ∨
      ∃ status, result.session.ownStatus = (session.streamId, status) ∧
        announcedBy (dispatches result.outputs) = [(session.streamId, status)] := by
  cases event with
  | disconnected | ready =>
    cases handled
    exact .inr ⟨_, rfl, rfl⟩
  | latency sample =>
    cases handled
    exact .inl ⟨rfl, rfl⟩
  | binary => cases handled
  | message message =>
    cases message with
    | status =>
      cases handled
      exact .inr ⟨.ready, rfl, congrArg announcedBy (dispatches_onStatus session shared.symbols)⟩
    | instrument instrument =>
      cases handled
      refine .inl ⟨rfl, announcedBy_map_dispatch fun event member => ?_⟩
      rcases kinds_of_mem_instrumentLoop member with ⟨_, rfl⟩ | ⟨_, rfl⟩ <;> rfl
    | ticker ticker =>
      cases handled
      refine .inl ⟨rfl, announcedBy_map_dispatch fun event member => ?_⟩
      obtain ⟨item, -, listed⟩ := List.mem_flatMap.mp member
      simp only [List.mem_cons, List.not_mem_nil, or_false] at listed
      rcases listed with rfl | rfl <;> rfl
    | trade trade =>
      cases handled
      refine .inl ⟨rfl, announcedBy_map_dispatch fun event member => ?_⟩
      obtain ⟨_, rfl⟩ := kinds_of_mem_trades member
      rfl
    | book book =>
      cases handled
      refine .inl ⟨rfl, announcedBy_map_dispatch fun event member => ?_⟩
      obtain ⟨_, rfl⟩ := kinds_of_mem_books member
      rfl
    | heartbeat | error | pong | subscribe =>
      cases handled
      exact .inl ⟨rfl, rfl⟩
    | _ => cases handled

theorem onTimer_ownStatus (session : MarketData) (settings : Settings) (now : Int) :
    (session.onTimer settings now).1.ownStatus = session.ownStatus := by
  unfold onTimer
  split
  · split <;> rfl
  · rfl

end MarketData

namespace DropCopy

variable {server : Server} {settings : Settings} {session session' : DropCopy}
  {out : List Output}

def ownStatus (session : DropCopy) : UInt16 × ConnectionStatus :=
  (session.streamId, session.connectionStatus)

/-- A rejection is no status. -/
theorem announcedBy_onAck (method : OrderMethod) (ack : Json.OrderAck) :
    announcedBy (dispatches ((onAck method ack).map .dispatch)) = [] := by
  apply announcedBy_map_dispatch
  intro event member
  obtain ⟨-, response, -, rfl⟩ := kind_of_mem_onAck member
  rfl

/-- A session announces its status exactly when an event sets it. -/
theorem step_ownStatus {event : Event}
    (stepped : step server settings session event = some (session', out)) :
    (session'.ownStatus = session.ownStatus ∧ announcedBy (dispatches out) = []) ∨
      ∃ status, session'.ownStatus = (session.streamId, status) ∧
        announcedBy (dispatches out) = [(session.streamId, status)] := by
  cases event with
  | disconnected | ready =>
    cases stepped
    exact .inr ⟨_, rfl, rfl⟩
  | latency sample =>
    cases stepped
    exact .inl ⟨rfl, rfl⟩
  | binary => cases stepped
  | request request =>
    cases stepped
    exact .inl ⟨rfl, rfl⟩
  | message message oms =>
    cases message with
    | status =>
      cases stepped
      exact .inr ⟨_, rfl, rfl⟩
    | balances balances =>
      cases stepped
      refine .inl ⟨rfl, announcedBy_map_dispatch fun event member => ?_⟩
      obtain ⟨_, rfl⟩ := kind_of_mem_onBalances member
      rfl
    | executions executions =>
      cases stepped
      refine .inl ⟨rfl, announcedBy_map_dispatch fun event member => ?_⟩
      rcases kinds_of_mem_onExecutions member with ⟨_, rfl⟩ | ⟨_, _, rfl⟩ <;> rfl
    | addOrder ack =>
      cases stepped
      exact .inl ⟨rfl, announcedBy_onAck .addOrder ack⟩
    | amendOrder ack =>
      cases stepped
      exact .inl ⟨rfl, announcedBy_onAck .amendOrder ack⟩
    | cancelOrder ack =>
      cases stepped
      exact .inl ⟨rfl, announcedBy_onAck .cancelOrder ack⟩
    | heartbeat | error | pong | subscribe | cancelAll =>
      cases stepped
      exact .inl ⟨rfl, rfl⟩
    | _ => cases stepped

end DropCopy

namespace OrderEntry

variable {core : Download2} {decoders : Decoders} {session session' : OrderEntry core}
  {event : Event} {out : List Effect}

def ownStatus (session : OrderEntry core) : UInt16 × ConnectionStatus :=
  (session.streamId, session.connectionStatus)

def Effect.announced : Effect → Option (UInt16 × ConnectionStatus)
  | .dispatch event => event.announced
  | _ => none

theorem Effect.announced_of_isPlain {effect : Effect} (plain : effect.isPlain = true) :
    effect.announced = none := by
  unfold Effect.isPlain at plain
  split at plain
  · cases plain
  · rfl
  · cases plain
  · unfold Effect.announced
    split <;> simp_all

/-- In a table with other streams, a turn changes the status of its session as it announces
it. -/
theorem step_announces (stepped : step decoders session event = some (session', out))
    (front back : List (UInt16 × ConnectionStatus)) :
    Announces .undefined (front ++ session.ownStatus :: back) (out.filterMap Effect.announced)
      (front ++ session'.ownStatus :: back) := by
  have frame : Frame fun turn : Turn core =>
      Announces .undefined (front ++ session.ownStatus :: back)
        (turn.effects.filterMap Effect.announced) (front ++ turn.session.ownStatus :: back) := by
    refine ⟨fun turn effect plain inv => ?_, fun turn status reason inv => ?_,
      fun turn data inv => inv⟩
    · simpa [Turn.note, Effect.announced_of_isPlain plain] using inv
    · rw [Turn.publish, List.filterMap_append]
      exact inv.set status
  refine (frame.calls fun turn effect resultOf inv => ?_).step stepped .refl
  have silent : effect.announced = none := by
    unfold Effect.ResultOf at resultOf
    split at resultOf
    · rfl
    · rfl
    · exact resultOf.elim
  simpa [Turn.note, silent] using inv

end OrderEntry

/-! ## The controller -/

namespace Controller

variable {core : Symbols} {server : Server} {settings : Settings}
  {controller controller' : Controller core} {event : Event} {out : List (Source × Output)}

/-- The statuses of the streams, those of the REST sessions given. -/
def ownStatuses (controller : Controller core) (orderEntry : List (UInt16 × ConnectionStatus)) :
    List (UInt16 × ConnectionStatus) :=
  controller.marketData.map MarketData.ownStatus ++ orderEntry ++
    controller.dropCopy.filterMap fun entry => entry.2.map DropCopy.ownStatus

variable {orderEntry : List (UInt16 × ConnectionStatus)}

theorem announces_onSymbolsUpdate (symbols : List String) :
    Announces .undefined (controller.ownStatuses orderEntry) []
      ((controller.onSymbolsUpdate symbols).1.ownStatuses orderEntry) := by
  refine @SliceLoop.invariant _ _ _ _
    (fun state => Announces .undefined (controller.ownStatuses orderEntry) []
      (state.ownStatuses orderEntry))
    (sliceLoop_ensureSymbolSlices
      (controller.withSymbols (core.append controller.shared.symbols symbols).1) _)
    (fun state inv => ?_) .refl
  have behind : Announces .undefined (controller.ownStatuses orderEntry) []
      (state.marketData.map MarketData.ownStatus ++
        (orderEntry ++ state.dropCopy.filterMap fun entry => entry.2.map DropCopy.ownStatus)) := by
    rw [← List.append_assoc]
    exact inv
  simpa [ownStatuses, addMarketData, MarketData.ownStatus] using behind.add (state.streamId + 1)

/-- A stream changes in its place. -/
theorem marketData_split {streams : List MarketData} {index : Nat} {session : MarketData}
    (found : streams[index]? = some session) :
    ∃ front back, streams = front ++ session :: back ∧
      ∀ other, streams.set index other = front ++ other :: back := by
  obtain ⟨bound, here⟩ := List.getElem?_eq_some_iff.mp found
  have split : ∀ other, streams.set index other =
      streams.take index ++ other :: streams.drop (index + 1) := by
    intro other
    rw [List.set_eq_take_append_cons_drop, if_pos bound]
  refine ⟨_, _, ?_, split⟩
  rw [← split, ← here, List.set_getElem_self]

theorem announces_marketData {index : Nat} {received : MarketData.Event}
    (stepped : step server settings controller (.marketData index received) =
      some (controller', out)) :
    Announces .undefined (controller.ownStatuses orderEntry)
      (announcedBy (dispatches (out.map Prod.snd))) (controller'.ownStatuses orderEntry) := by
  obtain ⟨session, result, found, handled, done⟩ := step_marketData stepped
  obtain ⟨front, back, table, set⟩ := marketData_split found
  have changed : Announces .undefined (controller.ownStatuses orderEntry)
      (announcedBy (dispatches result.outputs))
      (({ controller with
          shared := result.shared
          marketData := controller.marketData.set index result.session } :
        Controller core).ownStatuses orderEntry) := by
    simp only [ownStatuses, set]
    simp only [table, List.map_append, List.map_cons, List.append_assoc, List.cons_append]
    exact .of_change (MarketData.onEvent_ownStatus handled)
  rcases done with ⟨-, rfl, rfl⟩ | ⟨rfl, rfl⟩
  · rwa [map_snd_tag]
  · rw [List.map_append, map_snd_tag, dispatches_append, dispatches_onSymbolsUpdate,
      List.append_nil]
    simpa using changed.trans (announces_onSymbolsUpdate result.newSymbols)

/-- A private session changes in its place. -/
theorem announces_dropCopy (keys : (controller.dropCopy.map Prod.fst).Nodup) {account : String}
    {received : DropCopy.Event}
    (stepped : step server settings controller (.dropCopy account received) =
      some (controller', out)) :
    Announces .undefined (controller.ownStatuses orderEntry)
      (announcedBy (dispatches (out.map Prod.snd))) (controller'.ownStatuses orderEntry) := by
  obtain ⟨session, next, outputs, found, first, rfl, rfl⟩ := step_dropCopy stepped
  obtain ⟨front, back, table, assigned⟩ := assign_entry keys found
  simp only [ownStatuses, assigned, map_snd_tag]
  simp only [table, List.filterMap_append, List.filterMap_cons, Option.map_some,
    ← List.append_assoc]
  exact .of_change (DropCopy.step_ownStatus first)

/-- A new private session enters with its id, and without a status. -/
theorem announces_tokenUpdate (keys : (controller.dropCopy.map Prod.fst).Nodup)
    {account token : String} (updated : controller.onTokenUpdate account token = some controller') :
    Announces .undefined (controller.ownStatuses orderEntry) []
      (controller'.ownStatuses orderEntry) := by
  unfold onTokenUpdate at updated
  split at updated
  · cases updated
  · cases updated
    exact .refl
  · next found =>
    cases updated
    obtain ⟨front, back, table, assigned⟩ := assign_entry keys found
    simp only [ownStatuses, assigned]
    simp only [table, List.filterMap_append, List.filterMap_cons, Option.map_some,
      Option.map_none, ← List.append_assoc]
    exact Announces.refl.add _

theorem ownStatuses_onTimer (now : Int) :
    (controller.onTimer settings now).1.ownStatuses orderEntry =
      controller.ownStatuses orderEntry := by
  simp [onTimer, ownStatuses, Function.comp_def, MarketData.onTimer_ownStatus]

theorem announces_of_silent {result : Controller core × List (Source × Output)}
    (same : result = (controller', out)) (silent : dispatches (result.2.map Prod.snd) = [])
    (announces : Announces .undefined (controller.ownStatuses orderEntry) []
      (result.1.ownStatuses orderEntry)) :
    Announces .undefined (controller.ownStatuses orderEntry)
      (announcedBy (dispatches (out.map Prod.snd))) (controller'.ownStatuses orderEntry) := by
  subst same
  rw [silent]
  exact announces

/-- An event changes the statuses as it announces them. -/
theorem step_announces (keys : (controller.dropCopy.map Prod.fst).Nodup)
    (stepped : step server settings controller event = some (controller', out)) :
    Announces .undefined (controller.ownStatuses orderEntry)
      (announcedBy (dispatches (out.map Prod.snd))) (controller'.ownStatuses orderEntry) := by
  cases event with
  | marketData index received => exact announces_marketData stepped
  | dropCopy account received => exact announces_dropCopy keys stepped
  | tokenUpdate account token =>
    obtain ⟨updated, rfl⟩ := step_tokenUpdate stepped
    exact announces_tokenUpdate keys updated
  | subscribe symbols =>
    let known : Controller core := { controller with shared := { controller.shared with
      allSymbols := (emplaceNew controller.shared.allSymbols symbols).1 } }
    exact announces_of_silent (Option.some.inj stepped) (dispatches_onSymbolsUpdate _)
      (@announces_onSymbolsUpdate _ known _ _)
  | symbolsUpdate symbols =>
    exact announces_of_silent (Option.some.inj stepped) (dispatches_onSymbolsUpdate symbols)
      (announces_onSymbolsUpdate symbols)
  | timer now =>
    refine announces_of_silent (Option.some.inj stepped) (dispatches_onTimer now) ?_
    rw [ownStatuses_onTimer]
    exact .refl
  | request request =>
    obtain ⟨rfl, rfl | ⟨session, -, rfl⟩⟩ := step_request stepped
    · exact .refl
    · rw [map_snd_tag]
      exact .refl
  | start | stop =>
    cases stepped
    exact .refl

/-! ## The accounts of the private sessions -/

section Keys

theorem map_fst_assign (account : String) (session : DropCopy)
    (table : List (String × Option DropCopy)) :
    (assign account session table).map Prod.fst = table.map Prod.fst := by
  rw [assign, List.map_map]
  refine List.map_congr_left fun entry _ => ?_
  simp only [Function.comp_apply]
  split
  · next same => exact same.symm
  · rfl

theorem keys_onTokenUpdate {account token : String}
    (updated : controller.onTokenUpdate account token = some controller') :
    controller'.dropCopy.map Prod.fst = controller.dropCopy.map Prod.fst := by
  unfold onTokenUpdate at updated
  split at updated
  · cases updated
  · cases updated
    rfl
  · cases updated
    exact map_fst_assign ..

/-- No event changes whose sessions there are. -/
theorem keys_step (stepped : step server settings controller event = some (controller', out)) :
    controller'.dropCopy.map Prod.fst = controller.dropCopy.map Prod.fst := by
  cases event with
  | marketData index received => rw [dropCopy_marketData stepped]
  | dropCopy account received =>
    obtain ⟨session, next, outputs, -, -, rfl, -⟩ := step_dropCopy stepped
    exact map_fst_assign ..
  | tokenUpdate account token => exact keys_onTokenUpdate (step_tokenUpdate stepped).1
  | subscribe symbols =>
    cases stepped
    exact congrArg (List.map Prod.fst) (dropCopy_onSymbolsUpdate _)
  | symbolsUpdate symbols =>
    cases stepped
    exact congrArg (List.map Prod.fst) (dropCopy_onSymbolsUpdate _)
  | request request => rw [(step_request stepped).1]
  | start | stop | timer now =>
    cases stepped
    rfl

end Keys

end Controller

/-! ## The gateway -/

namespace System

variable {core : Symbols} {download : OrderEntry.Download2} {decoders : OrderEntry.Decoders}
  {server : Server} {settings : Settings} {config : Config} {system system' : System core download}
  {event : Event} {events : List Event} {out : List Emitted} {log : List (Event × List Emitted)}

def Emitted.announced : Emitted → Option (UInt16 × ConnectionStatus)
  | .stream _ (.dispatch event) => event.announced
  | .stream _ (.send _) => none
  | .orderEntry _ effect => effect.announced

/-- The connection statuses that an entry of a log publishes. -/
def announcedIn (entry : Event × List Emitted) : List (UInt16 × ConnectionStatus) :=
  entry.2.filterMap Emitted.announced

/-- The id and the status of every stream. -/
def ownStatuses (system : System core download) : List (UInt16 × ConnectionStatus) :=
  system.controller.ownStatuses (system.orderEntry.map fun entry => entry.2.ownStatus)

theorem announced_stream (outputs : List (Source × Output)) :
    (outputs.map fun entry => Emitted.stream entry.1 entry.2).filterMap Emitted.announced =
      announcedBy (dispatches (outputs.map Prod.snd)) := by
  simp only [announcedBy, dispatches, List.filterMap_filterMap, List.filterMap_map]
  refine List.filterMap_congr fun entry _ => ?_
  obtain ⟨source, output⟩ := entry
  cases output <;> rfl

/-- The tables have one entry for each account. -/
def Keyed (config : Config) (system : System core download) : Prop :=
  system.orderEntry.map Prod.fst = config.accounts ∧
    system.controller.dropCopy.map Prod.fst = config.accounts

theorem Keyed.nodup (keyed : system.Keyed config) :
    (system.controller.dropCopy.map Prod.fst).Nodup := by
  rw [keyed.2]
  exact config.nodup

theorem replace_entry {table : List (String × OrderEntry download)} {account : String}
    {session : OrderEntry download} (keys : (table.map Prod.fst).Nodup)
    (found : table.lookup account = some session) :
    ∃ front back, table = front ++ (account, session) :: back ∧
      ∀ other, replace account other table = front ++ (account, other) :: back := by
  obtain ⟨front, back, rfl, -⟩ := List.lookup_eq_some_iff.mp found
  refine ⟨front, back, rfl, fun other => ?_⟩
  simp only [List.map_append, List.map_cons, List.nodup_append', List.nodup_cons,
    List.disjoint_cons_right] at keys
  obtain ⟨-, ⟨behind, -⟩, before, -⟩ := keys
  have others : ∀ part : List (String × OrderEntry download), account ∉ part.map Prod.fst →
      replace account other part = part := by
    intro part absent
    refine (List.map_congr_left fun entry member => ?_).trans (List.map_id part)
    exact if_neg fun same => absent (List.mem_map.mpr ⟨entry, member, same⟩)
  have split : replace account other (front ++ (account, session) :: back) =
      replace account other front ++ (account, other) :: replace account other back := by
    simp [replace]
  rw [split, others front before, others back behind]

theorem keys_handTokens {raises : Nat → Option OrderEntry.Exception}
    {calls : List (OrderEntry.Effect × Nat)} {controller controller' : Controller core}
    (done : handTokens raises controller calls = some controller')
    (keys : (controller.dropCopy.map Prod.fst).Nodup)
    (orderEntry : List (UInt16 × ConnectionStatus)) :
    controller'.dropCopy.map Prod.fst = controller.dropCopy.map Prod.fst ∧
      Announces .undefined (controller.ownStatuses orderEntry) []
        (controller'.ownStatuses orderEntry) := by
  induction calls generalizing controller with
  | nil =>
    cases done
    exact ⟨rfl, .refl⟩
  | cons call calls ih =>
    simp only [handTokens, List.foldlM_cons, Option.bind_eq_bind, Option.bind_eq_some_iff] at done
    obtain ⟨next, first, rest⟩ := done
    have here : next.dropCopy.map Prod.fst = controller.dropCopy.map Prod.fst ∧
        Announces .undefined (controller.ownStatuses orderEntry) []
          (next.ownStatuses orderEntry) := by
      obtain ⟨effect, index⟩ := call
      unfold handToken at first
      split at first
      · split at first
        · exact ⟨Controller.keys_onTokenUpdate first, Controller.announces_tokenUpdate keys first⟩
        · rcases Controller.onTokenUpdateRaised_cases first with rfl | rfl <;> exact ⟨rfl, .refl⟩
      · cases first
        exact ⟨rfl, .refl⟩
    obtain ⟨same, later⟩ := ih rest (here.1 ▸ keys)
    exact ⟨same.trans here.1, here.2.trans later⟩

/-- An event of the gateway changes the statuses as it announces them. -/
theorem step_announces (keyed : system.Keyed config)
    (stepped : step decoders server settings system event = some (system', out)) :
    system'.Keyed config ∧
      Announces .undefined system.ownStatuses (announcedIn (event, out)) system'.ownStatuses := by
  have keys := keyed.nodup
  cases event with
  | controller event external =>
    obtain ⟨controller, outputs, first, rfl, rfl⟩ := step_controller stepped
    refine ⟨⟨keyed.1, (Controller.keys_step first).trans keyed.2⟩, ?_⟩
    rw [announcedIn, announced_stream]
    exact Controller.step_announces keys first
  | orderEntry account event =>
    obtain ⟨session, next, effects, controller, found, turn, handed, rfl, rfl⟩ :=
      step_orderEntry stepped
    obtain ⟨sameKeys, quiet⟩ := keys_handTokens handed keys
      ((replace account next system.orderEntry).map fun entry => entry.2.ownStatus)
    refine ⟨⟨(map_fst_replace ..).trans keyed.1, sameKeys.trans keyed.2⟩, ?_⟩
    obtain ⟨front, back, table, replaced⟩ := replace_entry (by
      rw [keyed.1]
      exact config.nodup) found
    have own : Announces .undefined system.ownStatuses
        (effects.filterMap OrderEntry.Effect.announced)
        (system.controller.ownStatuses
          ((replace account next system.orderEntry).map fun entry => entry.2.ownStatus)) := by
      rw [replaced, ownStatuses, table]
      simp only [Controller.ownStatuses, List.map_append, List.map_cons, List.append_assoc,
        List.cons_append]
      simp only [← List.append_assoc (system.controller.marketData.map _)]
      exact OrderEntry.step_announces turn _ _
    have announced : announcedIn (.orderEntry account event, effects.map (.orderEntry account)) =
        effects.filterMap OrderEntry.Effect.announced := by
      rw [announcedIn, List.filterMap_map]
      rfl
    have both := own.trans quiet
    rw [List.append_nil] at both
    rw [announced]
    exact both

theorem ownStatuses_create :
    Announces .undefined [] [] (create core download config).ownStatuses ∧
      (create core download config).Keyed config := by
  have silent : ∀ table : List (UInt16 × ConnectionStatus),
      (∀ entry ∈ table, entry.2 = .undefined) → Announces .undefined [] [] table := by
    intro table
    induction table with
    | nil => exact fun _ => .refl
    | cons entry table ih =>
      intro fresh
      obtain ⟨key, status⟩ := entry
      obtain ⟨rfl, rest⟩ := List.forall_mem_cons.mp fresh
      exact @Announces.add _ _ _ [] [] [] table key (ih rest)
  have keys : (create core download config).Keyed config := by
    constructor
    · rw [create, List.map_map]
      exact (@Controller.sound_create core config).orderEntry
    · simp [create, Controller.create, Controller.createDropCopy, Function.comp_def]
  refine ⟨silent _ fun entry member => ?_, keys⟩
  simp only [ownStatuses, Controller.ownStatuses, List.mem_append] at member
  rcases member with (stream | session) | private_
  · cases List.mem_singleton.mp stream
    rfl
  · simp only [create, List.map_map, List.mem_map] at session
    obtain ⟨_, -, rfl⟩ := session
    rfl
  · simp [create, Controller.create, Controller.createDropCopy] at private_

/-- **Published statuses.**  In a reachable gateway whose streams have distinct ids, the last
status published under the id of a stream is the status of the stream, and nothing was
published under any other id. -/
theorem published_run
    (ran : (step decoders server settings).run (create core download config) events =
      some (system, log)) (distinct : (system.ownStatuses.map Prod.fst).Nodup) :
    replay (fun _ => .undefined) (log.flatMap announcedIn) =
      view .undefined system.ownStatuses := by
  have inv := @Step.run_induction _ _ _ _ _ _ _ _
    (fun (system : System core download) past => system.Keyed config ∧
      Announces .undefined [] (past.flatMap announcedIn) system.ownStatuses) [] ran ?_
    ⟨ownStatuses_create.2, ownStatuses_create.1⟩
  · exact (inv.2.mirror distinct).2.symm
  · intro system past event system' out _ inv stepped
    obtain ⟨keyed, announces⟩ := step_announces inv.1 stepped
    refine ⟨keyed, ?_⟩
    rw [List.flatMap_append, List.flatMap_singleton]
    exact inv.2.trans announces

theorem published_run_signIn :
    ∃ (system : System (Symbols.chunked 128 (by decide)) OrderEntry.countingDownload)
      (log : List (Event × List Emitted)),
      (step OrderEntry.sampleDecoders ⟨255, fun _ => false⟩ {}).run
        (create _ _ ⟨["A1", "A2"], by decide⟩) signInAmongOthers = some (system, log) ∧
      replay (fun _ => .undefined) (log.flatMap announcedIn) =
        view .undefined system.ownStatuses := by
  refine ⟨_, _, rfl, ?_⟩
  exact @published_run (Symbols.chunked 128 (by decide)) OrderEntry.countingDownload
    OrderEntry.sampleDecoders ⟨255, fun _ => false⟩ {} ⟨["A1", "A2"], by decide⟩ _
    signInAmongOthers _ rfl (by decide)

end System

end RoqKraken.Gateway
