import RoqKraken.Lifecycle
import RoqKraken.Gateway.Isolation

/-!
# The connections of the gateway

Every stream holds a connection, which the gateway starts, refreshes and stops.  Those
of the constructor are started by `Start`, the others where they are created, and
`dispatch_helper` reaches all streams there are.  `connections_run`: a gateway whose first
event is `Start` starts every connection before it uses it, and from then on the connection
hears every start, stop and timer.
-/

namespace RoqKraken.Gateway

open Lifecycle

/-- What the gateway holds a connection for. -/
inductive Connection where
  | marketData (index : Nat)
  | orderEntry (account : String)
  | dropCopy (account : String)
deriving DecidableEq

namespace Connection

/-- What is called on a connection. -/
inductive Call where
  | start
  | stop
  | refresh (now : Int)
  | touch
  | send (frame : Frame)
  /-- Of a REST client. -/
  | request (path name : String) (sequence : UInt32)
deriving DecidableEq

/-- Is it a call that `dispatch_helper` leads to? -/
def Call.toAll : Call → Bool
  | .start | .stop | .refresh _ => true
  | _ => false

/-- One call on each of the connections. -/
def callAll (connections : List Connection) (call : Call) : List (Connection × Call) :=
  connections.map fun connection => (connection, call)

/-- The calls of one connection. -/
def on (connection : Connection) (calls : List (Connection × Call)) : List Call :=
  calls.filterMap fun entry => if entry.1 = connection then some entry.2 else none

variable {connection : Connection} {connections : List Connection}

@[simp] theorem on_nil (connection : Connection) : on connection [] = [] := rfl

@[simp] theorem on_append (connection : Connection) (first second : List (Connection × Call)) :
    on connection (first ++ second) = on connection first ++ on connection second :=
  List.filterMap_append

theorem on_callAll (nodup : connections.Nodup) (connection : Connection) (call : Call) :
    on connection (callAll connections call) = if connection ∈ connections then [call] else [] := by
  induction connections with
  | nil => rfl
  | cons first connections ih =>
    obtain ⟨absent, nodup⟩ := List.nodup_cons.mp nodup
    have rest := ih nodup
    unfold on callAll at rest ⊢
    rw [List.map_cons, List.filterMap_cons]
    by_cases here : first = connection
    · subst here
      rw [if_neg absent] at rest
      simp [rest]
    · simp [here, Ne.symm here, rest]

/-- Calls of connections that are open, of a kind that does not concern all. -/
theorem turn_own {calls : List (Connection × Call)} {before after : Prop} (same : after ↔ before)
    (own : ∀ entry ∈ calls, entry.2.toAll = false ∧ (entry.1 = connection → before)) :
    Turn Call.toAll .start [] before after (on connection calls) := by
  apply Turn.own same
  · rw [List.filter_eq_nil_iff]
    intro call member
    obtain ⟨entry, listed, here⟩ := List.mem_filterMap.mp member
    split at here
    · cases here
      simp [(own entry listed).1]
    · cases here
  · intro closed
    rw [on, List.filterMap_eq_nil_iff]
    intro entry listed
    exact if_neg fun here => closed ((own entry listed).2 here)

/-- A message may touch the connection it came over. -/
theorem turn_touch {touched : Connection} {open_ : Connection → Prop} {after : Prop}
    {touches : Bool} (same : after ↔ open_ connection) (live : open_ touched) :
    Turn Call.toAll .start [] (open_ connection) after
      (on connection (if touches then [(touched, .touch)] else [])) := by
  apply turn_own same
  intro entry listed
  split at listed
  · cases List.mem_singleton.mp listed
    exact ⟨rfl, fun here => here ▸ live⟩
  · cases listed

/-- Some connections hear something. -/
theorem turn_callAll (nodup : connections.Nodup) (connection : Connection) {call : Call}
    (toAll : call.toAll = true) :
    Turn Call.toAll .start [call] (connection ∈ connections) (connection ∈ connections)
      (on connection (callAll connections call)) := by
  rw [on_callAll nodup]
  by_cases listed : connection ∈ connections
  · rw [if_pos listed]
    exact .hears listed listed (by simp [toAll])
  · rw [if_neg listed]
    exact .waits listed listed rfl

/-- Connections are started. -/
theorem turn_starts (nodup : connections.Nodup) {connection : Connection} {before after : Prop}
    (new : connection ∈ connections → ¬ before)
    (opened : after ↔ before ∨ connection ∈ connections) :
    Turn Call.toAll .start [] before after (on connection (callAll connections .start)) := by
  rw [on_callAll nodup]
  by_cases listed : connection ∈ connections
  · rw [if_pos listed]
    exact .opens (new listed) (opened.mpr (.inr listed)) rfl rfl
  · rw [if_neg listed]
    simp only [listed, or_false] at opened
    exact .own opened rfl fun _ => rfl

end Connection

open Connection

/-- The connection of the stream that an output comes from. -/
def Source.connection : Source → Connection
  | .marketData index => .marketData index
  | .dropCopy account => .dropCopy account

/-- The messages that keep a public connection from being idle. -/
def MarketData.Event.touches : MarketData.Event → Bool
  | .message .heartbeat => true
  | .message .pong => true
  | .message (.instrument _) => true
  | .message (.ticker _) => true
  | .message (.trade _) => true
  | .message (.book _) => true
  | _ => false

/-- The messages that keep a private connection from being idle. -/
def DropCopy.Event.touches : DropCopy.Event → Bool
  | .message .heartbeat _ => true
  | .message .pong _ => true
  | _ => false

namespace Controller

variable {core : Symbols}

/-! ## Calls of the controller -/

/-- The connections of the streams that `dispatch_helper` goes through. -/
def connections (controller : Controller core) : List Connection :=
  controller.marketData.map (fun session => .marketData session.index) ++
    controller.orderEntry.map (fun entry => .orderEntry entry.1) ++
    controller.dropCopy.filterMap fun entry => entry.2.map fun _ => .dropCopy entry.1

/-- The streams that `ensure_symbol_slices` creates and starts. -/
def newSlices (controller : Controller core) (size : Nat) : List Connection :=
  (List.range' controller.marketData.length (size - controller.marketData.length)).map .marketData

/-- `operator()(Trace<SymbolsUpdate>)`. -/
def startsOnSymbolsUpdate (controller : Controller core) (symbols : List String) :
    List (Connection × Call) :=
  let (_, size, _) := core.append controller.shared.symbols symbols
  callAll (controller.newSlices size) .start

/-- `operator()(Trace<TokenUpdate>)`. -/
def startsOnTokenUpdate (controller : Controller core) (account : String) :
    List (Connection × Call) :=
  match controller.dropCopy.lookup account with
  | none => []
  | some (some _) => []
  | some none => [(.dropCopy account, .start)]

/-- An event of a public stream, which may announce symbols. -/
def callsOnMarketData (controller : Controller core) (server : Server) (settings : Settings)
    (index : Nat) (event : MarketData.Event) : List (Connection × Call) :=
  match controller.marketData[index]? with
  | none => []
  | some session =>
    (if event.touches then [(.marketData session.index, .touch)] else []) ++
      match session.onEvent server settings controller.shared event with
      | none => []
      | some result =>
        if result.newSymbols.isEmpty then []
        else { controller with shared := result.shared }.startsOnSymbolsUpdate result.newSymbols

/-- The calls on connections at an event, except for what is sent. -/
def calls (controller : Controller core) (server : Server) (settings : Settings) :
    Event → List (Connection × Call)
  | .start => callAll controller.connections .start
  | .stop => callAll controller.connections .stop
  | .timer now => callAll controller.connections (.refresh now)
  | .subscribe symbols =>
    let (allSymbols, new) := emplaceNew controller.shared.allSymbols symbols
    { controller with shared := { controller.shared with allSymbols } }.startsOnSymbolsUpdate new
  | .symbolsUpdate symbols => controller.startsOnSymbolsUpdate symbols
  | .tokenUpdate account _ => controller.startsOnTokenUpdate account
  | .request _ => []
  | .marketData index event => controller.callsOnMarketData server settings index event
  | .dropCopy account event =>
    if event.touches then [(.dropCopy account, .touch)] else []

/-- What all connections hear of an event. -/
def Event.toAll : Event → List Call
  | .start => [.start]
  | .stop => [.stop]
  | .timer now => [.refresh now]
  | _ => []

/-! ## Tables -/

/-- Public streams are in the order of their indices, and accounts have one entry each. -/
structure Tidy (controller : Controller core) : Prop where
  index : controller.marketData.map MarketData.index = List.range controller.marketData.length
  orderEntry : (controller.orderEntry.map Prod.fst).Nodup
  dropCopy : (controller.dropCopy.map Prod.fst).Nodup
  owned : controller.Owned

section Connections

variable {controller : Controller core}

@[simp] theorem marketData_mem_connections {index : Nat} :
    Connection.marketData index ∈ controller.connections ↔
      index ∈ controller.marketData.map MarketData.index := by
  simp [connections]

@[simp] theorem orderEntry_mem_connections {account : String} :
    Connection.orderEntry account ∈ controller.connections ↔
      account ∈ controller.orderEntry.map Prod.fst := by
  simp [connections]

theorem lookup_of_mem {table : List (String × Option DropCopy)}
    (keys : (table.map Prod.fst).Nodup) {account : String} {entry : Option DropCopy}
    (member : (account, entry) ∈ table) : table.lookup account = some entry := by
  induction table with
  | nil => cases member
  | cons first table ih =>
    obtain ⟨absent, others⟩ := List.nodup_cons.mp keys
    rcases List.mem_cons.mp member with rfl | later
    · simp
    · have other : account ≠ first.1 := by
        rintro rfl
        exact absent (List.mem_map.mpr ⟨_, later, rfl⟩)
      rw [List.lookup_cons, beq_false_of_ne other]
      exact ih others later

@[simp] theorem dropCopy_mem_connections (tidy : controller.Tidy) {account : String} :
    Connection.dropCopy account ∈ controller.connections ↔
      ∃ session, controller.dropCopy.lookup account = some (some session) := by
  have listed : Connection.dropCopy account ∈ controller.connections ↔
      ∃ session, (account, some session) ∈ controller.dropCopy := by
    simp [connections]
  rw [listed]
  constructor
  · rintro ⟨session, member⟩
    exact ⟨session, lookup_of_mem tidy.dropCopy member⟩
  · rintro ⟨session, found⟩
    obtain ⟨front, back, table, -⟩ := List.lookup_eq_some_iff.mp found
    exact ⟨session, by simp [table]⟩

theorem nodup_connections (tidy : controller.Tidy) : controller.connections.Nodup := by
  have marketData : (controller.marketData.map fun session =>
      Connection.marketData session.index).Nodup := by
    have indices : (controller.marketData.map MarketData.index).Nodup := by
      rw [tidy.index]
      exact List.nodup_range
    rw [show (fun session : MarketData => Connection.marketData session.index) =
      Connection.marketData ∘ MarketData.index from rfl, ← List.map_map]
    exact indices.map fun _ _ same => Connection.marketData.inj same
  have orderEntry : (controller.orderEntry.map fun entry =>
      Connection.orderEntry entry.1).Nodup := by
    rw [show (fun entry : String × UInt16 => Connection.orderEntry entry.1) =
      Connection.orderEntry ∘ Prod.fst from rfl, ← List.map_map]
    exact tidy.orderEntry.map fun _ _ same => Connection.orderEntry.inj same
  have dropCopy : (controller.dropCopy.filterMap fun entry =>
      entry.2.map fun _ => Connection.dropCopy entry.1).Nodup := by
    have keys := tidy.dropCopy
    generalize controller.dropCopy = table at keys ⊢
    induction table with
    | nil => exact .nil
    | cons first table ih =>
      obtain ⟨absent, others⟩ := List.nodup_cons.mp keys
      obtain ⟨account, entry⟩ := first
      cases entry with
      | none => exact ih others
      | some session =>
        refine List.nodup_cons.mpr ⟨fun member => absent ?_, ih others⟩
        obtain ⟨other, listed, same⟩ := List.mem_filterMap.mp member
        obtain ⟨-, -, same⟩ := Option.map_eq_some_iff.mp same
        cases same
        exact List.mem_map.mpr ⟨other, listed, rfl⟩
  unfold connections
  refine List.nodup_append'.mpr ⟨List.nodup_append'.mpr ⟨marketData, orderEntry, ?_⟩, dropCopy, ?_⟩
  · simp [List.disjoint_left]
  · rw [List.disjoint_left]
    intro connection earlier later
    obtain ⟨entry, -, same⟩ := List.mem_filterMap.mp later
    obtain ⟨-, -, rfl⟩ := Option.map_eq_some_iff.mp same
    simp at earlier

/-! ## New public streams -/

/-- The rounds of the loop of `ensure_symbol_slices`. -/
theorem repeat_addMarketData (controller : Controller core) (count : Nat) :
    ((count.repeat addMarketData controller).marketData.map MarketData.index =
        controller.marketData.map MarketData.index ++
          List.range' controller.marketData.length count) ∧
      (count.repeat addMarketData controller).orderEntry = controller.orderEntry ∧
      (count.repeat addMarketData controller).dropCopy = controller.dropCopy := by
  induction count with
  | zero => simp [Nat.repeat]
  | succ count ih =>
    obtain ⟨indices, orderEntry, dropCopy⟩ := ih
    have length : (count.repeat addMarketData controller).marketData.length =
        controller.marketData.length + count := by
      simpa using congrArg List.length indices
    refine ⟨?_, orderEntry, dropCopy⟩
    rw [Nat.repeat, addMarketData, List.map_append, indices, length, List.range'_concat,
      List.append_assoc]
    simp

theorem newSlices_nodup (controller : Controller core) (size : Nat) :
    (controller.newSlices size).Nodup := by
  have positions : (List.range' controller.marketData.length
      (size - controller.marketData.length)).Nodup := List.nodup_range'
  exact positions.map fun _ _ same => Connection.marketData.inj same

theorem mem_ensureSymbolSlices {size : Nat} {connection : Connection} :
    connection ∈ (controller.ensureSymbolSlices size).connections ↔
      connection ∈ controller.connections ∨ connection ∈ controller.newSlices size := by
  obtain ⟨indices, orderEntry, dropCopy⟩ :=
    repeat_addMarketData controller (size - controller.marketData.length)
  cases connection with
  | marketData index =>
    rw [marketData_mem_connections, ensureSymbolSlices, indices, List.mem_append,
      marketData_mem_connections, newSlices, List.mem_map_of_injective]
    exact fun _ _ same => Connection.marketData.inj same
  | orderEntry account =>
    rw [orderEntry_mem_connections, ensureSymbolSlices, orderEntry]
    simp [newSlices]
  | dropCopy account =>
    have same : Connection.dropCopy account ∈ (controller.ensureSymbolSlices size).connections ↔
        Connection.dropCopy account ∈ controller.connections := by
      simp [connections, ensureSymbolSlices, dropCopy]
    simp [same, newSlices]

theorem Tidy.ensureSymbolSlices (tidy : controller.Tidy) (size : Nat) :
    (controller.ensureSymbolSlices size).Tidy := by
  obtain ⟨indices, orderEntry, dropCopy⟩ :=
    repeat_addMarketData controller (size - controller.marketData.length)
  have length := congrArg List.length indices
  rw [List.length_map, List.length_append, List.length_map, List.length_range'] at length
  refine ⟨?_, ?_, ?_, ?_⟩
  · have split := @List.range'_append_1 0 controller.marketData.length
      (size - controller.marketData.length)
    rw [Nat.zero_add] at split
    rw [Controller.ensureSymbolSlices, length, indices, tidy.index, List.range_eq_range',
      List.range_eq_range', split]
  · rw [Controller.ensureSymbolSlices, orderEntry]
    exact tidy.orderEntry
  · rw [Controller.ensureSymbolSlices, dropCopy]
    exact tidy.dropCopy
  · unfold Owned Controller.ensureSymbolSlices
    rw [dropCopy]
    exact tidy.owned

/-- What is not in the tables of streams may change. -/
theorem Tidy.besides (tidy : controller.Tidy) (shared : Shared core) (streamId : UInt16) :
    Tidy { controller with shared, streamId } :=
  ⟨tidy.index, tidy.orderEntry, tidy.dropCopy, tidy.owned⟩

theorem Tidy.onSymbolsUpdate (tidy : controller.Tidy) (symbols : List String) :
    (controller.onSymbolsUpdate symbols).1.Tidy :=
  (tidy.besides _ controller.streamId).ensureSymbolSlices _

/-- The streams that symbols add are started. -/
theorem turn_onSymbolsUpdate (tidy : controller.Tidy) (symbols : List String)
    (connection : Connection) :
    Turn Call.toAll .start [] (connection ∈ controller.connections)
      (connection ∈ (controller.onSymbolsUpdate symbols).1.connections)
      (on connection (controller.startsOnSymbolsUpdate symbols)) := by
  refine turn_starts (newSlices_nodup _ _) (fun new old => ?_) mem_ensureSymbolSlices
  obtain ⟨index, added, rfl⟩ := List.mem_map.mp new
  rw [marketData_mem_connections, tidy.index, List.mem_range] at old
  exact absurd (List.mem_range'_1.mp added).1 (Nat.not_le.mpr old)

variable {controller' : Controller core}

/-- A step that opens no stream and creates no session keeps the connections. -/
theorem mem_connections_congr (tidy : controller.Tidy) (tidy' : controller'.Tidy)
    (indices : controller'.marketData.map MarketData.index =
      controller.marketData.map MarketData.index)
    (orderEntry : controller'.orderEntry = controller.orderEntry)
    (dropCopy : ∀ account, (∃ session, controller'.dropCopy.lookup account = some (some session)) ↔
      ∃ session, controller.dropCopy.lookup account = some (some session))
    (connection : Connection) :
    connection ∈ controller'.connections ↔ connection ∈ controller.connections := by
  cases connection with
  | marketData index => rw [marketData_mem_connections, marketData_mem_connections, indices]
  | orderEntry account => rw [orderEntry_mem_connections, orderEntry_mem_connections, orderEntry]
  | dropCopy account =>
    rw [dropCopy_mem_connections tidy', dropCopy_mem_connections tidy]
    exact dropCopy account

/-! ## New private sessions -/

variable {account token : String}

theorem Tidy.assign (tidy : controller.Tidy) {session : DropCopy}
    (own : session.account = account) :
    Tidy { controller with dropCopy := assign account session controller.dropCopy } := by
  refine ⟨tidy.index, tidy.orderEntry, ?_, fun name other found => ?_⟩
  · have keys : (Controller.assign account session controller.dropCopy).map Prod.fst =
        controller.dropCopy.map Prod.fst := by
      rw [Controller.assign, List.map_map]
      refine List.map_congr_left fun entry _ => ?_
      simp only [Function.comp_apply]
      split
      · next same => exact same.symm
      · rfl
    change ((Controller.assign account session controller.dropCopy).map Prod.fst).Nodup
    rw [keys]
    exact tidy.dropCopy
  · simp only [lookup_assign] at found
    split at found
    · next same =>
      obtain ⟨entry, -, new⟩ := Option.map_eq_some_iff.mp found
      cases new
      rw [same]
      exact own
    · exact tidy.owned name other found

/-- The private session that a token creates is started. -/
theorem turn_onTokenUpdate (tidy : controller.Tidy)
    (updated : controller.onTokenUpdate account token = some controller') :
    controller'.Tidy ∧ ∀ connection, Turn Call.toAll .start [] (connection ∈ controller.connections)
      (connection ∈ controller'.connections)
      (on connection (controller.startsOnTokenUpdate account)) := by
  unfold onTokenUpdate at updated
  split at updated
  · cases updated
  · next found =>
    cases updated
    rw [startsOnTokenUpdate, found]
    exact ⟨tidy, fun connection => .own Iff.rfl rfl fun _ => rfl⟩
  · next found =>
    cases updated
    rw [startsOnTokenUpdate, found]
    have tidy' := @Tidy.assign _ _ account
      (tidy.besides controller.shared (controller.streamId + 1))
      { streamId := controller.streamId + 1, account, token } rfl
    refine ⟨tidy', fun connection => ?_⟩
    refine @turn_starts [.dropCopy account] (List.nodup_singleton _) connection _ _ ?_ ?_
    · intro new old
      cases List.mem_singleton.mp new
      obtain ⟨session, known⟩ := (dropCopy_mem_connections tidy).mp old
      rw [found] at known
      cases known
    · cases connection with
      | marketData index => simp
      | orderEntry name => simp
      | dropCopy name =>
        rw [dropCopy_mem_connections tidy, dropCopy_mem_connections tidy', lookup_assign]
        by_cases same : name = account
        · simp [same, found]
        · simp [same]

/-! ## Steps -/

variable {server : Server} {settings : Settings} {event : Event} {out : List (Source × Output)}

/-- An event of the controller: the tables stay tidy, every connection hears what it
should, and only streams that are there put something out. -/
structure Connects (server : Server) (settings : Settings)
    (controller controller' : Controller core) (event : Event)
    (out : List (Source × Output)) : Prop where
  tidy : controller'.Tidy
  turn : ∀ connection, Turn Call.toAll .start event.toAll (connection ∈ controller.connections)
    (connection ∈ controller'.connections) (on connection (controller.calls server settings event))
  live : ∀ source output, (source, output) ∈ out → source.connection ∈ controller'.connections

theorem live_onSymbolsUpdate (symbols : List String) {source : Source} {output : Output}
    (member : (source, output) ∈ (controller.onSymbolsUpdate symbols).2) :
    source.connection ∈ (controller.onSymbolsUpdate symbols).1.connections := by
  obtain ⟨session, listed, tagged⟩ := List.mem_flatMap.mp member
  obtain ⟨rfl, -⟩ := mem_tag.mp tagged
  exact marketData_mem_connections.mpr (List.mem_map_of_mem listed)

theorem connects_onSymbolsUpdate (tidy : controller.Tidy) (symbols : List String) :
    Connects server settings controller (controller.onSymbolsUpdate symbols).1
      (.symbolsUpdate symbols) (controller.onSymbolsUpdate symbols).2 where
  tidy := tidy.onSymbolsUpdate symbols
  turn connection := turn_onSymbolsUpdate tidy symbols connection
  live _ _ member := live_onSymbolsUpdate symbols member

theorem connects_onSubscribe (tidy : controller.Tidy) (symbols : List String) :
    Connects server settings controller (controller.onSubscribe symbols).1 (.subscribe symbols)
      (controller.onSubscribe symbols).2 := by
  let known : Controller core :=
    { controller with
      shared := { controller.shared with
        allSymbols := (emplaceNew controller.shared.allSymbols symbols).1 } }
  have tidy' : known.Tidy := tidy.besides _ _
  have same : controller.onSubscribe symbols =
      known.onSymbolsUpdate (emplaceNew controller.shared.allSymbols symbols).2 := rfl
  obtain ⟨after, turn, live⟩ := @connects_onSymbolsUpdate _ known server settings tidy' _
  rw [same]
  exact ⟨after, turn, live⟩

theorem connects_onTimer (tidy : controller.Tidy) (now : Int) :
    Connects server settings controller (controller.onTimer settings now).1 (.timer now)
      (controller.onTimer settings now).2 := by
  have indices : (controller.onTimer settings now).1.marketData.map MarketData.index =
      controller.marketData.map MarketData.index := by
    rw [onTimer, List.map_map]
    exact List.map_congr_left fun session _ => (session.onTimer_spec settings now).1
  have length : (controller.onTimer settings now).1.marketData.length =
      controller.marketData.length := List.length_map _
  have tidy' : (controller.onTimer settings now).1.Tidy :=
    ⟨by rw [indices, length, tidy.index], tidy.orderEntry, tidy.dropCopy, tidy.owned⟩
  have same := mem_connections_congr tidy tidy' indices rfl fun _ => Iff.rfl
  refine ⟨tidy', fun connection => ?_, fun source output member => ?_⟩
  · rw [same]
    exact turn_callAll (nodup_connections tidy) connection rfl
  · obtain ⟨session, listed, tagged⟩ := List.mem_flatMap.mp member
    obtain ⟨rfl, -⟩ := mem_tag.mp tagged
    exact (same _).mpr (marketData_mem_connections.mpr (List.mem_map_of_mem listed))

theorem connects_dropCopy (tidy : controller.Tidy) {account : String} {received : DropCopy.Event}
    (stepped : step server settings controller (.dropCopy account received) =
      some (controller', out)) :
    Connects server settings controller controller' (.dropCopy account received) out := by
  obtain ⟨session, next, outputs, found, first, rfl, rfl⟩ := step_dropCopy stepped
  have own : next.account = account := by
    rw [(DropCopy.step_constant first).2.1]
    exact tidy.owned account session found
  have tidy' := tidy.assign own
  have same := mem_connections_congr tidy tidy' rfl rfl fun name => by
    rw [lookup_assign]
    by_cases here : name = account
    · simp [here, found]
    · simp [here]
  have live : Connection.dropCopy account ∈ controller.connections :=
    (dropCopy_mem_connections tidy).mpr ⟨session, found⟩
  refine ⟨tidy', fun connection => turn_touch (same connection) live, ?_⟩
  · intro source output member
    obtain ⟨rfl, -⟩ := mem_tag.mp member
    exact (same _).mpr live

theorem connects_marketData (tidy : controller.Tidy) {position : Nat}
    {received : MarketData.Event}
    (stepped : step server settings controller (.marketData position received) =
      some (controller', out)) :
    Connects server settings controller controller' (.marketData position received) out := by
  simp only [step, onMarketData, Option.bind_eq_bind, Option.bind_eq_some_iff] at stepped
  obtain ⟨session, found, result, handled, rest⟩ := stepped
  have identities := congrArg (List.map Prod.snd) (identity_set found handled)
  rw [List.map_map, List.map_map] at identities
  have indices : (controller.marketData.set position result.session).map MarketData.index =
      controller.marketData.map MarketData.index := identities
  let after : Controller core :=
    { controller with
      shared := result.shared
      marketData := controller.marketData.set position result.session }
  have tidy' : after.Tidy := by
    refine ⟨?_, tidy.orderEntry, tidy.dropCopy, tidy.owned⟩
    change (controller.marketData.set position result.session).map MarketData.index = _
    rw [indices, tidy.index]
    simp [after]
  have same := mem_connections_congr tidy tidy' indices rfl fun _ => Iff.rfl
  have live : Connection.marketData session.index ∈ controller.connections :=
    marketData_mem_connections.mpr (List.mem_map_of_mem (List.mem_of_getElem? found))
  have split : controller.calls server settings (.marketData position received) =
      (if received.touches then [(.marketData session.index, .touch)] else []) ++
        if result.newSymbols.isEmpty then []
        else after.startsOnSymbolsUpdate result.newSymbols := by
    simp only [calls, callsOnMarketData, found, handled]
    simp [startsOnSymbolsUpdate, newSlices, after]
  have sources : ∀ source output,
      (source, output) ∈ tag (.marketData session.index) result.outputs →
      source.connection ∈ after.connections := by
    intro source output member
    obtain ⟨rfl, -⟩ := mem_tag.mp member
    exact (same _).mpr live
  by_cases quiet : result.newSymbols.isEmpty = true
  · rw [if_pos quiet] at rest
    cases rest
    refine ⟨tidy', fun connection => ?_, sources⟩
    rw [split, if_pos quiet, List.append_nil]
    exact turn_touch (same connection) live
  · rw [if_neg quiet] at rest
    cases rest
    refine ⟨tidy'.onSymbolsUpdate _, fun connection => ?_, fun source output member => ?_⟩
    · rw [split, if_neg quiet, on_append]
      have second := turn_onSymbolsUpdate tidy' result.newSymbols connection
      rw [same connection] at second
      exact (turn_touch Iff.rfl live).trans second
    · rcases List.mem_append.mp member with own | sent
      · exact mem_ensureSymbolSlices.mpr (.inl (sources source output own))
      · exact live_onSymbolsUpdate _ sent

theorem connects_step (tidy : controller.Tidy)
    (stepped : step server settings controller event = some (controller', out)) :
    Connects server settings controller controller' event out := by
  have nodup := nodup_connections tidy
  cases event with
  | start =>
    cases stepped
    exact ⟨tidy, fun connection => turn_callAll nodup connection rfl,
      fun _ _ member => absurd member List.not_mem_nil⟩
  | stop =>
    cases stepped
    exact ⟨tidy, fun connection => turn_callAll nodup connection rfl,
      fun _ _ member => absurd member List.not_mem_nil⟩
  | timer now =>
    obtain ⟨rfl, rfl⟩ := step_timer stepped
    exact connects_onTimer tidy now
  | subscribe symbols =>
    obtain ⟨rfl, rfl⟩ := step_subscribe stepped
    exact connects_onSubscribe tidy symbols
  | symbolsUpdate symbols =>
    obtain ⟨rfl, rfl⟩ := step_symbolsUpdate stepped
    exact connects_onSymbolsUpdate tidy symbols
  | tokenUpdate account token =>
    obtain ⟨updated, rfl⟩ := step_tokenUpdate stepped
    obtain ⟨tidy', turn⟩ := turn_onTokenUpdate tidy updated
    exact ⟨tidy', turn, fun _ _ member => absurd member List.not_mem_nil⟩
  | request request =>
    obtain ⟨rfl, sent⟩ := step_request stepped
    refine ⟨tidy, fun connection => .own Iff.rfl rfl fun _ => rfl, fun source output member => ?_⟩
    rcases sent with rfl | ⟨session, found, rfl⟩
    · cases member
    · obtain ⟨rfl, -⟩ := mem_tag.mp member
      change Connection.dropCopy session.account ∈ controller'.connections
      rw [tidy.owned _ session found]
      exact (dropCopy_mem_connections tidy).mpr ⟨session, found⟩
  | marketData position received => exact connects_marketData tidy stepped
  | dropCopy account received => exact connects_dropCopy tidy stepped

theorem tidy_create (config : Config) : (create core config).Tidy := by
  have sound := @sound_create core config
  refine ⟨rfl, ?_, ?_, owned_create config⟩
  · rw [show (create core config).orderEntry.map Prod.fst = config.accounts from sound.orderEntry]
    exact config.nodup
  · exact nodup_accounts sound

end Connections

end Controller

namespace System

variable {core : Symbols} {download : OrderEntry.Download2}

/-! ## Calls of the gateway -/

/-- What the streams send, behind the other calls of the event. -/
def sends (out : List Emitted) : List (Connection × Call) :=
  out.filterMap fun
    | .stream source (.send frame) => some (source.connection, .send frame)
    | _ => none

/-- The calls that an effect of the REST session of an account leads to: its own requests,
and the start of the private session that a token creates. -/
def callsOf (account : String) (raises : Nat → Option OrderEntry.Exception)
    (controller : Controller core) (call : OrderEntry.Effect × Nat) : List (Connection × Call) :=
  match call.1 with
  | .request path name sequence => [(.orderEntry account, .request path name sequence)]
  | .tokenUpdate holder _ =>
    match raises call.2 with
    | none => controller.startsOnTokenUpdate holder
    | some _ => []
  | _ => []

/-- The calls of a turn, while the controller handles the tokens in it. -/
def turnCalls (account : String) (raises : Nat → Option OrderEntry.Exception) :
    Controller core → List (OrderEntry.Effect × Nat) → List (Connection × Call)
  | _, [] => []
  | controller, call :: calls =>
    callsOf account raises controller call ++
      match handToken raises controller call with
      | none => []
      | some controller => turnCalls account raises controller calls

/-- The calls on connections at an event. -/
def calls (system : System core download) (server : Server) (settings : Settings) (event : Event)
    (out : List Emitted) : List (Connection × Call) :=
  match event with
  | .controller event _ => system.controller.calls server settings event ++ sends out
  | .orderEntry account event =>
    turnCalls account event.raises system.controller (effectsOf account out).zipIdx

/-- The gateway as its connections see it: what all of them hear, and the calls. -/
def connect (decoders : OrderEntry.Decoders) (server : Server) (settings : Settings) :
    Step (System core download) Event (List Call × List (Connection × Call)) :=
  fun system event =>
    (step decoders server settings system event).map fun (next, out) =>
      (next, match event with
        | .controller event _ => event.toAll
        | .orderEntry .. => [],
      system.calls server settings event out)

/-- What happens to one connection. -/
def historyOf (connection : Connection)
    (log : List (Event × List Call × List (Connection × Call))) : List (List Call × List Call) :=
  log.map fun entry => (entry.2.1, on connection entry.2.2)

section Run

variable {decoders : OrderEntry.Decoders} {server : Server} {settings : Settings} {config : Config}
  {system system' : System core download} {event : Event} {events : List Event}

/-! ## Turns of REST sessions -/

/-- One effect of a turn of the REST session of an account. -/
theorem turn_callsOf {account : String} {raises : Nat → Option OrderEntry.Exception}
    {call : OrderEntry.Effect × Nat} {controller controller' : Controller core}
    (tidy : controller.Tidy) (live : Connection.orderEntry account ∈ controller.connections)
    (handed : handToken raises controller call = some controller') :
    controller'.Tidy ∧ Connection.orderEntry account ∈ controller'.connections ∧
      ∀ connection, Turn Call.toAll .start [] (connection ∈ controller.connections)
        (connection ∈ controller'.connections)
        (on connection (callsOf account raises controller call)) := by
  obtain ⟨effect, index⟩ := call
  cases effect with
  | tokenUpdate holder token =>
    simp only [handToken, callsOf] at handed ⊢
    cases raised : raises index with
    | none =>
      rw [raised] at handed
      obtain ⟨tidy', turn⟩ := Controller.turn_onTokenUpdate tidy handed
      exact ⟨tidy', (turn _).stays live, turn⟩
    | some exception =>
      rw [raised] at handed
      rcases Controller.onTokenUpdateRaised_cases handed with rfl | rfl
      · exact ⟨tidy, live, fun connection => .own Iff.rfl rfl fun _ => rfl⟩
      · exact ⟨tidy.besides _ _, live, fun connection => .own Iff.rfl rfl fun _ => rfl⟩
  | request path name sequence =>
    cases handed
    refine ⟨tidy, live, fun connection => turn_own Iff.rfl fun entry listed => ?_⟩
    cases List.mem_singleton.mp listed
    exact ⟨rfl, fun here => here ▸ live⟩
  | _ =>
    cases handed
    exact ⟨tidy, live, fun connection => .own Iff.rfl rfl fun _ => rfl⟩

theorem turn_turnCalls {account : String} {raises : Nat → Option OrderEntry.Exception}
    {turns : List (OrderEntry.Effect × Nat)} {controller controller' : Controller core}
    (tidy : controller.Tidy) (live : Connection.orderEntry account ∈ controller.connections)
    (handed : handTokens raises controller turns = some controller') :
    controller'.Tidy ∧ ∀ connection, Turn Call.toAll .start []
      (connection ∈ controller.connections) (connection ∈ controller'.connections)
      (on connection (turnCalls account raises controller turns)) := by
  induction turns generalizing controller with
  | nil =>
    cases handed
    exact ⟨tidy, fun connection => .own Iff.rfl rfl fun _ => rfl⟩
  | cons call turns ih =>
    simp only [handTokens, List.foldlM_cons, Option.bind_eq_bind,
      Option.bind_eq_some_iff] at handed
    obtain ⟨middle, first, rest⟩ := handed
    obtain ⟨tidy', live', turn⟩ := turn_callsOf tidy live first
    obtain ⟨done, later⟩ := ih tidy' live' rest
    refine ⟨done, fun connection => ?_⟩
    rw [turnCalls, on_append, first]
    exact (turn connection).trans (later connection)

/-! ## Runs -/

/-- The tables of the controller are tidy, and it knows the REST sessions. -/
structure Tidy (system : System core download) : Prop where
  controller : system.controller.Tidy
  orderEntry : ∀ account ∈ system.orderEntry.map Prod.fst,
    Connection.orderEntry account ∈ system.controller.connections

/-- What is sent goes out on a connection that is there. -/
theorem turn_sends {controller : Controller core} {out : List (Source × Output)}
    (live : ∀ source output, (source, output) ∈ out → source.connection ∈ controller.connections)
    (connection : Connection) :
    Turn Call.toAll .start [] (connection ∈ controller.connections)
      (connection ∈ controller.connections)
      (on connection (sends (out.map fun entry => .stream entry.1 entry.2))) := by
  refine turn_own Iff.rfl fun entry listed => ?_
  rw [sends, List.filterMap_map] at listed
  obtain ⟨⟨source, output⟩, member, sent⟩ := List.mem_filterMap.mp listed
  cases output with
  | send frame =>
    cases sent
    exact ⟨rfl, fun here => here ▸ live source _ member⟩
  | dispatch event => cases sent

/-- **Steps.**  What an event does to the connections. -/
theorem connect_step {toAll : List Call} {calls : List (Connection × Call)} (tidy : system.Tidy)
    (connected : connect decoders server settings system event = some (system', toAll, calls)) :
    system'.Tidy ∧ ∀ connection, Turn Call.toAll .start toAll
      (connection ∈ system.controller.connections) (connection ∈ system'.controller.connections)
      (on connection calls) := by
  obtain ⟨⟨next, out⟩, stepped, same⟩ := Option.map_eq_some_iff.mp connected
  cases same
  cases event with
  | controller event external =>
    obtain ⟨controller, outputs, first, rfl, rfl⟩ := step_controller stepped
    obtain ⟨tidy', turn, live⟩ := Controller.connects_step tidy.controller first
    refine ⟨⟨tidy', fun account listed => (turn _).stays (tidy.orderEntry account listed)⟩, ?_⟩
    intro connection
    rw [System.calls, on_append]
    exact (turn connection).trans (turn_sends live connection)
  | orderEntry account event =>
    obtain ⟨session, after, effects, controller, found, -, handed, rfl, rfl⟩ :=
      step_orderEntry stepped
    have listed : account ∈ system.orderEntry.map Prod.fst := by
      obtain ⟨front, back, table, -⟩ := List.lookup_eq_some_iff.mp found
      simp [table]
    obtain ⟨tidy', turn⟩ := turn_turnCalls tidy.controller (tidy.orderEntry account listed) handed
    refine ⟨⟨tidy', fun name member => ?_⟩, fun connection => ?_⟩
    · rw [map_fst_replace] at member
      exact (turn _).stays (tidy.orderEntry name member)
    · rw [System.calls, effectsOf_orderEntry]
      exact turn connection

theorem tidy_create : (create core download config).Tidy := by
  refine ⟨Controller.tidy_create config, fun account listed => ?_⟩
  rw [Controller.orderEntry_mem_connections]
  simpa [create, List.map_map, Function.comp_def] using listed

/-- `Start` opens what the constructor created. -/
theorem lived_start (tidy : system.Tidy) (connection : Connection) :
    Lived Call.toAll .start (connection ∈ system.controller.connections)
      (historyOf connection [(.controller .start trivial, [.start],
        system.calls server settings (.controller .start trivial) [])]) := by
  have calls : on connection (system.calls server settings (.controller .start trivial) []) =
      if connection ∈ system.controller.connections then [.start] else [] := by
    have all := on_callAll (Controller.nodup_connections tidy.controller) connection .start
    simpa [System.calls, Controller.calls, sends] using all
  rw [historyOf, List.map_singleton, calls]
  by_cases created : connection ∈ system.controller.connections
  · rw [if_pos created]
    have split : [([Call.start], [Call.start])] =
      ([] : List (List Call × List Call)) ++ ([.start], [.start]) :: [] := rfl
    exact .opened created split (by simp) rfl (by simp)
  · rw [if_neg created]
    exact .waiting created (by simp)

/-- **Connections of a run.**  In a run that begins with `Start` every connection is started
before anything else is called on it, in the step that creates its stream or in the first
one, and after that step it hears every start, stop and timer once and none besides. -/
theorem connections_run {log : List (Event × List Call × List (Connection × Call))}
    (ran : (connect decoders server settings).run (create core download config)
      (.controller .start trivial :: events) = some (system, log)) (connection : Connection) :
    Lived Call.toAll .start (connection ∈ system.controller.connections)
      (historyOf connection log) := by
  obtain ⟨started, out, later, first, tail, rfl⟩ := Step.run_cons.mp ran
  obtain ⟨tidy, turn⟩ := connect_step tidy_create first
  have start : Lived Call.toAll .start (connection ∈ started.controller.connections)
      (historyOf connection [(.controller .start trivial, out)]) := by
    cases first
    exact lived_start tidy connection
  have done := @Step.run_induction _ _ _ _ _ _ _ _
    (fun (system : System core download) past => system.Tidy ∧
      Lived Call.toAll .start (connection ∈ system.controller.connections)
        (historyOf connection past)) [(.controller .start trivial, out)] tail ?_ ⟨tidy, start⟩
  · exact done.2
  · rintro system past event system' ⟨toAll, calls⟩ - ⟨tidy, lived⟩ connected
    obtain ⟨tidy', turn⟩ := connect_step tidy connected
    rw [historyOf, List.map_append]
    exact ⟨tidy', lived.turn (turn connection)⟩

/-- The gateway starts, an account signs in, and a timer runs. -/
def startAndSignIn : List Event :=
  .controller .start trivial :: signIn ++ [.controller (.timer 1) trivial]

theorem connections_run_signIn :
    ∃ (system : System (Symbols.chunked 128 (by decide)) OrderEntry.countingDownload)
      (log : List (Event × List Call × List (Connection × Call))),
      (connect OrderEntry.sampleDecoders ⟨255, fun _ => false⟩ {}).run
        (create _ _ ⟨["A1"], by decide⟩) startAndSignIn = some (system, log) ∧
      Lived Call.toAll .start (.dropCopy "A1" ∈ system.controller.connections)
        (historyOf (.dropCopy "A1") log) := by
  cases ran : (connect OrderEntry.sampleDecoders ⟨255, fun _ => false⟩ {}).run
      (create (Symbols.chunked 128 (by decide)) OrderEntry.countingDownload ⟨["A1"], by decide⟩)
      startAndSignIn with
  | none => cases ran
  | some result => exact ⟨result.1, result.2, rfl, connections_run ran (.dropCopy "A1")⟩

end Run

end System

end RoqKraken.Gateway
