import RoqKraken.Gateway.Parsing
import RoqKraken.Gateway.Statuses
import RoqKraken.Gateway.Stopping

/-!
# The gateway on texts

What the exchange sends are texts.  `System.receive` is the gateway with its parsers:
a text goes through `Parser::dispatch` with the session of its connection as the
handler.  `System.received_run`: a run on texts is the run on the messages in them,
output by output.  What the parser lets pass leaves no trace, and a text ends the
process exactly if the parser raises or its message belongs on the other side.  With
it the theorems about runs of the gateway hold for whatever texts arrive.

The handlers are again taken not to raise: what the order manager and the clients do
in a callback is not the parser's business, but the `catch (...)` of `parse` would end
the process for it.
-/

namespace RoqKraken

namespace Json

open RoqKraken.Json.Parser (Decides recognise)

/-- The message that `dispatch` hands over. -/
def Decoders.message? (parser : Decoders) (members : Members) : Option Message :=
  ((members.find? fun pair => decide (Decides pair)).bind recognise).bind (parser.decode members)

/-- `dispatch` returns false: there is nothing in the text that it knows. -/
def Passes (allowUnknownEventTypes : Bool) (members : Members) : Prop :=
  allowUnknownEventTypes = true ∧ ∀ pair ∈ members, ¬ Decides pair

instance (allowUnknownEventTypes : Bool) (members : Members) :
    Decidable (Passes allowUnknownEventTypes members) :=
  inferInstanceAs (Decidable (_ ∧ _))

/-- `dispatch` raises before it reaches a handler. -/
def Decoders.Rejects (parser : Decoders) (allowUnknownEventTypes : Bool) (members : Members) :
    Prop :=
  parser.message? members = none ∧ ¬ Passes allowUnknownEventTypes members

variable {parser : Decoders} {allowUnknownEventTypes : Bool} {members : Members}

/-- What a handler makes of a text is what it makes of the message in it. -/
theorem handled_eq {α : Type} (handle : Message → Option α) (unhandled : α) :
    (match members.find? fun pair => decide (Decides pair) with
      | some pair => (recognise pair).bind fun type => (parser.decode members type).bind handle
      | none => if allowUnknownEventTypes then some unhandled else none) =
      match parser.message? members with
      | some message => handle message
      | none => if Passes allowUnknownEventTypes members then some unhandled else none := by
  rw [Decoders.message?]
  cases found : members.find? fun pair => decide (Decides pair) with
  | none =>
    have unknown : ∀ pair ∈ members, ¬ Decides pair := fun pair member => by
      simpa using List.find?_eq_none.mp found pair member
    have passes : Passes allowUnknownEventTypes members ↔ allowUnknownEventTypes = true :=
      and_iff_left unknown
    simp [passes]
  | some pair =>
    have known : ¬ Passes allowUnknownEventTypes members := fun passes =>
      passes.2 pair (List.mem_of_find?_eq_some found) (by simpa using List.find?_some found)
    simp only [Option.bind_some, if_neg known]
    cases recognise pair with
    | none => rfl
    | some type => cases decoded : parser.decode members type <;> simp [decoded]

end Json

namespace Gateway

open Json (Members Passes)

/-! ## Sessions -/

section Sessions

variable (parser : Json.Decoders) (server : Server) (settings : Settings)
  (allowUnknownEventTypes : Bool)

/-- A private session handles the message in a text. -/
theorem DropCopy.parse_message (session : DropCopy) (members : Members)
    (oms : Nat → Option Order) :
    session.parse parser server settings allowUnknownEventTypes members oms =
      match parser.message? members with
      | some message => session.onMessage server settings oms message
      | none => if Passes allowUnknownEventTypes members then some (session, []) else none :=
  (parse_eq ..).trans (Json.handled_eq ..)

/-- A public stream handles the message in a text. -/
theorem MarketData.parse_message {core : Symbols} (session : MarketData) (shared : Shared core)
    (members : Members) :
    session.parse parser server settings allowUnknownEventTypes shared members =
      match parser.message? members with
      | some message => session.onMessage server settings shared message
      | none =>
        if Passes allowUnknownEventTypes members then some { session, shared } else none :=
  (parse_eq ..).trans (Json.handled_eq ..)

end Sessions

/-! ## Streams of the controller -/

namespace Controller

variable {core : Symbols}

/-- What the controller makes of what a public stream did. -/
def afterMarketData (controller : Controller core) (index : Nat) (session : MarketData)
    (result : MarketData.Result core) : Controller core × List (Source × Output) :=
  let controller :=
    { controller with
      shared := result.shared
      marketData := controller.marketData.set index result.session }
  let outputs := tag (.marketData session.index) result.outputs
  if result.newSymbols.isEmpty then
    (controller, outputs)
  else
    let (controller, sent) := controller.onSymbolsUpdate result.newSymbols
    (controller, outputs ++ sent)

/-- `MarketData::operator()(Trace<web::socket::Text>)`. -/
def onPublicText (controller : Controller core) (parser : Json.Decoders) (server : Server)
    (settings : Settings) (allowUnknownEventTypes : Bool) (index : Nat) (members : Members) :
    Option (Controller core × List (Source × Output)) := do
  let session ← controller.marketData[index]?
  let result ← session.parse parser server settings allowUnknownEventTypes controller.shared
    members
  some (controller.afterMarketData index session result)

/-- `DropCopy::operator()(Trace<web::socket::Text>)`. -/
def onPrivateText (controller : Controller core) (parser : Json.Decoders) (server : Server)
    (settings : Settings) (allowUnknownEventTypes : Bool) (account : String) (members : Members)
    (oms : Nat → Option Order) : Option (Controller core × List (Source × Output)) := do
  let session ← (controller.dropCopy.lookup account).join
  let (session, outputs) ← session.parse parser server settings allowUnknownEventTypes members oms
  some
    ({ controller with dropCopy := assign account session controller.dropCopy },
      tag (.dropCopy account) outputs)

variable {parser : Json.Decoders} {server : Server} {settings : Settings}
  {allowUnknownEventTypes : Bool} {controller : Controller core} {members : Members}

theorem onMarketData_eq (index : Nat) (event : MarketData.Event) :
    controller.onMarketData server settings index event =
      (do
        let session ← controller.marketData[index]?
        let result ← session.onEvent server settings controller.shared event
        some (controller.afterMarketData index session result)) := by
  unfold onMarketData
  cases controller.marketData[index]? with
  | none => rfl
  | some session =>
    cases handled : session.onEvent server settings controller.shared event with
    | none => simp only [Option.bind_eq_bind, Option.bind_some, handled, Option.bind_none]
    | some result =>
      simp only [Option.bind_eq_bind, Option.bind_some, handled, afterMarketData]
      split <;> rfl

/-- A stream that lets a text pass is as it was. -/
theorem afterMarketData_unchanged {index : Nat} {session : MarketData}
    (found : controller.marketData[index]? = some session) :
    controller.afterMarketData index session { session, shared := controller.shared } =
      (controller, []) := by
  obtain ⟨bound, rfl⟩ := List.getElem?_eq_some_iff.mp found
  simp [afterMarketData, tag]

theorem onPublicText_eq {index : Nat} (present : index < controller.marketData.length) :
    controller.onPublicText parser server settings allowUnknownEventTypes index members =
      match parser.message? members with
      | some message => controller.onMarketData server settings index (.message message)
      | none => if Passes allowUnknownEventTypes members then some (controller, []) else none := by
  have found := List.getElem?_eq_getElem present
  rw [onPublicText, found, Option.bind_eq_bind, Option.bind_some, MarketData.parse_message]
  cases parser.message? members with
  | none =>
    by_cases passes : Passes allowUnknownEventTypes members
    · simp [passes, afterMarketData_unchanged found]
    · simp [passes]
  | some message =>
    simp only [onMarketData_eq, found]
    rfl

theorem onPrivateText_eq {account : String} {session : DropCopy} {oms : Nat → Option Order}
    (keys : (controller.dropCopy.map Prod.fst).Nodup)
    (found : controller.dropCopy.lookup account = some (some session)) :
    controller.onPrivateText parser server settings allowUnknownEventTypes account members oms =
      match parser.message? members with
      | some message => controller.onDropCopy server settings account (.message message oms)
      | none => if Passes allowUnknownEventTypes members then some (controller, []) else none := by
  obtain ⟨front, back, table, assigned⟩ := assign_entry keys found
  have same : assign account session controller.dropCopy = controller.dropCopy := by
    rw [assigned, table]
  rw [onPrivateText, found, Option.join_some, Option.bind_eq_bind, Option.bind_some,
    DropCopy.parse_message]
  cases parser.message? members with
  | none =>
    by_cases passes : Passes allowUnknownEventTypes members
    · simp [passes, same, tag]
    · simp [passes]
  | some message =>
    simp only [onDropCopy, found]
    rfl

end Controller

/-! ## The gateway -/

namespace System

variable {core : Symbols} {download : OrderEntry.Download2}

/-- Anything but a message, which arrives as a text. -/
def Event.Plain : Event → Prop
  | .controller (.marketData _ (.message _)) _ => False
  | .controller (.dropCopy _ (.message ..)) _ => False
  | _ => True

/-- What reaches the gateway; a text is given by the pairs of its top-level object. -/
inductive Arrival where
  | event (event : Event) (plain : event.Plain)
  | publicText (index : Nat) (members : Members)
  | privateText (account : String) (members : Members) (oms : Nat → Option Order)

/-- One arrival at the gateway.  `none`: the process stops, or there is no such stream. -/
def receive (parser : Json.Decoders) (decoders : OrderEntry.Decoders) (server : Server)
    (settings : Settings) (allowUnknownEventTypes : Bool) :
    Step (System core download) Arrival (List Emitted) :=
  fun system arrival =>
    match arrival with
    | .event event _ => step decoders server settings system event
    | .publicText index members => do
      let (controller, out) ← system.controller.onPublicText parser server settings
        allowUnknownEventTypes index members
      some ({ system with controller }, out.map fun entry => .stream entry.1 entry.2)
    | .privateText account members oms => do
      let (controller, out) ← system.controller.onPrivateText parser server settings
        allowUnknownEventTypes account members oms
      some ({ system with controller }, out.map fun entry => .stream entry.1 entry.2)

/-- The event that an arrival is for the gateway, if it is one. -/
def Arrival.event? (parser : Json.Decoders) : Arrival → Option Event
  | .event received _ => some received
  | .publicText index members => (parser.message? members).map fun message =>
    .controller (.marketData index (.message message)) trivial
  | .privateText account members oms => (parser.message? members).map fun message =>
    .controller (.dropCopy account (.message message oms)) trivial

/-- The parser lets the arrival pass. -/
def Arrival.Passes (allowUnknownEventTypes : Bool) : Arrival → Prop
  | .event .. => False
  | .publicText _ members => Json.Passes allowUnknownEventTypes members
  | .privateText _ members _ => Json.Passes allowUnknownEventTypes members

instance (allowUnknownEventTypes : Bool) :
    (arrival : Arrival) → Decidable (arrival.Passes allowUnknownEventTypes)
  | .event .. => inferInstanceAs (Decidable False)
  | .publicText .. => inferInstanceAs (Decidable (Json.Passes _ _))
  | .privateText .. => inferInstanceAs (Decidable (Json.Passes _ _))

/-- The connection on which a text arrives exists. -/
def Arrival.Connected (system : System core download) : Arrival → Prop
  | .event .. => True
  | .publicText index _ => index < system.controller.marketData.length
  | .privateText account .. =>
    ∃ session, system.controller.dropCopy.lookup account = some (some session)

/-- The entry of the log that an arrival is for the gateway. -/
def messageIn (parser : Json.Decoders) (entry : Arrival × List Emitted) :
    List (Event × List Emitted) :=
  (entry.1.event? parser).toList.map fun event => (event, entry.2)

section Receive

variable {parser : Json.Decoders} {decoders : OrderEntry.Decoders} {server : Server}
  {settings : Settings} {allowUnknownEventTypes : Bool} {system system' : System core download}
  {arrival : Arrival} {out : List Emitted}

/-- An arrival is handled as the event it is, passes, or ends the process. -/
theorem receive_eq (keys : (system.controller.dropCopy.map Prod.fst).Nodup)
    (connected : arrival.Connected system) :
    receive parser decoders server settings allowUnknownEventTypes system arrival =
      match arrival.event? parser with
      | some event => step decoders server settings system event
      | none => if arrival.Passes allowUnknownEventTypes then some (system, []) else none := by
  cases arrival with
  | event event plain => rfl
  | publicText index members =>
    rw [receive, Controller.onPublicText_eq connected]
    simp only [Arrival.event?, Arrival.Passes]
    cases parser.message? members with
    | none => by_cases passes : Passes allowUnknownEventTypes members <;> simp [passes]
    | some message => rfl
  | privateText account members oms =>
    obtain ⟨session, found⟩ := connected
    rw [receive, Controller.onPrivateText_eq keys found]
    simp only [Arrival.event?, Arrival.Passes]
    cases parser.message? members with
    | none => by_cases passes : Passes allowUnknownEventTypes members <;> simp [passes]
    | some message => rfl

/-- What arrives arrives on a connection that is there. -/
theorem connected_of_receive
    (received : receive parser decoders server settings allowUnknownEventTypes system arrival =
      some (system', out)) : arrival.Connected system := by
  cases arrival with
  | event => trivial
  | publicText index members =>
    simp only [receive, Controller.onPublicText, Option.bind_eq_bind,
      Option.bind_eq_some_iff] at received
    obtain ⟨_, ⟨session, found, -⟩, -⟩ := received
    exact (List.getElem?_eq_some_iff.mp found).1
  | privateText account members oms =>
    simp only [receive, Controller.onPrivateText, Option.bind_eq_bind,
      Option.bind_eq_some_iff] at received
    obtain ⟨_, ⟨session, found, -⟩, -⟩ := received
    exact ⟨session, Option.join_eq_some_iff.mp found⟩

/-- What passes does nothing. -/
theorem receive_cases (keys : (system.controller.dropCopy.map Prod.fst).Nodup)
    (received : receive parser decoders server settings allowUnknownEventTypes system arrival =
      some (system', out)) :
    (∃ event, arrival.event? parser = some event ∧
      step decoders server settings system event = some (system', out)) ∨
    arrival.event? parser = none ∧ arrival.Passes allowUnknownEventTypes ∧
      system' = system ∧ out = [] := by
  rw [receive_eq keys (connected_of_receive received)] at received
  cases found : arrival.event? parser with
  | some event => exact .inl ⟨event, rfl, by rwa [found] at received⟩
  | none =>
    simp only [found] at received
    split at received
    · next passes =>
      cases received
      exact .inr ⟨rfl, passes, rfl, rfl⟩
    · cases received

theorem receive_publicText_eq_none {index : Nat} {members : Members}
    (present : index < system.controller.marketData.length) :
    receive parser decoders server settings allowUnknownEventTypes system
        (.publicText index members) = none ↔
      parser.Rejects allowUnknownEventTypes members ∨
        ∃ message, parser.message? members = some message ∧ message.isPrivate = true := by
  have handled : receive parser decoders server settings allowUnknownEventTypes system
        (.publicText index members) = none ↔
      system.controller.onPublicText parser server settings allowUnknownEventTypes index
        members = none := by
    cases done : system.controller.onPublicText parser server settings allowUnknownEventTypes
      index members <;> simp [receive, done]
  rw [handled, Controller.onPublicText_eq present, Json.Decoders.Rejects]
  cases parser.message? members with
  | none => by_cases passes : Passes allowUnknownEventTypes members <;> simp [passes]
  | some message =>
    have stops : system.controller.onMarketData server settings index (.message message) = none ↔
        message.isPrivate = true :=
      Controller.step_marketData_eq_none (List.getElem?_eq_getElem present)
    simpa using stops

theorem receive_privateText_eq_none {account : String} {members : Members}
    {oms : Nat → Option Order} {session : DropCopy}
    (keys : (system.controller.dropCopy.map Prod.fst).Nodup)
    (found : system.controller.dropCopy.lookup account = some (some session)) :
    receive parser decoders server settings allowUnknownEventTypes system
        (.privateText account members oms) = none ↔
      parser.Rejects allowUnknownEventTypes members ∨
        ∃ message, parser.message? members = some message ∧ message.isPublic = true := by
  have handled : receive parser decoders server settings allowUnknownEventTypes system
        (.privateText account members oms) = none ↔
      system.controller.onPrivateText parser server settings allowUnknownEventTypes account
        members oms = none := by
    cases done : system.controller.onPrivateText parser server settings allowUnknownEventTypes
      account members oms <;> simp [receive, done]
  rw [handled, Controller.onPrivateText_eq keys found, Json.Decoders.Rejects]
  cases parser.message? members with
  | none => by_cases passes : Passes allowUnknownEventTypes members <;> simp [passes]
  | some message =>
    have stops : system.controller.onDropCopy server settings account (.message message oms) =
        none ↔ message.isPublic = true := Controller.step_dropCopy_eq_none found
    simpa using stops

end Receive

section Run

variable {parser : Json.Decoders} {decoders : OrderEntry.Decoders} {server : Server}
  {settings : Settings} {allowUnknownEventTypes : Bool} {config : Config}
  {system : System core download} {arrivals : List Arrival}
  {log : List (Arrival × List Emitted)}

/-- The gateway on texts simulates the gateway on messages. -/
theorem simulates_messages : Step.Simulates
    (receive parser decoders server settings allowUnknownEventTypes)
    (step decoders server settings)
    (fun (system system' : System core download) => system = system' ∧ system'.Keyed config)
    (messageIn parser) := by
  rintro system arrival system' out _ ⟨rfl, keyed⟩ received
  rcases receive_cases keyed.nodup received with ⟨event, found, stepped⟩ | ⟨none, -, rfl, rfl⟩
  · refine ⟨system', ?_, rfl, (step_announces keyed stepped).1⟩
    simp [messageIn, found, Step.run, stepped]
  · exact ⟨system', by simp [messageIn, none, Step.run], rfl, keyed⟩

theorem map_fst_messageIn (log : List (Arrival × List Emitted)) :
    (log.flatMap (messageIn parser)).map Prod.fst =
      (log.map Prod.fst).filterMap (Arrival.event? parser) := by
  induction log with
  | nil => rfl
  | cons entry log ih =>
    rw [List.flatMap_cons, List.map_append, ih, List.map_cons, messageIn]
    cases found : entry.1.event? parser with
    | none => simp [found]
    | some event => simp [found]

/-- Texts without a message were let pass, and nothing was put out for them. -/
theorem passes_run
    (ran : (receive parser decoders server settings allowUnknownEventTypes).run
      (create core download config) arrivals = some (system, log)) :
    ∀ entry ∈ log, entry.1.event? parser = none →
      entry.1.Passes allowUnknownEventTypes ∧ entry.2 = [] := by
  refine Step.forall_mem_log ran ?_ (@ownStatuses_create core download config).2
  intro system arrival system' out _ keyed received
  rcases receive_cases keyed.nodup received with ⟨event, found, stepped⟩ | ⟨-, passes, rfl, rfl⟩
  · exact ⟨(step_announces keyed stepped).1, fun none => by simp [found] at none⟩
  · exact ⟨keyed, fun _ => ⟨passes, rfl⟩⟩

/-- **Texts.**  A run of the gateway on texts is its run on the messages in them; texts
without one are unknown, where those are allowed, and put out nothing; and a text on a
connection ends the process exactly if the parser raises, or if the message in it belongs
on the other side. -/
theorem received_run
    (ran : (receive parser decoders server settings allowUnknownEventTypes).run
      (create core download config) arrivals = some (system, log)) :
    (step decoders server settings).run (create core download config)
        (arrivals.filterMap (Arrival.event? parser)) =
      some (system, log.flatMap (messageIn parser)) ∧
    (∀ entry ∈ log, entry.1.event? parser = none →
      entry.1.Passes allowUnknownEventTypes ∧ entry.2 = []) ∧
    (∀ index members, index < system.controller.marketData.length →
      (receive parser decoders server settings allowUnknownEventTypes system
          (.publicText index members) = none ↔
        parser.Rejects allowUnknownEventTypes members ∨
          ∃ message, parser.message? members = some message ∧ message.isPrivate = true)) ∧
    ∀ account session members oms,
      system.controller.dropCopy.lookup account = some (some session) →
      (receive parser decoders server settings allowUnknownEventTypes system
          (.privateText account members oms) = none ↔
        parser.Rejects allowUnknownEventTypes members ∨
          ∃ message, parser.message? members = some message ∧ message.isPublic = true) := by
  have keyed := (@ownStatuses_create core download config).2
  obtain ⟨system', matched, rfl, still⟩ := simulates_messages.run ⟨rfl, keyed⟩ ran
  rw [map_fst_messageIn, Step.map_fst_log ran] at matched
  exact ⟨matched, passes_run ran, fun index members => receive_publicText_eq_none,
    fun account session members oms => receive_privateText_eq_none still.nodup⟩

/-- Texts on both sides, two of them unknown. -/
def amongUnknown : List Arrival :=
  [.publicText 0 [("channel", .string "status"), ("type", .string "update")],
    .publicText 0 [("channel", .string "level3")],
    .event (.orderEntry "A1" { input := .connected }) trivial,
    .event (.orderEntry "A1" { input := .ack .token (.ok (.success, OrderEntry.tokenBody)) 1 })
      trivial,
    .privateText "A1" [("time_in", .null)] fun _ => none,
    .privateText "A1" [("method", .string "add_order"), ("error", .string "EOrder:Unknown")]
      fun _ => none]

/-- They are let pass, and a method that is null still ends the process. -/
theorem received_run_amongUnknown :
    ∃ (system : System (Symbols.chunked 128 (by decide)) OrderEntry.countingDownload)
      (log : List (Arrival × List Emitted)),
      (receive Json.Parser.plainDecoders OrderEntry.sampleDecoders ⟨255, fun _ => false⟩ {}
        true).run (create _ _ ⟨["A1"], by decide⟩) amongUnknown = some (system, log) ∧
      (step OrderEntry.sampleDecoders ⟨255, fun _ => false⟩ {}).run
        (create _ _ ⟨["A1"], by decide⟩)
        (amongUnknown.filterMap (Arrival.event? Json.Parser.plainDecoders)) =
          some (system, log.flatMap (messageIn Json.Parser.plainDecoders)) ∧
      receive Json.Parser.plainDecoders OrderEntry.sampleDecoders ⟨255, fun _ => false⟩ {} true
        system (.publicText 0 [("method", .null)]) = none := by
  have ran : ((receive Json.Parser.plainDecoders OrderEntry.sampleDecoders ⟨255, fun _ => false⟩
      {} true).run (create (Symbols.chunked 128 (by decide)) OrderEntry.countingDownload
        ⟨["A1"], by decide⟩) amongUnknown).any
      (fun result => decide (0 < result.1.controller.marketData.length)) = true := by
    decide +kernel
  obtain ⟨⟨system, log⟩, ran, present⟩ := Option.any_eq_true _ _ |>.mp ran
  obtain ⟨messages, -, publicTexts, -⟩ := received_run ran
  exact ⟨system, log, ran, messages,
    (publicTexts 0 _ (of_decide_eq_true present)).mpr (.inl ⟨rfl, by decide⟩)⟩

end Run

end System

end Gateway

end RoqKraken
