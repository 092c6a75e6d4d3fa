import RoqKraken.Gateway.Exchange
import RoqKraken.Gateway.Isolation

/-!
# Orders on their way to the exchange

From a client's request to what the exchange reads there are three steps: the
controller finds the session of the account, the session puts the request and its
token into a frame, and the frame becomes a text.  Nothing on this way asks whether the
connection is up, and what is sent while it is down is lost.  `orders_run` takes the steps
together: on the private connection of an account the exchange reads the requests that
the account made while the connection was up, in order, each once and with the token of
the account, between the requests that subscribe, and nothing else.
-/

namespace RoqKraken.Gateway.System

open JsonText

variable {core : Symbols} {download : OrderEntry.Download2} {decoders : OrderEntry.Decoders}
  {server : Server} {settings : Settings} {config : Config} {system : System core download}
  {events : List Event} {log : List (Event × List Emitted)} {format : Format}

/-- The order request in an event of a private session. -/
def asked? : DropCopy.Event → Option DropCopy.Request
  | .request asked => some asked
  | _ => none

/-- Is the connection up after the event? -/
def isUp (up : Bool) : DropCopy.Event → Bool
  | .ready => true
  | .disconnected => false
  | _ => up

/-- What the private session of an account does while its connection is up. -/
def upTrace (settings : Settings) (account : String) (log : List (Event × List Emitted)) :
    List (DropCopy.Event × List Output) :=
  whileOn (fun up entry => isUp up entry.1) false (log.flatMap (dropCopyTrace settings account))

/-- The order requests that reach the private session of an account then. -/
def ordersOf (settings : Settings) (account : String) (log : List (Event × List Emitted)) :
    List DropCopy.Request :=
  (upTrace settings account log).filterMap fun entry => asked? entry.1

/-- What the exchange reads on the private connection of an account. -/
def readsOf (format : Format) (settings : Settings) (account : String)
    (log : List (Event × List Emitted)) : List Value :=
  ((frames (DropCopy.outputs (upTrace settings account log))).map
    (Frame.text format settings)).filterMap fun text => read text.toList

/-- Does a request act on orders? -/
def isOrder (request : Value) : Bool :=
  match member? "method" request with
  | some (.string method) =>
    method ∈ ["add_order", "amend_order", "cancel_order", "cancel_all"]
  | _ => false

/-- Does a request subscribe? -/
def isSubscribe (request : Value) : Bool :=
  match member? "method" request with
  | some (.string method) => method = "subscribe"
  | _ => false

theorem isOrder_frame (format : Format) (settings : Settings) (token : String)
    (asked : DropCopy.Request) : isOrder ((asked.frame token).value format settings) = true := by
  cases asked <;> rfl

/-- What one event of a session makes the exchange read. -/
theorem reads_sends (lawful : format.Lawful) {token : String} (plain : Plain token)
    {received : DropCopy.Event}
    (encodable : ∀ asked, asked? received = some asked → (asked.frame token).Encodable) :
    (((received.sends token).map (Frame.text format settings)).filterMap
        fun text => read text.toList).filter isOrder =
      ((asked? received).map fun asked => (asked.frame token).value format settings).toList ∧
    ∀ request ∈ ((received.sends token).map (Frame.text format settings)).filterMap
        (fun text => read text.toList), isOrder request = true ∨ isSubscribe request = true := by
  have executions : (Frame.subscribeToken "executions" token).Encodable :=
    ⟨by decide, plain⟩
  have balances : (Frame.subscribeToken "balances" token).Encodable :=
    ⟨by decide, plain⟩
  unfold DropCopy.Event.sends
  split
  · simp only [List.map_cons, List.map_nil, List.filterMap_cons, List.filterMap_nil,
      Frame.read_text lawful executions, Frame.read_text lawful balances]
    refine ⟨rfl, fun request member => ?_⟩
    simp only [List.mem_cons, List.not_mem_nil, or_false] at member
    rcases member with rfl | rfl <;> exact .inr rfl
  · next asked =>
    simp only [List.map_cons, List.map_nil, List.filterMap_cons, List.filterMap_nil,
      Frame.read_text lawful (encodable asked rfl)]
    have order := isOrder_frame format settings token asked
    refine ⟨by simp [asked?, order], fun request member => ?_⟩
    cases List.mem_singleton.mp member
    exact .inl order
  · next other =>
    have silent : asked? received = none := by
      cases received with
      | request asked => exact (other asked rfl).elim
      | _ => rfl
    rw [silent]
    exact ⟨rfl, by simp⟩

/-- **Orders of an account.**  On the private connection of an account that has its token
the exchange reads, besides requests that subscribe, exactly the order requests that the
account made while the connection was up: in order, each once, with this token. -/
theorem orders_run (lawful : format.Lawful)
    (ran : (step decoders server settings).run (create core download config) events =
      some (system, log))
    {account token : String} (member : account ∈ config.accounts)
    (handed : log.findSome? (handedToken account) = some token) (plain : Plain token)
    (encodable : ∀ asked ∈ ordersOf settings account log, (asked.frame token).Encodable) :
    (readsOf format settings account log).filter isOrder =
        (ordersOf settings account log).map
          (fun asked => (asked.frame token).value format settings) ∧
      ∀ request ∈ readsOf format settings account log,
        isOrder request = true ∨ isSubscribe request = true := by
  have sends : ∀ entry ∈ upTrace settings account log,
      frames entry.2 = entry.1.sends token := fun entry there =>
    frames_of_mem_dropCopyTrace ran member handed entry (whileOn_sublist.subset there)
  rw [readsOf, frames_outputs sends]
  unfold ordersOf at encodable ⊢
  generalize upTrace settings account log = received at encodable ⊢
  clear sends
  induction received with
  | nil => exact ⟨rfl, by simp⟩
  | cons entry received ih =>
    obtain ⟨first, firstKinds⟩ := @reads_sends settings format lawful token plain entry.1
      fun asked found =>
        encodable asked (List.mem_filterMap.mpr ⟨entry, List.mem_cons_self .., found⟩)
    obtain ⟨rest, restKinds⟩ := ih fun asked found => by
      obtain ⟨other, there, same⟩ := List.mem_filterMap.mp found
      exact encodable asked (List.mem_filterMap.mpr ⟨other, List.mem_cons_of_mem _ there, same⟩)
    rw [List.flatMap_cons, List.map_append, List.filterMap_append, List.filter_append, first, rest]
    constructor
    · rw [List.filterMap_cons]
      cases asked? entry.1 <;> rfl
    · intro request there
      rcases List.mem_append.mp there with here | later
      · exact firstKinds request here
      · exact restKinds request later

/-- The account signs in, an order of it is cancelled, and all others after the connection
is lost. -/
def signInAndCancel : List Event :=
  [.orderEntry "A1" { input := .connected },
    .orderEntry "A1" { input := .ack .token (.ok (.success, OrderEntry.tokenBody)) 1 },
    .controller (.dropCopy "A1" .ready) trivial,
    .controller (.dropCopy "A1" (.message .status fun _ => none)) trivial,
    .controller (.request (.cancelOrder ⟨"A1"⟩ ⟨7, 1000, 0, "roq-1", ""⟩)) trivial,
    .controller (.dropCopy "A1" .disconnected) trivial,
    .controller (.request (.cancelAllOrders ⟨"A1"⟩)) trivial]

theorem orders_run_cancel :
    ∃ (system : System (Symbols.chunked 128 (by decide)) OrderEntry.countingDownload)
      (log : List (Event × List Emitted)),
      (step OrderEntry.sampleDecoders ⟨255, fun _ => false⟩ {}).run (create _ _ ⟨["A1"], by decide⟩)
        signInAndCancel = some (system, log) ∧
      ordersOf {} "A1" log = [.cancelOrder ⟨"A1"⟩ ⟨7, 1000, 0, "roq-1", ""⟩] ∧
      (readsOf wholeFormat {} "A1" log).filter isOrder =
          (ordersOf {} "A1" log).map (fun asked => (asked.frame "T").value wholeFormat {}) ∧
        ∀ request ∈ readsOf wholeFormat {} "A1" log,
          isOrder request = true ∨ isSubscribe request = true := by
  have plain : Plain "T" ∧ Plain "roq-1" ∧ Plain "" := by decide
  have facts : (((step OrderEntry.sampleDecoders ⟨255, fun _ => false⟩ {}).run
      (create (Symbols.chunked 128 (by decide)) OrderEntry.countingDownload ⟨["A1"], by decide⟩)
      signInAndCancel).map fun result =>
        (ordersOf {} "A1" result.2, result.2.findSome? (handedToken "A1"))) =
      some ([.cancelOrder ⟨"A1"⟩ ⟨7, 1000, 0, "roq-1", ""⟩], some "T") := by
    decide +kernel
  obtain ⟨⟨system, log⟩, ran, same⟩ := Option.map_eq_some_iff.mp facts
  obtain ⟨orders, handed⟩ := Prod.mk.inj same
  refine ⟨system, log, ran, orders, orders_run wholeFormat_lawful ran (by decide) handed plain.1 ?_⟩
  rw [orders]
  intro asked listed
  cases List.mem_singleton.mp listed
  exact plain

end RoqKraken.Gateway.System
