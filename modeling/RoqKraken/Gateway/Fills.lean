import RoqKraken.Gateway.DropCopy
import Mathlib.Data.List.Forall2

/-!
# Fills and the trades a session reports

The executions handler dispatches a `TradeUpdate` for an item of exec type
`trade` that the order manager matched to an order, unless it discards the item.
Over a whole run of a session the trade updates are therefore the live fills one
by one, each right after the order update of its item, and what snapshots list
is never reported.
-/

namespace RoqKraken.Gateway

namespace DropCopy

variable {server : Server} {settings : Settings} {session session' : DropCopy}
  {events : List Event} {log : List (Event × List Output)}

/-! ## Executions of a run -/

/-- An item of an executions message, with the type of the message and the order
that the order manager matches it to. -/
structure Execution where
  type : Json.MessageType
  item : Json.ExecutionsDataItem
  matched : Option Order
deriving DecidableEq

/-- The executions an event delivers. -/
def Event.executions : Event → List Execution
  | .message (.executions executions) oms =>
    executions.data.zipIdx.map fun entry => ⟨executions.type, entry.1, oms entry.2⟩
  | _ => []

/-- The executions delivered over a run. -/
def executions (events : List Event) : List Execution := events.flatMap Event.executions

/-- The fill an execution stands for, if it is live and belongs to a user's
order: `SOURCE_NONE` is the mark of no match. -/
def Execution.fill (server : Server) (execution : Execution) :
    Option (Json.ExecutionsDataItem × Order) :=
  if execution.type = .update ∧ execution.item.execType = .trade then
    (execution.matched.filter fun order => order.userId ≠ server.sourceNone).map fun order =>
      (execution.item, order)
  else none

/-- The live fills of a run. -/
def fills (server : Server) (events : List Event) : List (Json.ExecutionsDataItem × Order) :=
  (executions events).filterMap (Execution.fill server)

theorem fills_cons (event : Event) : fills server (event :: events) =
    event.executions.filterMap (Execution.fill server) ++ fills server events := by
  simp only [fills, executions, List.flatMap_cons, List.filterMap_append]

/-- The trade updates among the outputs with the users they go to, each with the
output before it. -/
def tradeReports : Option Output → List Output → List (Option Output × TradeUpdate × UInt8)
  | _, [] => []
  | previous, output :: outputs =>
    match output with
    | .dispatch (.tradeUpdate update userId) =>
      (previous, update, userId) :: tradeReports (some output) outputs
    | _ => tradeReports (some output) outputs

theorem tradeReports_append (previous : Option Output) (left right : List Output) :
    tradeReports previous (left ++ right) =
      tradeReports previous left ++ tradeReports (left.getLast?.or previous) right := by
  induction left generalizing previous with
  | nil => rfl
  | cons output left ih =>
    have last : (output :: left).getLast?.or previous = left.getLast?.or (some output) := by
      simp only [List.getLast?_cons]
      cases left.getLast? <;> rfl
    rw [last]
    simp only [List.cons_append, tradeReports]
    split
    · rw [ih, List.cons_append]
    · exact ih _

theorem tradeReports_eq_nil {outputs : List Output}
    (other : ∀ update userId, .dispatch (.tradeUpdate update userId) ∉ outputs)
    (previous : Option Output) : tradeReports previous outputs = [] := by
  induction outputs generalizing previous with
  | nil => rfl
  | cons output outputs ih =>
    have later := ih fun update userId member => other update userId (List.mem_cons_of_mem _ member)
    unfold tradeReports
    split
    · exact absurd (List.mem_cons_self ..) (other _ _)
    · exact later _

/-- How a fill is reported: the order update of its item, then its trade. -/
def report (session : DropCopy) (settings : Settings) (fill : Json.ExecutionsDataItem × Order) :
    Option Output × TradeUpdate × UInt8 :=
  (some (.dispatch (.orderUpdate (session.orderUpdate settings .incremental fill.1))),
    session.tradeUpdate settings .incremental fill.1 fill.2, fill.2.userId)

/-- One item reports the fill it stands for. -/
theorem tradeReports_executionsItem (execution : Execution)
    (type : execution.type = .snapshot ∨ execution.type = .update) (previous : Option Output) :
    tradeReports previous ((session.executionsItem server settings execution.type execution.item
        execution.matched).map .dispatch) =
      ((execution.fill server).map (session.report settings)).toList := by
  rcases execution with ⟨_, item, matched⟩
  rcases type with rfl | rfl
  · have none : (Execution.mk .snapshot item matched).fill server = none := by
      simp [Execution.fill]
    rw [none]
    refine tradeReports_eq_nil (fun update userId member => ?_) previous
    obtain ⟨dispatched, there, same⟩ := List.mem_map.mp member
    cases same
    unfold executionsItem at there
    split at there
    · cases there
    · next kept =>
      have other : item.execType ≠ .trade := by
        intro trade
        simp [trade, discard] at kept
      cases matched with
      | none => simp at there
      | some order => simp [other] at there
  · simp only [executionsItem, discard_update, Execution.fill, Bool.false_eq_true, if_false,
      true_and]
    cases matched with
    | none => simp [tradeReports]
    | some order =>
      by_cases trade : item.execType = .trade
      · by_cases user : order.userId = server.sourceNone
        · simp [trade, user, tradeReports, Option.filter_some]
        · simp only [trade, Option.filter_some]
          simp [user, tradeReports]
          rfl
      · simp [trade, tradeReports]

/-- Items report their fills in order. -/
theorem tradeReports_items (items : List Execution)
    (types : ∀ execution ∈ items, execution.type = .snapshot ∨ execution.type = .update)
    (previous : Option Output) :
    tradeReports previous ((items.flatMap fun execution =>
        session.executionsItem server settings execution.type execution.item
          execution.matched).map .dispatch) =
      (items.filterMap (Execution.fill server)).map (session.report settings) := by
  induction items generalizing previous with
  | nil => rfl
  | cons execution items ih =>
    rw [List.forall_mem_cons] at types
    rw [List.flatMap_cons, List.map_append, tradeReports_append,
      tradeReports_executionsItem execution types.1, ih types.2, List.filterMap_cons]
    cases execution.fill server <;> rfl

theorem onExecutions_eq (executions : Json.Executions) (oms : Nat → Option Order) :
    session.onExecutions server settings executions oms =
      (Event.message (.executions executions) oms).executions.flatMap fun execution =>
        session.executionsItem server settings execution.type execution.item
          execution.matched := by
  simp only [onExecutions, Event.executions, List.flatMap_map]

/-- One step reports the fills of the items it is handed. -/
theorem tradeReports_step {event : Event} {out : List Output}
    (types : ∀ execution ∈ event.executions, execution.type = .snapshot ∨ execution.type = .update)
    (stepped : step server settings session event = some (session', out))
    (previous : Option Output) : tradeReports previous out =
      (event.executions.filterMap (Execution.fill server)).map (session.report settings) := by
  have silent : event.executions = [] →
      (∀ executions oms, event ≠ .message (.executions executions) oms) →
      tradeReports previous out =
        (event.executions.filterMap (Execution.fill server)).map (session.report settings) := by
    intro none other
    rw [none]
    refine tradeReports_eq_nil (fun update userId member => ?_) previous
    obtain ⟨executions, oms, same⟩ := step_dispatch stepped member
    exact other executions oms same
  cases event with
  | message message oms =>
    cases message with
    | executions executions =>
      cases stepped
      rw [onExecutions_eq]
      exact tradeReports_items _ types previous
    | _ => exact silent rfl (by simp)
  | _ => exact silent rfl (by simp)

/-- Over a run the trades are the live fills, one by one. -/
theorem tradeReports_run
    (types : ∀ execution ∈ executions events,
      execution.type = .snapshot ∨ execution.type = .update)
    (ran : (step server settings).run session events = some (session', log))
    (previous : Option Output) : tradeReports previous (outputs log) =
      (fills server events).map (session.report settings) := by
  induction events generalizing session log previous with
  | nil =>
    obtain ⟨-, rfl⟩ := Step.run_nil.mp ran
    rfl
  | cons event events ih =>
    obtain ⟨next, out, rest, first, tail, rfl⟩ := Step.run_cons.mp ran
    obtain ⟨streamId, account, -⟩ := step_constant first
    have same : next.report settings = session.report settings := by
      funext fill
      simp only [report, orderUpdate, tradeUpdate, streamId, account]
    simp only [executions, List.flatMap_cons, List.forall_mem_append] at types
    rw [outputs_cons, tradeReports_append, tradeReports_step types.1 first, ih types.2 tail, same,
      ← List.map_append, fills_cons]

/-! ## Fills are reported once -/

/-- What a trade update has to say about a fill, and what comes before it. -/
structure Reports (session : DropCopy) (settings : Settings)
    (fill : Json.ExecutionsDataItem × Order)
    (reported : Option Output × TradeUpdate × UInt8) : Prop where
  follows : reported.1 =
    some (.dispatch (.orderUpdate (session.orderUpdate settings .incremental fill.1)))
  fills : reported.2.1.fills.map
      (fun fill => (fill.quantity, fill.price, fill.liquidity, fill.externalTradeId)) =
    [(fill.1.lastQty, fill.1.lastPrice, fill.1.liquidityInd.map, toString fill.1.tradeId)]
  userId : reported.2.2 = fill.2.userId
  orderId : reported.2.1.orderId = fill.2.orderId
  strategyId : reported.2.1.strategyId = fill.2.strategyId

/-- **Fills of a run.**  The trade updates are exactly the live fills, in order,
each with the fill and the order of its own item and right after its order
update. -/
theorem fills_reported_once
    (types : ∀ execution ∈ executions events,
      execution.type = .snapshot ∨ execution.type = .update)
    (ran : (step server settings).run session events = some (session', log)) :
    List.Forall₂ (Reports session settings) (fills server events)
      (tradeReports none (outputs log)) := by
  rw [tradeReports_run types ran]
  exact List.forall₂_map_right_iff.mpr (List.forall₂_same.mpr fun fill _ =>
    ⟨rfl, rfl, rfl, rfl, rfl⟩)

/-- A trade of an order. -/
def tradeItem (tradeId : Int) : Json.ExecutionsDataItem where
  orderId := "OHS47E-VEKOV-BTNQES"
  symbol := "BTC/USDT"
  clOrdId := "b17c7bb34d000200"
  execType := .trade
  side := .buy
  tradeId := tradeId
  lastQty := 0.5
  lastPrice := 89961.0
  liquidityInd := .taker

/-- A live trade between two snapshots that list it too. -/
def liveTrade : List Event :=
  let order : Nat → Option Order := fun _ => some { userId := 7, orderId := 1000 }
  [.message (.executions ⟨.snapshot, [tradeItem 10563454]⟩) order,
    .message (.executions ⟨.update, [tradeItem 10563454]⟩) order,
    .message (.executions ⟨.snapshot, [tradeItem 10563454]⟩) order]

theorem fills_reported_once_liveTrade :
    ∃ log, (step ⟨255, fun _ => false⟩ {}).run ⟨3, "A1", "T", .ready⟩ liveTrade =
        some (⟨3, "A1", "T", .ready⟩, log) ∧
      List.Forall₂ (Reports ⟨3, "A1", "T", .ready⟩ {})
        (fills ⟨255, fun _ => false⟩ liveTrade) (tradeReports none (outputs log)) :=
  ⟨_, rfl, @fills_reported_once ⟨255, fun _ => false⟩ {} ⟨3, "A1", "T", .ready⟩
    ⟨3, "A1", "T", .ready⟩ liveTrade _ (by decide) rfl⟩

/-! ## Reconnects -/

/-- How many trade updates name a trade of an order. -/
def timesReported (clOrdId tradeId : String) (outputs : List Output) : Nat :=
  (tradeReports none outputs).countP fun reported =>
    reported.2.1.clientOrderId = clOrdId ∧
      reported.2.1.fills.map Fill.externalTradeId = [tradeId]

/-- The item lists a trade of an order. -/
def Lists (clOrdId tradeId : String) (item : Json.ExecutionsDataItem) : Prop :=
  item.execType = .trade ∧ item.clOrdId = clOrdId ∧ toString item.tradeId = tradeId

instance (clOrdId tradeId : String) (item : Json.ExecutionsDataItem) :
    Decidable (Lists clOrdId tradeId item) :=
  inferInstanceAs (Decidable (_ ∧ _))

/-- How many live items of an order that is known list a trade of it. -/
def timesLive (server : Server) (clOrdId tradeId : String) (events : List Event) : Nat :=
  (fills server events).countP fun fill => Lists clOrdId tradeId fill.1

/-- A fill is a trade of a live item. -/
theorem mem_fills {fill : Json.ExecutionsDataItem × Order} (member : fill ∈ fills server events) :
    fill.1.execType = .trade ∧
      ∃ execution ∈ executions events, execution.type = .update ∧ execution.item = fill.1 := by
  obtain ⟨execution, there, found⟩ := List.mem_filterMap.mp member
  unfold Execution.fill at found
  split at found
  · next live =>
    obtain ⟨order, -, rfl⟩ := Option.map_eq_some_iff.mp found
    exact ⟨live.2, execution, there, live.1, rfl⟩
  · cases found

/-- **Trades across reconnects.**  A trade is reported as often as live items list
it, and not at all when only snapshots do. -/
theorem trades_reported_as_listed_live
    (types : ∀ execution ∈ executions events,
      execution.type = .snapshot ∨ execution.type = .update)
    (ran : (step server settings).run session events = some (session', log))
    (clOrdId tradeId : String) :
    timesReported clOrdId tradeId (outputs log) = timesLive server clOrdId tradeId events ∧
      ((∀ execution ∈ executions events, Lists clOrdId tradeId execution.item →
        execution.type = .snapshot) → timesReported clOrdId tradeId (outputs log) = 0) := by
  have often : timesReported clOrdId tradeId (outputs log) =
      timesLive server clOrdId tradeId events := by
    unfold timesReported timesLive
    rw [tradeReports_run types ran, List.countP_map]
    refine List.countP_congr fun fill member => ?_
    simp [report, tradeUpdate, Lists, (mem_fills member).1]
  refine ⟨often, fun onlySnapshots => ?_⟩
  rw [often]
  refine List.countP_eq_zero.mpr fun fill member => ?_
  obtain ⟨-, execution, there, live, same⟩ := mem_fills member
  simp only [decide_eq_true_eq]
  intro lists
  have snapshot := onlySnapshots execution there (same ▸ lists)
  rw [live] at snapshot
  cases snapshot

/-- A trade while the session is down, listed in the snapshot after the reconnect. -/
def tradeInGap : List Event :=
  [.ready, .message .status fun _ => none, .disconnected, .ready,
    .message .status fun _ => none,
    .message (.executions ⟨.snapshot, [tradeItem 10563454]⟩) fun _ =>
      some { userId := 7, orderId := 1000 }]

theorem trades_reported_as_listed_live_gap :
    ∃ log, (step ⟨255, fun _ => false⟩ {}).run ⟨3, "A1", "T", .undefined⟩ tradeInGap =
        some (⟨3, "A1", "T", .ready⟩, log) ∧
      timesReported "b17c7bb34d000200" "10563454" (outputs log) =
        timesLive ⟨255, fun _ => false⟩ "b17c7bb34d000200" "10563454" tradeInGap ∧
      ((∀ execution ∈ executions tradeInGap,
        Lists "b17c7bb34d000200" "10563454" execution.item → execution.type = .snapshot) →
          timesReported "b17c7bb34d000200" "10563454" (outputs log) = 0) :=
  ⟨_, rfl, @trades_reported_as_listed_live ⟨255, fun _ => false⟩ {} ⟨3, "A1", "T", .undefined⟩
    ⟨3, "A1", "T", .ready⟩ tradeInGap _ (by decide) rfl "b17c7bb34d000200" "10563454"⟩

/-- The trade of the gap is not reported. -/
theorem trade_in_gap_is_lost :
    ¬ ∀ (server : Server) (settings : Settings) (session session' : DropCopy)
      (before after : List Event) (log : List (Event × List Output)),
      (step server settings).run session (before ++ .disconnected :: after) =
        some (session', log) →
      ∀ execution ∈ executions after, execution.type = .snapshot →
        execution.item.execType = .trade →
        (∃ order, execution.matched = some order ∧ order.userId ≠ server.sourceNone) →
        (∀ other ∈ executions before, other.item.tradeId ≠ execution.item.tradeId) →
        timesReported execution.item.clOrdId (toString execution.item.tradeId) (outputs log) =
          1 := by
  intro reported
  have once := reported ⟨255, fun _ => false⟩ {} ⟨3, "A1", "T", .undefined⟩
    ⟨3, "A1", "T", .ready⟩ [.ready, .message .status fun _ => none] (tradeInGap.drop 3) _ rfl
    ⟨.snapshot, tradeItem 10563454, some { userId := 7, orderId := 1000 }⟩ (by decide) rfl rfl
    ⟨_, rfl, by decide⟩ (by decide)
  revert once
  decide

end DropCopy

end RoqKraken.Gateway
