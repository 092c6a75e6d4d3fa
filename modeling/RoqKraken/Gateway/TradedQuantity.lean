import RoqKraken.Binary64
import RoqKraken.Gateway.DropCopy

/-!
# Execution reports and the traded quantity

An execution report repeats only part of an order's fields; a missing `cum_qty`
means that it is unchanged.  `tradedQuantity` answers zero instead.  This module
follows the traded quantity of one order over a run of a session and settles
when it tracks what the exchange reported.
-/

namespace RoqKraken.Gateway

/-- What an order update says about the traded quantity of which order. -/
def OrderUpdate.stated (update : OrderUpdate) : String × Float :=
  (update.externalOrderId, update.tradedQuantity)

namespace DropCopy

variable {server : Server} {settings : Settings} {session session' : DropCopy}
  {events : List Event} {log : List (Event × List Output)}

/-! ## Order updates of a run -/

/-- The execution items an event delivers. -/
def Event.executionsItems : Event → List Json.ExecutionsDataItem
  | .message (.executions executions) _ => executions.data
  | _ => []

/-- The execution items delivered over a run. -/
def executionsItems (events : List Event) : List Json.ExecutionsDataItem :=
  events.flatMap Event.executionsItems

/-- An executions message the event may deliver is of type UPDATE. -/
def Event.IsUpdate : Event → Prop
  | .message (.executions executions) _ => executions.type = .update
  | _ => True

/-- The order updates among dispatched events. -/
def orderUpdates (outputs : List Output) : List OrderUpdate :=
  outputs.filterMap fun
    | .dispatch (.orderUpdate event) => some event
    | _ => none

@[simp] theorem orderUpdates_append (left right : List Output) :
    orderUpdates (left ++ right) = orderUpdates left ++ orderUpdates right :=
  List.filterMap_append

theorem orderUpdates_eq_nil {outputs : List Output}
    (other : ∀ update, .dispatch (.orderUpdate update) ∉ outputs) :
    orderUpdates outputs = [] := by
  rw [orderUpdates, List.filterMap_eq_nil_iff]
  intro output member
  split
  · next update => exact absurd member (other update)
  · rfl

/-- An item that is not discarded dispatches its one order update. -/
theorem orderUpdates_executionsItem (type : Json.MessageType) (item : Json.ExecutionsDataItem)
    (matched : Option Order) :
    orderUpdates ((session.executionsItem server settings type item matched).map .dispatch) =
      if discard type item.execType then [] else [session.orderUpdate settings type.map item] := by
  unfold executionsItem
  split
  · rfl
  · cases matched with
    | none => rfl
    | some order =>
      simp only [List.map_cons]
      split <;> rfl

/-- A message dispatches one order update for every item that is not discarded. -/
theorem orderUpdates_onExecutions (executions : Json.Executions) (oms : Nat → Option Order) :
    orderUpdates ((session.onExecutions server settings executions oms).map .dispatch) =
      (executions.data.filter fun item => !discard executions.type item.execType).map
        (session.orderUpdate settings executions.type.map) := by
  obtain ⟨type, items⟩ := executions
  have each : ∀ position, orderUpdates (((items.zipIdx position).flatMap fun entry =>
        session.executionsItem server settings type entry.1 (oms entry.2)).map .dispatch) =
      (items.filter fun item => !discard type item.execType).map
        (session.orderUpdate settings type.map) := by
    induction items with
    | nil => exact fun _ => rfl
    | cons item items ih =>
      intro position
      rw [List.zipIdx_cons, List.flatMap_cons, List.map_append, orderUpdates_append,
        orderUpdates_executionsItem, ih]
      cases discarded : discard type item.execType <;> simp [discarded]
  exact each 0

/-- One step dispatches one order update for every item it is handed. -/
theorem orderUpdates_step {event : Event} {out : List Output} (isUpdate : event.IsUpdate)
    (stepped : step server settings session event = some (session', out)) :
    (orderUpdates out).map OrderUpdate.stated =
      event.executionsItems.map fun item => (item.orderId, tradedQuantity item) := by
  have silent : (∀ executions oms, event ≠ .message (.executions executions) oms) →
      orderUpdates out = [] := by
    refine fun other => orderUpdates_eq_nil fun update member => ?_
    obtain ⟨executions, oms, same⟩ := step_dispatch stepped member
    exact other executions oms same
  cases event with
  | message message oms =>
    cases message with
    | executions executions =>
      cases stepped
      have kept : (executions.data.filter fun item => !discard executions.type item.execType) =
          executions.data := by
        refine List.filter_eq_self.mpr fun item _ => ?_
        rw [show executions.type = .update from isUpdate, discard_update]
        rfl
      rw [orderUpdates_onExecutions, kept, List.map_map]
      rfl
    | _ =>
      rw [silent (by simp)]
      rfl
  | _ =>
    rw [silent (by simp)]
    rfl

/-- Over a run the order updates are the delivered items, one by one. -/
theorem orderUpdates_run (isUpdate : ∀ event ∈ events, event.IsUpdate)
    (ran : (step server settings).run session events = some (session', log)) :
    (orderUpdates (outputs log)).map OrderUpdate.stated =
      (executionsItems events).map fun item => (item.orderId, tradedQuantity item) := by
  induction events generalizing session log with
  | nil =>
    obtain ⟨-, rfl⟩ := Step.run_nil.mp ran
    rfl
  | cons event events ih =>
    obtain ⟨next, out, rest, first, tail, rfl⟩ := Step.run_cons.mp ran
    rw [List.forall_mem_cons] at isUpdate
    simp only [outputs_cons, orderUpdates_append, List.map_append,
      orderUpdates_step isUpdate.1 first, ih isUpdate.2 tail, executionsItems, List.flatMap_cons]

/-- The `cum_qty` fields delivered for an order, an absent one being NaN. -/
def cumQtys (orderId : String) (events : List Event) : List Float :=
  ((executionsItems events).filter fun item => item.orderId = orderId).map
    Json.ExecutionsDataItem.cumQty

/-- The traded quantities dispatched for an order. -/
def tradedQuantities (orderId : String) (outputs : List Output) : List Float :=
  ((orderUpdates outputs).filter fun update => update.externalOrderId = orderId).map
    OrderUpdate.tradedQuantity

/-- `tradedQuantity` as a function of the field it reads. -/
def traded (cumQty : Float) : Float := if cumQty.isNaN then 0.0 else cumQty

theorem traded_of_isNaN {cumQty : Float} (absent : cumQty.isNaN = true) : traded cumQty = 0.0 :=
  if_pos absent

theorem traded_of_number {cumQty : Float} (present : cumQty.isNaN = false) :
    traded cumQty = cumQty :=
  if_neg (Bool.eq_false_iff.mp present)

theorem tradedQuantities_run (isUpdate : ∀ event ∈ events, event.IsUpdate)
    (ran : (step server settings).run session events = some (session', log))
    (orderId : String) :
    tradedQuantities orderId (outputs log) = (cumQtys orderId events).map traded := by
  have filtered := congrArg (List.filter fun entry : String × Float => entry.1 = orderId)
    (orderUpdates_run isUpdate ran)
  simp only [List.filter_map, Function.comp_def, OrderUpdate.stated] at filtered
  have quantities := congrArg (List.map Prod.snd) filtered
  simp only [List.map_map, Function.comp_def] at quantities
  rw [tradedQuantities, cumQtys, List.map_map]
  exact quantities

/-! ## Tracking the exchange -/

/-- The last reported quantity after each item, `last` before the first. -/
def reported (last : Float) : List Float → List Float
  | [] => []
  | cumQty :: later =>
    let now := if cumQty.isNaN then last else cumQty
    now :: reported now later

/-- The traded quantities never go back and always are what was last reported,
zero if nothing was. -/
def TracksReports (tradedQuantities cumQtys : List Float) : Prop :=
  tradedQuantities.Pairwise (· ≤ ·) ∧
    List.Forall₂ (fun quantity last => (quantity == last) = true) tradedQuantities
      (reported 0.0 cumQtys)

/-- The exchange never reports less than before. -/
def NonDecreasing (cumQtys : List Float) : Prop :=
  (cumQtys.filter fun cumQty => !cumQty.isNaN).Pairwise (· ≤ ·)

/-- `cum_qty` is left out only while it is zero: what was reported last is zero
(or nothing was reported), and nothing negative follows. -/
def AbsentOnlyAtZero (last : Float) : List Float → Prop
  | [] => True
  | cumQty :: later =>
    (cumQty.isNaN = true →
      ((0.0 : Float) == last) = true ∧ ∀ next ∈ later, next.isNaN = false → 0.0 ≤ next) ∧
    AbsentOnlyAtZero (if cumQty.isNaN then last else cumQty) later

theorem nonDecreasing_cons {cumQty : Float} {later : List Float} :
    NonDecreasing (cumQty :: later) ↔
      (cumQty.isNaN = false → ∀ next ∈ later, next.isNaN = false → cumQty ≤ next) ∧
        NonDecreasing later := by
  unfold NonDecreasing
  cases absent : cumQty.isNaN with
  | true =>
    rw [List.filter_cons_of_neg (by rw [absent]; decide)]
    exact ⟨fun increasing => ⟨nofun, increasing⟩, And.right⟩
  | false =>
    rw [List.filter_cons_of_pos (by rw [absent]; rfl), List.pairwise_cons]
    simp only [List.mem_filter, Bool.not_eq_true', and_imp, forall_const]

/-- An item that leaves `cum_qty` out bounds everything reported before it by
zero. -/
theorem AbsentOnlyAtZero.le_zero {last : Float} {later : List Float}
    (quiet : AbsentOnlyAtZero last later) (increasing : NonDecreasing later)
    (above : ∀ next ∈ later, next.isNaN = false → last ≤ next)
    {absent : Float} (member : absent ∈ later) (isNaN : absent.isNaN = true) : last ≤ 0.0 := by
  induction later generalizing last with
  | nil => cases member
  | cons cumQty later ih =>
    obtain ⟨head, tail⟩ := quiet
    rw [nonDecreasing_cons] at increasing
    cases present : cumQty.isNaN with
    | true => exact Float.le_of_beq (BEq.symm (head present).1)
    | false =>
      rw [present] at tail
      rcases List.mem_cons.mp member with rfl | member
      · rw [present] at isNaN
        cases isNaN
      · exact Float.le_trans (above cumQty (List.mem_cons_self ..) present)
          (ih tail increasing.2 (increasing.1 present) member)

/-- Item by item, the two answers to a missing `cum_qty` agree exactly where the
last report is zero. -/
theorem AbsentOnlyAtZero.forall₂ {last : Float} {cumQtys : List Float}
    (quiet : AbsentOnlyAtZero last cumQtys) :
    List.Forall₂ (fun quantity last => (quantity == last) = true) (cumQtys.map traded)
      (reported last cumQtys) := by
  induction cumQtys generalizing last with
  | nil => exact .nil
  | cons cumQty later ih =>
    obtain ⟨head, tail⟩ := quiet
    refine .cons ?_ (ih tail)
    cases absent : cumQty.isNaN with
    | true =>
      rw [traded_of_isNaN absent]
      exact (head absent).1
    | false =>
      rw [traded_of_number absent]
      exact Float.beq_self_iff.mpr (by simpa using absent)

theorem AbsentOnlyAtZero.pairwise {last : Float} {cumQtys : List Float}
    (quiet : AbsentOnlyAtZero last cumQtys) (increasing : NonDecreasing cumQtys) :
    (cumQtys.map traded).Pairwise (· ≤ ·) := by
  induction cumQtys generalizing last with
  | nil => exact .nil
  | cons cumQty later ih =>
    obtain ⟨head, tail⟩ := quiet
    rw [nonDecreasing_cons] at increasing
    refine List.pairwise_cons.mpr ⟨?_, ih tail increasing.2⟩
    intro quantity member
    obtain ⟨next, delivered, rfl⟩ := List.mem_map.mp member
    cases absent : cumQty.isNaN with
    | true =>
      rw [traded_of_isNaN absent]
      cases absent' : next.isNaN with
      | true =>
        rw [traded_of_isNaN absent']
        exact Float.le_of_beq (by decide)
      | false =>
        rw [traded_of_number absent']
        exact (head absent).2 next delivered absent'
    | false =>
      rw [absent] at tail
      rw [traded_of_number absent]
      cases absent' : next.isNaN with
      | true =>
        rw [traded_of_isNaN absent']
        exact AbsentOnlyAtZero.le_zero tail increasing.2 (increasing.1 absent) delivered absent'
      | false =>
        rw [traded_of_number absent']
        exact increasing.1 absent next delivered absent'

theorem absentOnlyAtZero_of_forall₂ {last : Float} {cumQtys : List Float}
    (increasing : (cumQtys.map traded).Pairwise (· ≤ ·))
    (tracks : List.Forall₂ (fun quantity last => (quantity == last) = true)
      (cumQtys.map traded) (reported last cumQtys)) : AbsentOnlyAtZero last cumQtys := by
  induction cumQtys generalizing last with
  | nil => trivial
  | cons cumQty later ih =>
    rw [List.map_cons, List.pairwise_cons] at increasing
    obtain ⟨head, tail⟩ := List.forall₂_cons.mp tracks
    refine ⟨fun absent => ?_, ih increasing.2 tail⟩
    rw [traded_of_isNaN absent] at head increasing
    rw [if_pos absent] at head
    refine ⟨head, fun next member present => ?_⟩
    have above := increasing.1 (traded next) (List.mem_map_of_mem member)
    rwa [traded_of_number present] at above

/-- **Traded quantity of an order.**  In a run whose executions are updates and
whose reports for the order never decrease, the dispatched traded quantities
track the reports exactly when `cum_qty` is left out only while it is zero. -/
theorem tracksReports_iff {orderId : String} (isUpdate : ∀ event ∈ events, event.IsUpdate)
    (ran : (step server settings).run session events = some (session', log))
    (increasing : NonDecreasing (cumQtys orderId events)) :
    TracksReports (tradedQuantities orderId (outputs log)) (cumQtys orderId events) ↔
      AbsentOnlyAtZero 0.0 (cumQtys orderId events) := by
  rw [tradedQuantities_run isUpdate ran]
  constructor
  · rintro ⟨ordered, tracks⟩
    exact absentOnlyAtZero_of_forall₂ ordered tracks
  · intro quiet
    exact ⟨quiet.pairwise increasing, quiet.forall₂⟩

/-- An order that is acknowledged, without `cum_qty`, and then filled. -/
def newThenTrade : List Event :=
  [.message (.executions
    { type := .update
      data := [{ orderId := "O", execType := .new },
        { orderId := "O", execType := .trade, cumQty := 0.5 }] }) fun _ => none]

theorem tracksReports_iff_new_then_trade :
    ∃ log, (step ⟨255, fun _ => false⟩ {}).run ⟨3, "A1", "T", .ready⟩ newThenTrade =
        some (⟨3, "A1", "T", .ready⟩, log) ∧
      (TracksReports (tradedQuantities "O" (outputs log)) (cumQtys "O" newThenTrade) ↔
        AbsentOnlyAtZero 0.0 (cumQtys "O" newThenTrade)) :=
  ⟨_, rfl, @tracksReports_iff ⟨255, fun _ => false⟩ {} ⟨3, "A1", "T", .ready⟩
    ⟨3, "A1", "T", .ready⟩ newThenTrade _ "O" (by rintro _ (_ | ⟨_, ⟨⟩⟩); rfl) rfl
    (by unfold NonDecreasing; decide)⟩

/-- A report that leaves `cum_qty` out after a partial fill sends the traded
quantity back to zero. -/
theorem traded_quantity_goes_backwards :
    ¬ ∀ (server : Server) (settings : Settings) (session session' : DropCopy)
      (events : List Event) (log : List (Event × List Output)) (orderId : String),
      (∀ event ∈ events, event.IsUpdate) →
      (step server settings).run session events = some (session', log) →
      NonDecreasing (cumQtys orderId events) →
        TracksReports (tradedQuantities orderId (outputs log)) (cumQtys orderId events) := by
  intro tracks
  have backwards := (tracks ⟨255, fun _ => false⟩ {} ⟨3, "A1", "T", .ready⟩
    ⟨3, "A1", "T", .ready⟩
    [.message (.executions
      { type := .update
        data := [{ orderId := "O", execType := .trade, cumQty := 0.5 },
          { orderId := "O", execType := .status }] }) fun _ => none] _ "O"
    (by rintro _ (_ | ⟨_, ⟨⟩⟩); rfl) rfl
    (by unfold NonDecreasing; decide)).1
  exact absurd backwards (by decide)

end DropCopy

end RoqKraken.Gateway
