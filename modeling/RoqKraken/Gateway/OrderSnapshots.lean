import RoqKraken.Gateway.TradedQuantity

/-!
# Snapshots of open orders

After a reconnect the exchange sends a snapshot of executions.  The handler
chooses the items it reports by their exec type: it keeps those of new orders
and leaves all others out, whatever their order status.
-/

namespace RoqKraken.Gateway

/-- What an order update says about which order, and its type. -/
def OrderUpdate.identified (update : OrderUpdate) : Roq.UpdateType × String × String :=
  (update.updateType, update.externalOrderId, update.clientOrderId)

namespace DropCopy

/-- The order of an item still stands. -/
def Live (item : Json.ExecutionsDataItem) : Prop :=
  item.orderStatus = .pendingNew ∨ item.orderStatus = .new ∨ item.orderStatus = .partiallyFilled

/-- An item that reports an execution. -/
def ReportsExecution (item : Json.ExecutionsDataItem) : Prop :=
  item.execType = .trade ∨ item.execType = .filled

/-- An item of an order that has finished. -/
def Finished (item : Json.ExecutionsDataItem) : Prop :=
  item.orderStatus = .filled ∨ item.orderStatus = .canceled ∨ item.orderStatus = .expired

/-- An item of a new order. -/
def ReportsNew (item : Json.ExecutionsDataItem) : Prop :=
  item.execType = .pendingNew ∨ item.execType = .new

instance : DecidablePred ReportsNew := fun _ => inferInstanceAs (Decidable (_ ∨ _))

theorem discard_snapshot (item : Json.ExecutionsDataItem) :
    (!discard .snapshot item.execType) = decide (ReportsNew item) := by
  have each : ∀ execType : Json.ExecType,
      (!discard .snapshot execType) = decide (execType = .pendingNew ∨ execType = .new) := by
    intro execType
    cases execType <;> rfl
  exact each item.execType

/-- **Snapshots of orders.**  A snapshot leads to one order update for every item
of exec type `pending_new` or `new`, in order, and to no other. -/
theorem orderUpdates_snapshot (session : DropCopy) (server : Server) (settings : Settings)
    (items : List Json.ExecutionsDataItem) (oms : Nat → Option Order) :
    (orderUpdates ((session.onExecutions server settings ⟨.snapshot, items⟩ oms).map
        .dispatch)).map OrderUpdate.identified =
      (items.filter ReportsNew).map fun item => (.snapshot, item.orderId, item.clOrdId) := by
  rw [orderUpdates_onExecutions, List.map_map]
  simp only [discard_snapshot]
  rfl

/-- A live order whose last report is an amendment is left out. -/
theorem amended_order_is_left_out :
    ¬ ∀ (session : DropCopy) (server : Server) (settings : Settings)
      (items : List Json.ExecutionsDataItem) (oms : Nat → Option Order),
      ∃ keep : Json.ExecutionsDataItem → Bool,
        (orderUpdates ((session.onExecutions server settings ⟨.snapshot, items⟩ oms).map
            .dispatch)).map OrderUpdate.identified =
          (items.filter keep).map (fun item => (.snapshot, item.orderId, item.clOrdId)) ∧
        ∀ item ∈ items, (Live item → ¬ ReportsExecution item → keep item = true) ∧
          (keep item = false → ReportsExecution item ∨ Finished item) := by
  intro listed
  obtain ⟨keep, updates, chosen⟩ := listed ⟨3, "A1", "T", .ready⟩ ⟨255, fun _ => false⟩ {}
    [{ orderId := "O", execType := .amended, orderStatus := .new }] fun _ => none
  have kept := (chosen _ (List.mem_singleton_self _)).1 (.inr (.inl rfl))
    (by simp [ReportsExecution])
  rw [List.filter_cons_of_pos kept] at updates
  cases updates

end DropCopy

end RoqKraken.Gateway
