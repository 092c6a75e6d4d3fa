import RoqKraken.Binary64
import RoqKraken.Gateway.DropCopy

/-!
# Balances of a session and the funds it dispatches

`on_balances` copies one field of every item into the `balance` of a
`FundsUpdate`.  Over a whole run of a session the dispatched funds are therefore
the items one by one, and agree with the exchange's totals as far as that field
does.
-/

namespace RoqKraken.Gateway

/-- What a funds update says about which currency. -/
def FundsUpdate.stated (update : FundsUpdate) : String × Float :=
  (update.currency, update.balance)

namespace DropCopy

variable {server : Server} {settings : Settings} {session session' : DropCopy}
  {events : List Event} {log : List (Event × List Output)}

/-- The balance items an event delivers. -/
def Event.balancesItems : Event → List Json.BalancesDataItem
  | .message (.balances balances) _ => balances.data
  | _ => []

/-- The balance items delivered over a run. -/
def balancesItems (events : List Event) : List Json.BalancesDataItem :=
  events.flatMap Event.balancesItems

/-- The funds updates among dispatched events. -/
def fundsUpdates (outputs : List Output) : List FundsUpdate :=
  outputs.filterMap fun
    | .dispatch (.fundsUpdate event) => some event
    | _ => none

@[simp] theorem fundsUpdates_append (left right : List Output) :
    fundsUpdates (left ++ right) = fundsUpdates left ++ fundsUpdates right :=
  List.filterMap_append

theorem fundsUpdates_eq_nil {outputs : List Output}
    (other : ∀ update, .dispatch (.fundsUpdate update) ∉ outputs) :
    fundsUpdates outputs = [] := by
  rw [fundsUpdates, List.filterMap_eq_nil_iff]
  intro output member
  split
  · next update => exact absurd member (other update)
  · rfl

@[simp] theorem fundsUpdates_onBalances (balances : Json.Balances) :
    fundsUpdates ((session.onBalances balances).map .dispatch) =
      balances.data.map (session.fundsUpdate balances) := by
  simp [fundsUpdates, onBalances, List.filterMap_map, Function.comp_def]

/-- One step dispatches one funds update for every item it is handed, carrying
the item's `amount`. -/
theorem fundsUpdates_step {event : Event} {out : List Output}
    (stepped : step server settings session event = some (session', out)) :
    (fundsUpdates out).map FundsUpdate.stated =
      event.balancesItems.map fun item => (item.asset, item.amount) := by
  have silent : (∀ balances oms, event ≠ .message (.balances balances) oms) →
      fundsUpdates out = [] := by
    refine fun other => fundsUpdates_eq_nil fun update member => ?_
    obtain ⟨balances, oms, same⟩ := step_dispatch stepped member
    exact other balances oms same
  cases event with
  | message message oms =>
    cases message with
    | balances balances =>
      cases stepped
      simp [Event.balancesItems, FundsUpdate.stated, fundsUpdate]
    | _ =>
      rw [silent (by simp)]
      rfl
  | _ =>
    rw [silent (by simp)]
    rfl

/-- Over a run the dispatched funds are the delivered items, one by one. -/
theorem fundsUpdates_run (ran : (step server settings).run session events = some (session', log)) :
    (fundsUpdates (outputs log)).map FundsUpdate.stated =
      (balancesItems events).map fun item => (item.asset, item.amount) := by
  induction events generalizing session log with
  | nil =>
    obtain ⟨-, rfl⟩ := Step.run_nil.mp ran
    rfl
  | cons event events ih =>
    obtain ⟨next, out, rest, first, tail, rfl⟩ := Step.run_cons.mp ran
    simp only [outputs_cons, fundsUpdates_append, List.map_append, fundsUpdates_step first,
      ih tail, balancesItems, List.flatMap_cons]

/-! ## Agreement with the exchange -/

/-- The last item delivered for an asset. -/
def lastItem (asset : String) (items : List Json.BalancesDataItem) :
    Option Json.BalancesDataItem :=
  (items.filter fun item => item.asset = asset).getLast?

/-- The last funds update dispatched for a currency. -/
def lastFundsUpdate (currency : String) (updates : List FundsUpdate) : Option FundsUpdate :=
  (updates.filter fun update => update.currency = currency).getLast?

/-- Every asset that occurs was last reported with the exchange's total. -/
def FundsAgree (updates : List FundsUpdate) (items : List Json.BalancesDataItem) : Prop :=
  ∀ asset item, lastItem asset items = some item →
    ∃ update, lastFundsUpdate asset updates = some update ∧
      (update.balance == item.balance) = true

/-- The last update of a currency states the `amount` of the last item of that
asset. -/
theorem lastFundsUpdate_stated
    (ran : (step server settings).run session events = some (session', log))
    (asset : String) :
    (lastFundsUpdate asset (fundsUpdates (outputs log))).map FundsUpdate.stated =
      (lastItem asset (balancesItems events)).map fun item => (item.asset, item.amount) := by
  have filtered := congrArg (List.filter fun entry : String × Float => entry.1 = asset)
    (fundsUpdates_run ran)
  simp only [List.filter_map, Function.comp_def, FundsUpdate.stated] at filtered
  have last := congrArg List.getLast? filtered
  simp only [List.getLast?_map] at last
  exact last

/-- **Funds of a run.**  The dispatched funds agree with the exchange exactly
when, for every asset, the last item has an `amount` equal to its `balance`. -/
theorem fundsAgree_iff
    (ran : (step server settings).run session events = some (session', log)) :
    FundsAgree (fundsUpdates (outputs log)) (balancesItems events) ↔
      ∀ asset item, lastItem asset (balancesItems events) = some item →
        (item.amount == item.balance) = true := by
  refine forall_congr' fun asset => forall_congr' fun item => imp_congr_right fun last => ?_
  have stated := lastFundsUpdate_stated ran asset
  rw [last, Option.map_some, Option.map_eq_some_iff] at stated
  obtain ⟨update, found, copied⟩ := stated
  have balance : update.balance = item.amount := congrArg Prod.snd copied
  constructor
  · rintro ⟨update', found', agrees⟩
    cases found.symm.trans found'
    rwa [balance] at agrees
  · intro agrees
    exact ⟨update, found, by rwa [balance]⟩

/-- An update whose ledger change happens to be the whole balance. -/
def openingDeposit : List Event :=
  [.message (.balances
    { type := .update, data := [{ asset := "USDT", balance := 9.0, amount := 9.0 }] })
    fun _ => none]

theorem fundsAgree_iff_opening_deposit :
    ∃ log, (step ⟨255, fun _ => false⟩ {}).run ⟨3, "A1", "T", .ready⟩ openingDeposit =
        some (⟨3, "A1", "T", .ready⟩, log) ∧
      (FundsAgree (fundsUpdates (outputs log)) (balancesItems openingDeposit) ↔
        ∀ asset item, lastItem asset (balancesItems openingDeposit) = some item →
          (item.amount == item.balance) = true) :=
  ⟨_, rfl, @fundsAgree_iff ⟨255, fun _ => false⟩ {} ⟨3, "A1", "T", .ready⟩
    ⟨3, "A1", "T", .ready⟩ openingDeposit _ rfl⟩

/-- The first balances a session receives, a snapshot of 100 USDT, are dispatched
as funds without a balance. -/
theorem funds_disagree_on_snapshot :
    ¬ ∀ (server : Server) (settings : Settings) (session session' : DropCopy)
      (events : List Event) (log : List (Event × List Output)),
      (step server settings).run session events = some (session', log) →
        FundsAgree (fundsUpdates (outputs log)) (balancesItems events) := by
  intro agree
  have funds := agree ⟨255, fun _ => false⟩ {} ⟨3, "A1", "T", .ready⟩
    ⟨3, "A1", "T", .ready⟩
    [.message (.balances
      { type := .snapshot, data := [{ asset := "USDT", balance := 100.0 }], sequence := 1 })
      fun _ => none] _ rfl "USDT" _ rfl
  obtain ⟨update, last, equal⟩ := funds
  cases last
  revert equal
  decide

/-- In particular they disagree whenever the last item of some asset carries no
`amount`, as no snapshot item does. -/
theorem not_fundsAgree_of_amount_absent {asset : String} {item : Json.BalancesDataItem}
    (ran : (step server settings).run session events = some (session', log))
    (last : lastItem asset (balancesItems events) = some item)
    (absent : item.amount.isNaN = true) :
    ¬ FundsAgree (fundsUpdates (outputs log)) (balancesItems events) := by
  intro agree
  have equal := (fundsAgree_iff ran).mp agree asset item last
  have isNan : item.amount = Float.nan := by simpa using absent
  rw [isNan, Float.nan_beq_eq_false] at equal
  cases equal

end DropCopy

end RoqKraken.Gateway
