import RoqKraken.Binary64
import RoqKraken.LevelBook
import RoqKraken.Gateway.Controller

/-!
# The dispatched books against the exchange's

The book handler turns every data item into one `MarketByPriceUpdate`, except
those that list no level.  Over a run of the gateway the updates are therefore
the items without the empty ones, and replaying them loses exactly the empty
snapshots.
-/

namespace RoqKraken.Gateway

/-- Prices compare as doubles do. -/
abbrev Price := Option (ℤ ×ₗ ℤ ×ₗ ℤ)

/-- What an update says about the book of which symbol. -/
def MarketByPriceUpdate.stated (update : MarketByPriceUpdate) :
    String × LevelUpdate Price Float :=
  (update.symbol,
    { replaces := update.updateType = .snapshot
      bids := update.bids.map fun level => (level.price.rank, level.quantity)
      asks := update.asks.map fun level => (level.price.rank, level.quantity) })

/-- What a data item of a book message says. -/
def statedItem (item : Json.MessageType × Json.BookData) : String × LevelUpdate Price Float :=
  (item.2.symbol,
    { replaces := item.1 = .snapshot
      bids := item.2.bids.map fun level => (level.price.rank, level.qty)
      asks := item.2.asks.map fun level => (level.price.rank, level.qty) })

/-- The updates among the outputs. -/
def marketByPriceUpdates (outputs : List Output) : List MarketByPriceUpdate :=
  outputs.filterMap fun
    | .dispatch (.marketByPriceUpdate event) => some event
    | _ => none

@[simp] theorem marketByPriceUpdates_append (left right : List Output) :
    marketByPriceUpdates (left ++ right) =
      marketByPriceUpdates left ++ marketByPriceUpdates right := List.filterMap_append

theorem marketByPriceUpdates_congr {left right : List Output}
    (same : dispatches left = dispatches right) :
    marketByPriceUpdates left = marketByPriceUpdates right := by
  have view : ∀ outputs, marketByPriceUpdates outputs =
      (dispatches outputs).flatMap fun event => marketByPriceUpdates [.dispatch event] := by
    intro outputs
    induction outputs with
    | nil => rfl
    | cons output outputs ih =>
      rw [← List.singleton_append, marketByPriceUpdates_append, dispatches_append,
        List.flatMap_append, ih]
      cases output with
      | send => rfl
      | dispatch event => simp [dispatches]
  rw [view, view, same]

theorem marketByPriceUpdates_eq_nil {outputs : List Output}
    (other : ∀ event, .dispatch (.marketByPriceUpdate event) ∉ outputs) :
    marketByPriceUpdates outputs = [] := by
  rw [marketByPriceUpdates, List.filterMap_eq_nil_iff]
  intro output member
  split
  · next event => exact absurd member (other event)
  · rfl

namespace MarketData

variable {core : Symbols} {server : Server} {settings : Settings} {session : MarketData}
  {shared : Shared core} {event : Event} {result : Result core}

/-! ## The book handler -/

theorem map_level_mbpUpdates (priceLevel : UInt32) (values : List Json.BookDataBidsAsksItem) :
    (mbpUpdates priceLevel values).1.map (fun level => (level.price, level.quantity)) =
      values.map fun value => (value.price, value.qty) := by
  induction values generalizing priceLevel with
  | nil => rfl
  | cons value values ih => simp only [mbpUpdates, List.map_cons, ih]

theorem mbpUpdates_levels (priceLevel : UInt32) (values : List Json.BookDataBidsAsksItem) :
    (mbpUpdates priceLevel values).1.map (fun level => (level.price.rank, level.quantity)) =
      values.map fun level => (level.price.rank, level.qty) := by
  have ranks := congrArg (List.map fun level : Float × Float => (level.1.rank, level.2))
    (map_level_mbpUpdates priceLevel values)
  simpa only [List.map_map, Function.comp_def] using ranks

theorem isEmpty_mbpUpdates (priceLevel : UInt32) (values : List Json.BookDataBidsAsksItem) :
    (mbpUpdates priceLevel values).1.isEmpty = values.isEmpty := by
  cases values <;> rfl

/-- One round from empty buffers: they are empty again, and the update, if there
is one, says what the item says. -/
theorem BookLoop.item_spec (type : Json.MessageType) (priceLevel : UInt32)
    (item : Json.BookData) : ∃ next,
      (BookLoop.item session settings type { priceLevel } item).1 = { priceLevel := next } ∧
        (marketByPriceUpdates
          ((BookLoop.item session settings type { priceLevel } item).2.map .dispatch)).map
            MarketByPriceUpdate.stated =
          [statedItem (type, item)].filter fun entry => !entry.2.isEmpty := by
  cases bids : mbpUpdates priceLevel item.bids with
  | mk bidUpdates afterBids =>
    cases asks : mbpUpdates afterBids item.asks with
    | mk askUpdates afterAsks =>
      have bidLevels := mbpUpdates_levels priceLevel item.bids
      have askLevels := mbpUpdates_levels afterBids item.asks
      have noBids := isEmpty_mbpUpdates priceLevel item.bids
      have noAsks := isEmpty_mbpUpdates afterBids item.asks
      rw [bids] at bidLevels noBids
      rw [asks] at askLevels noAsks
      have none : (statedItem (type, item)).2.isEmpty =
          (bidUpdates.isEmpty && askUpdates.isEmpty) := by
        simp only [noBids, noAsks, statedItem, LevelUpdate.isEmpty, List.isEmpty_map]
      have snapshot : (type.map = .snapshot) = (type = .snapshot) := by
        cases type <;> simp [Json.MessageType.map]
      refine ⟨afterAsks, ?_⟩
      simp only [BookLoop.item, bids, asks, List.nil_append]
      cases empty : bidUpdates.isEmpty && askUpdates.isEmpty with
      | true =>
        obtain ⟨rfl, rfl⟩ : bidUpdates = [] ∧ askUpdates = [] := by simpa using empty
        rw [List.filter_cons_of_neg (by simp [none])]
        exact ⟨rfl, rfl⟩
      | false =>
        rw [List.filter_cons_of_pos (by simp [none, empty])]
        refine ⟨rfl, ?_⟩
        simp [marketByPriceUpdates, MarketByPriceUpdate.stated, statedItem, bidLevels, askLevels,
          snapshot]

/-- The handler leaves empty buffers and dispatches one update for every item
that lists a level. -/
theorem BookLoop.run_spec (type : Json.MessageType) (priceLevel : UInt32)
    (items : List Json.BookData) : ∃ last,
      (BookLoop.run session settings type { priceLevel } items).1 = { priceLevel := last } ∧
        (marketByPriceUpdates
          ((BookLoop.run session settings type { priceLevel } items).2.map .dispatch)).map
            MarketByPriceUpdate.stated =
          (items.map fun item => statedItem (type, item)).filter fun entry =>
            !entry.2.isEmpty := by
  induction items generalizing priceLevel with
  | nil => exact ⟨priceLevel, rfl, rfl⟩
  | cons item items ih =>
    obtain ⟨next, buffers, first⟩ :=
      @BookLoop.item_spec settings session type priceLevel item
    obtain ⟨last, done, rest⟩ := ih next
    refine ⟨last, ?_, ?_⟩
    · simpa only [BookLoop.run, buffers] using done
    · simp only [BookLoop.run, buffers, List.map_append, marketByPriceUpdates_append, first, rest]
      rw [← List.filter_append]
      rfl

/-- The data items an event delivers, with the type of their message. -/
def Event.bookItems : Event → List (Json.MessageType × Json.BookData)
  | .message (.book book) => book.data.map fun item => (book.type, item)
  | _ => []

/-- The updates a stream dispatches on an event are the items it delivers that
list a level. -/
theorem marketByPriceUpdates_onEvent
    (handled : session.onEvent server settings shared event = some result) :
    (marketByPriceUpdates result.outputs).map MarketByPriceUpdate.stated =
      (event.bookItems.map statedItem).filter fun entry => !entry.2.isEmpty := by
  have silent : (∀ book, event ≠ .message (.book book)) →
      marketByPriceUpdates result.outputs = [] := by
    refine fun other => marketByPriceUpdates_eq_nil fun update member => ?_
    obtain ⟨book, same⟩ := onEvent_dispatch handled member
    exact other book same
  cases event with
  | message message =>
    cases message with
    | book book =>
      cases handled
      obtain ⟨-, -, dispatched⟩ := @BookLoop.run_spec settings session book.type 0 book.data
      simpa [Event.bookItems, Function.comp_def] using dispatched
    | _ =>
      rw [silent (by simp)]
      rfl
  | _ =>
    rw [silent (by simp)]
    rfl

end MarketData

/-- A private session dispatches no book. -/
theorem DropCopy.marketByPriceUpdates_step {server : Server} {settings : Settings}
    {session session' : DropCopy} {event : DropCopy.Event} {out : List Output}
    (stepped : step server settings session event = some (session', out)) :
    marketByPriceUpdates out = [] :=
  marketByPriceUpdates_eq_nil fun _ member => step_dispatch stepped member

namespace Controller

variable {core : Symbols} {server : Server} {settings : Settings} {config : Config}
  {controller controller' : Controller core} {event : Event} {events : List Event}
  {out : List (Source × Output)} {log : List (Event × List (Source × Output))}

/-! ## Runs of the gateway -/

/-- The data items an event delivers, with the type of their message. -/
def Event.bookItems : Event → List (Json.MessageType × Json.BookData)
  | .marketData _ event => event.bookItems
  | _ => []

/-- The data items delivered over a run. -/
def bookItems (events : List Event) : List (Json.MessageType × Json.BookData) :=
  events.flatMap Event.bookItems

/-- The book updates dispatched over a run, by any stream. -/
def dispatchedBooks (log : List (Event × List (Source × Output))) : List MarketByPriceUpdate :=
  log.flatMap fun entry => marketByPriceUpdates (entry.2.map Prod.snd)

/-- One event dispatches the items it delivers that list a level. -/
theorem marketByPriceUpdates_step
    (stepped : step server settings controller event = some (controller', out)) :
    (marketByPriceUpdates (out.map Prod.snd)).map MarketByPriceUpdate.stated =
      (event.bookItems.map statedItem).filter fun entry => !entry.2.isEmpty := by
  rcases step_dispatches stepped with ⟨index, received, session, result, rfl, handled, same⟩ |
    ⟨account, received, session, next, outputs, rfl, first, same⟩ | ⟨other, nothing⟩
  · rw [marketByPriceUpdates_congr same]
    exact MarketData.marketByPriceUpdates_onEvent handled
  · rw [marketByPriceUpdates_congr same, DropCopy.marketByPriceUpdates_step first]
    rfl
  · have none : event.bookItems = [] := by
      cases event with
      | marketData index received => exact absurd rfl (other index received)
      | _ => rfl
    have silent : marketByPriceUpdates (out.map Prod.snd) = marketByPriceUpdates [] :=
      marketByPriceUpdates_congr nothing
    rw [silent, none]
    rfl

/-- Over a run the dispatched books are the delivered items that list a level,
one by one. -/
theorem dispatchedBooks_run
    (ran : (step server settings).run controller events = some (controller', log)) :
    (dispatchedBooks log).map MarketByPriceUpdate.stated =
      ((bookItems events).map statedItem).filter fun entry => !entry.2.isEmpty := by
  induction events generalizing controller log with
  | nil =>
    obtain ⟨-, rfl⟩ := Step.run_nil.mp ran
    rfl
  | cons event events ih =>
    obtain ⟨next, out, rest, first, tail, rfl⟩ := Step.run_cons.mp ran
    have dispatched : dispatchedBooks ((event, out) :: rest) =
        marketByPriceUpdates (out.map Prod.snd) ++ dispatchedBooks rest := rfl
    have delivered : bookItems (event :: events) = event.bookItems ++ bookItems events := rfl
    rw [dispatched, delivered, List.map_append, List.map_append, List.filter_append,
      marketByPriceUpdates_step first, ih tail]

/-! ## Replaying -/

/-- The book of a symbol after a sequence of statements. -/
def bookOf (symbol : String) (stated : List (String × LevelUpdate Price Float)) :
    LevelBook Price Float :=
  LevelBook.replay (fun quantity => quantity == 0.0) LevelBook.empty
    ((stated.filter fun entry => entry.1 = symbol).map Prod.snd)

/-- Every symbol has the same book on both sides, and the snapshots on both
sides are the same: none is missing. -/
structure BooksAgree (dispatched delivered : List (String × LevelUpdate Price Float)) : Prop where
  books : ∀ symbol, bookOf symbol dispatched = bookOf symbol delivered
  snapshots : (dispatched.filter fun entry => entry.2.replaces) =
    delivered.filter fun entry => entry.2.replaces

/-- Leaving out the items without levels leaves them out for every symbol. -/
theorem bookOf_filter (symbol : String) (delivered : List (String × LevelUpdate Price Float)) :
    bookOf symbol (delivered.filter fun entry => !entry.2.isEmpty) =
      LevelBook.replay (fun quantity => quantity == 0.0) LevelBook.empty
        (((delivered.filter fun entry => entry.1 = symbol).map Prod.snd).filter
          fun update => !update.isEmpty) := by
  rw [bookOf, List.filter_map, List.filter_filter, List.filter_filter]
  congr 2
  exact List.filter_congr fun entry _ => Bool.and_comm ..

/-- **Books of a run.**  The dispatched books agree with the exchange's exactly
when no snapshot item is empty on both sides. -/
theorem booksAgree_iff
    (ran : (step server settings).run controller events = some (controller', log)) :
    BooksAgree ((dispatchedBooks log).map MarketByPriceUpdate.stated)
        ((bookItems events).map statedItem) ↔
      ∀ item ∈ bookItems events, item.1 = .snapshot → ¬(item.2.bids = [] ∧ item.2.asks = []) := by
  rw [dispatchedBooks_run ran]
  have levels : (∀ item ∈ bookItems events,
        item.1 = .snapshot → ¬(item.2.bids = [] ∧ item.2.asks = [])) ↔
      ∀ entry ∈ (bookItems events).map statedItem,
        entry.2.replaces = true → entry.2.isEmpty = false := by
    rw [List.forall_mem_map]
    refine forall₂_congr fun item _ => ?_
    simp [statedItem, LevelUpdate.isEmpty]
  rw [levels]
  generalize (bookItems events).map statedItem = delivered
  constructor
  · rintro ⟨-, snapshots⟩ entry member replaces
    have dispatched : entry ∈ (delivered.filter fun entry => !entry.2.isEmpty).filter
        fun entry => entry.2.replaces := by
      rw [snapshots]
      exact List.mem_filter.mpr ⟨member, replaces⟩
    simpa using (List.mem_filter.mp (List.mem_filter.mp dispatched).1).2
  · intro kept
    constructor
    · intro symbol
      rw [bookOf_filter, bookOf, LevelBook.replay_filter]
      intro update member
      obtain ⟨entry, there, rfl⟩ := List.mem_map.mp member
      exact kept entry (List.mem_filter.mp there).1
    · rw [List.filter_filter]
      refine List.filter_congr fun entry member => ?_
      cases replaces : entry.2.replaces with
      | false => rfl
      | true => simp [kept entry member replaces]

/-- A snapshot of a bid, and an update that lists nothing. -/
def snapshotThenUpdate : List Event :=
  [.marketData 0 (.message (.book ⟨.snapshot, [⟨"BTC/USD", [⟨100.0, 1.0⟩], [], 0⟩]⟩)),
    .marketData 0 (.message (.book ⟨.update, [⟨"BTC/USD", [], [], 0⟩]⟩))]

theorem booksAgree_iff_snapshotThenUpdate :
    ∃ (controller : Controller (Symbols.chunked 128 (by decide)))
      (log : List (Event × List (Source × Output))),
      (step ⟨255, fun _ => false⟩ {}).run (create _ ⟨["A1"], by decide⟩) snapshotThenUpdate =
        some (controller, log) ∧
      (BooksAgree ((dispatchedBooks log).map MarketByPriceUpdate.stated)
          ((bookItems snapshotThenUpdate).map statedItem) ↔
        ∀ item ∈ bookItems snapshotThenUpdate,
          item.1 = .snapshot → ¬(item.2.bids = [] ∧ item.2.asks = [])) := by
  refine ⟨_, _, rfl, ?_⟩
  exact @booksAgree_iff (Symbols.chunked 128 (by decide)) ⟨255, fun _ => false⟩ {}
    (create _ ⟨["A1"], by decide⟩) _ snapshotThenUpdate _ rfl

/-- A bid, and then a snapshot without levels: the bid stays in the dispatched
book, and no snapshot is dispatched. -/
theorem empty_snapshot_keeps_levels :
    ¬ ∀ (core : Symbols) (server : Server) (settings : Settings)
      (controller controller' : Controller core) (events : List Event)
      (log : List (Event × List (Source × Output))),
      (step server settings).run controller events = some (controller', log) →
        BooksAgree ((dispatchedBooks log).map MarketByPriceUpdate.stated)
          ((bookItems events).map statedItem) := by
  intro agree
  have books := (agree (Symbols.chunked 128 (by decide)) ⟨255, fun _ => false⟩ {}
    (create _ ⟨["A1"], by decide⟩) _
    [.marketData 0 (.message (.book ⟨.snapshot, [⟨"BTC/USD", [⟨100.0, 1.0⟩], [], 0⟩]⟩)),
      .marketData 0 (.message (.book ⟨.snapshot, [⟨"BTC/USD", [], [], 0⟩]⟩))] _ rfl).books "BTC/USD"
  have level := congrFun (congrArg LevelBook.bids books) (Float.rank 100.0)
  revert level
  decide

end Controller

end RoqKraken.Gateway
