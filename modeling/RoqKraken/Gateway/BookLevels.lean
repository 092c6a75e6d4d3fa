import RoqKraken.Gateway.Books

/-!
# The order of levels within a book message

The book handler numbers the levels of a message by one counter, over both sides
and all items, and the dispatcher may reorder what it is given.  The numbers keep
what the order said: with repeated prices the last level of a price counts.
-/

namespace RoqKraken.Gateway

/-- A side of an update as numbered entries. -/
def numbered (levels : List MbpUpdate) : List (ℕ × Price × Float) :=
  levels.map fun level => (level.priceLevel.toNat, level.price.rank, level.quantity)

/-- A side of a data item as the exchange lists it. -/
def listed (values : List Json.BookDataBidsAsksItem) : List (Price × Float) :=
  values.map fun value => (value.price.rank, value.qty)

/-- The data item lists a level. -/
def HasLevel (item : Json.BookData) : Prop := item.bids ≠ [] ∨ item.asks ≠ []

instance (item : Json.BookData) : Decidable (HasLevel item) :=
  inferInstanceAs (Decidable (_ ∨ _))

def levelCount (items : List Json.BookData) : ℕ :=
  (items.map fun item => item.bids.length + item.asks.length).sum

/-- The numbers of the levels of some updates, side by side. -/
def priceLevels (updates : List MarketByPriceUpdate) : List UInt32 :=
  updates.flatMap fun update => (update.bids ++ update.asks).map MbpUpdate.priceLevel

/-- A side of an update has the levels of a side of an item, in order and with
increasing numbers; in any order they come to the last level of each price. -/
structure KeepsOrder (values : List Json.BookDataBidsAsksItem) (levels : List MbpUpdate) :
    Prop where
  same : levels.map (fun level => (level.price, level.quantity)) =
    values.map fun value => (value.price, value.qty)
  increasing : (levels.map MbpUpdate.priceLevel).Pairwise (· < ·)
  settles : ∀ (isZero : Float → Bool) (side : Price → Option Float) (reordered : List MbpUpdate),
    reordered.Perm levels →
      LevelBook.settle isZero side (numbered reordered) =
        (listed values).foldl (LevelBook.setLevel isZero) side

/-- An update conveys a data item of a message. -/
structure Conveys (type : Json.MessageType) (item : Json.BookData)
    (update : MarketByPriceUpdate) : Prop where
  symbol : update.symbol = item.symbol
  exchangeTimeUtc : update.exchangeTimeUtc = toNanoseconds item.timestamp
  updateType : update.updateType = type.map
  bids : KeepsOrder item.bids update.bids
  asks : KeepsOrder item.asks update.asks

namespace MarketData

variable {core : Symbols} {settings : Settings} {session : MarketData}

/-! ## One counter -/

/-- A side takes the next numbers. -/
theorem priceLevels_mbpUpdates (priceLevel : UInt32) (values : List Json.BookDataBidsAsksItem)
    (few : priceLevel.toNat + values.length < 2 ^ 32) :
    (mbpUpdates priceLevel values).1.map (fun level => level.priceLevel.toNat) =
        List.range' (priceLevel.toNat + 1) values.length ∧
      (mbpUpdates priceLevel values).2.toNat = priceLevel.toNat + values.length := by
  induction values generalizing priceLevel with
  | nil => exact ⟨rfl, rfl⟩
  | cons value values ih =>
    rw [List.length_cons] at few
    have next : (priceLevel + 1).toNat = priceLevel.toNat + 1 := by
      rw [UInt32.toNat_add, UInt32.toNat_one, Nat.mod_eq_of_lt (by omega)]
    obtain ⟨numbers, last⟩ := ih (priceLevel + 1) (by omega)
    rw [next] at numbers last
    simp only [mbpUpdates, List.map_cons, List.length_cons, List.range'_succ, numbers, last, next]
    exact ⟨trivial, by omega⟩

/-- A side keeps its order. -/
theorem keepsOrder_mbpUpdates (priceLevel : UInt32) (values : List Json.BookDataBidsAsksItem)
    (few : priceLevel.toNat + values.length < 2 ^ 32) :
    KeepsOrder values (mbpUpdates priceLevel values).1 := by
  obtain ⟨numbers, -⟩ := priceLevels_mbpUpdates priceLevel values few
  have increasing : ((mbpUpdates priceLevel values).1.map fun level =>
      level.priceLevel.toNat).Pairwise (· < ·) := numbers ▸ List.pairwise_lt_range' ..
  refine ⟨map_level_mbpUpdates priceLevel values, ?_, fun isZero side reordered same => ?_⟩
  · simpa only [List.pairwise_map, ← UInt32.lt_iff_toNat_lt] using increasing
  · have entries : (numbered (mbpUpdates priceLevel values).1).map Prod.snd = listed values := by
      simpa only [numbered, listed, List.map_map, Function.comp_def] using
        mbpUpdates_levels priceLevel values
    rw [← entries]
    refine LevelBook.settle_perm ?_ (same.map _)
    simpa only [numbered, List.map_map, Function.comp_def] using increasing

/-- One round from empty buffers: they are empty again, and an item that lists a
level is conveyed under the next numbers. -/
theorem BookLoop.item_conveys (type : Json.MessageType) (priceLevel : UInt32)
    (item : Json.BookData)
    (few : priceLevel.toNat + (item.bids.length + item.asks.length) < 2 ^ 32) :
    ∃ next updates, BookLoop.item session settings type { priceLevel } item =
        ({ priceLevel := next }, updates.map .marketByPriceUpdate) ∧
      List.Forall₂ (Conveys type) ([item].filter HasLevel) updates ∧
      (priceLevels updates).map UInt32.toNat =
        List.range' (priceLevel.toNat + 1) (item.bids.length + item.asks.length) ∧
      next.toNat = priceLevel.toNat + (item.bids.length + item.asks.length) := by
  obtain ⟨bidNumbers, afterBids⟩ := priceLevels_mbpUpdates priceLevel item.bids (by omega)
  have bids := keepsOrder_mbpUpdates priceLevel item.bids (by omega)
  have noBids := isEmpty_mbpUpdates priceLevel item.bids
  cases first : mbpUpdates priceLevel item.bids with
  | mk bidUpdates between =>
    rw [first] at bidNumbers afterBids bids noBids
    dsimp only at afterBids
    obtain ⟨askNumbers, afterAsks⟩ := priceLevels_mbpUpdates between item.asks (by omega)
    have asks := keepsOrder_mbpUpdates between item.asks (by omega)
    have noAsks := isEmpty_mbpUpdates between item.asks
    cases second : mbpUpdates between item.asks with
    | mk askUpdates next =>
      rw [second] at askNumbers afterAsks asks noAsks
      dsimp only at afterAsks
      rw [afterBids] at afterAsks askNumbers
      have numbers : (bidUpdates ++ askUpdates).map (fun level => level.priceLevel.toNat) =
          List.range' (priceLevel.toNat + 1) (item.bids.length + item.asks.length) := by
        rw [List.map_append, bidNumbers, askNumbers, ← List.range'_append_1]
        congr 2
        omega
      simp only [BookLoop.item, first, second, List.nil_append]
      by_cases some : HasLevel item
      · have full : (bidUpdates.isEmpty && askUpdates.isEmpty) = false := by
          rw [noBids, noAsks]
          simpa [HasLevel, Decidable.imp_iff_not_or] using some
        rw [List.filter_cons_of_pos (by simpa using some)]
        refine ⟨next, [?update], ?ran, ?conveyed, ?numbers, by omega⟩
        case ran =>
          rw [full]
          rfl
        case conveyed => exact .cons ⟨rfl, rfl, rfl, bids, asks⟩ .nil
        case numbers => simpa [priceLevels, Function.comp_def] using numbers
      · obtain ⟨emptyBids, emptyAsks⟩ : item.bids = [] ∧ item.asks = [] := by
          simpa [HasLevel] using some
        obtain rfl : bidUpdates = [] := by simpa [emptyBids] using noBids
        obtain rfl : askUpdates = [] := by simpa [emptyAsks] using noAsks
        rw [List.filter_cons_of_neg (by simpa using some)]
        exact ⟨next, [], rfl, .nil, numbers, by omega⟩

/-- The items are conveyed one by one under consecutive numbers. -/
theorem BookLoop.run_conveys (type : Json.MessageType) (priceLevel : UInt32)
    (items : List Json.BookData) (few : priceLevel.toNat + levelCount items < 2 ^ 32) :
    ∃ last updates, BookLoop.run session settings type { priceLevel } items =
        ({ priceLevel := last }, updates.map .marketByPriceUpdate) ∧
      List.Forall₂ (Conveys type) (items.filter HasLevel) updates ∧
      (priceLevels updates).map UInt32.toNat =
        List.range' (priceLevel.toNat + 1) (levelCount items) := by
  induction items generalizing priceLevel with
  | nil => exact ⟨priceLevel, [], rfl, .nil, rfl⟩
  | cons item items ih =>
    simp only [levelCount, List.map_cons, List.sum_cons] at few
    obtain ⟨next, updates, here, conveyed, numbers, reached⟩ :=
      @BookLoop.item_conveys settings session type priceLevel item (by omega)
    obtain ⟨last, later, rest, conveyed', numbers'⟩ := ih next (by rw [levelCount]; omega)
    refine ⟨last, updates ++ later, ?_, ?_, ?_⟩
    · simp only [BookLoop.run, here, rest, List.map_append]
    · rw [← List.singleton_append, List.filter_append]
      exact List.rel_append conveyed conveyed'
    · have split : priceLevels (updates ++ later) = priceLevels updates ++ priceLevels later :=
        List.flatMap_append
      rw [split, List.map_append, numbers, numbers', reached, levelCount, levelCount,
        List.map_cons, List.sum_cons, Nat.add_right_comm, List.range'_append_1]

/-- **Levels of a message.**  Whatever the shared buffers held, the items that list
a level are conveyed in order, and their levels are numbered as they arrive. -/
theorem levels_keep_arrival_order (session : MarketData) (settings : Settings)
    (shared : Shared core) (book : Json.Book) (few : levelCount book.data < 2 ^ 32) :
    ∃ updates : List MarketByPriceUpdate,
      (session.onBook settings shared book).2 = updates.map .marketByPriceUpdate ∧
      List.Forall₂ (Conveys book.type) (book.data.filter HasLevel) updates ∧
      (priceLevels updates).Nodup ∧ (priceLevels updates).Pairwise (· < ·) := by
  obtain ⟨last, updates, ran, conveyed, numbers⟩ :=
    @BookLoop.run_conveys settings session book.type 0 book.data (by simpa using few)
  have increasing : (priceLevels updates).Pairwise (· < ·) := by
    have below : ((priceLevels updates).map UInt32.toNat).Pairwise (· < ·) :=
      numbers ▸ List.pairwise_lt_range' ..
    simpa only [List.pairwise_map, ← UInt32.lt_iff_toNat_lt] using below
  refine ⟨updates, ?_, conveyed, ?_, increasing⟩
  · simp only [onBook, ran]
  · exact increasing.imp fun below same => absurd (same ▸ below) (UInt32.lt_irrefl _)

/-- A price that goes, comes back and goes again, and an item without levels. -/
def repeatedPrices : Json.Book where
  type := .update
  data :=
    [⟨"BTC/USDT", [⟨89773.7, 0.0⟩, ⟨89723.4, 0.0132⟩, ⟨89773.7, 0.00171536⟩, ⟨89773.7, 0.0⟩],
        [⟨89801.2, 0.5⟩], 1769183341026930⟩,
      ⟨"ETH/USDT", [], [], 1769183341026930⟩]

theorem levels_keep_arrival_order_repeatedPrices :
    ∃ updates : List MarketByPriceUpdate,
      ((MarketData.mk 1 0 0 .ready).onBook {} { bids := [⟨1.0, 1.0, nan, 7⟩], symbols := [] :
        Shared (Symbols.chunked 128 (by decide)) } repeatedPrices).2 =
          updates.map .marketByPriceUpdate ∧
      List.Forall₂ (Conveys .update) (repeatedPrices.data.filter HasLevel) updates ∧
      (priceLevels updates).Nodup ∧ (priceLevels updates).Pairwise (· < ·) :=
  @levels_keep_arrival_order (Symbols.chunked 128 (by decide)) ⟨1, 0, 0, .ready⟩ {}
    { bids := [⟨1.0, 1.0, nan, 7⟩], symbols := ([] : List String) } repeatedPrices (by decide)

end MarketData

end RoqKraken.Gateway
