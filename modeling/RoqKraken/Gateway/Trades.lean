import RoqKraken.Overflow
import RoqKraken.Gateway.MarketData
import Mathlib.Data.Finset.Max
import Mathlib.Data.List.SplitBy

/-!
# Trade summaries

The trade handler cuts a message into runs of one symbol while it goes through
it, with the symbol of the item before and a buffer that it flushes inside the
loop and after it.  `summaries` is what it should dispatch for given runs;
`onTrade_eq` says that it does, for the maximal runs of the message.

The time of a summary is a maximum over the message so far.  The module settles
when it is that of the summary's own trades.
-/

namespace RoqKraken.Gateway

namespace MarketData

variable {core : Symbols}

/-! ## Runs of one symbol -/

/-- The maximal runs of consecutive items with one symbol. -/
def symbolRuns (items : List Json.TradeDataItem) : List (List Json.TradeDataItem) :=
  items.splitBy fun left right => left.symbol = right.symbol

/-- Items with one symbol. -/
def OneSymbol (symbol : String) (items : List Json.TradeDataItem) : Prop :=
  ∀ item ∈ items, item.symbol = symbol

/-- The `Trade` of an item. -/
def tradeOf (item : Json.TradeDataItem) : Trade where
  side := item.side.map
  price := item.price
  quantity := item.qty
  tradeId := toString item.tradeId

/-- The latest time of some items, and `time`. -/
def latest (time : Int) (items : List Json.TradeDataItem) : Int :=
  items.foldl (fun time item => max time (toNanoseconds item.timestamp)) time

theorem latest_append (time : Int) (items later : List Json.TradeDataItem) :
    latest time (items ++ later) = latest (latest time items) later :=
  List.foldl_append ..

/-- The symbol a run begins with. -/
def runSymbol (run : List Json.TradeDataItem) : String := (run.head?.map (·.symbol)).getD ""

/-- The summary of a run; `time` is the latest time before it. -/
def summary (session : MarketData) (settings : Settings) (time : Int)
    (run : List Json.TradeDataItem) : TradeSummary where
  streamId := session.streamId
  exchange := settings.exchange
  symbol := runSymbol run
  trades := run.map tradeOf
  exchangeTimeUtc := latest time run

/-- The summaries of runs that follow each other. -/
def summaries (session : MarketData) (settings : Settings) :
    Int → List (List Json.TradeDataItem) → List TradeSummary
  | _, [] => []
  | time, run :: runs =>
    session.summary settings time run :: session.summaries settings (latest time run) runs

section Runs

variable {items : List Json.TradeDataItem} {item : Json.TradeDataItem} {symbol : String}

theorem isChain_of_oneSymbol (one : OneSymbol symbol items) :
    items.IsChain fun left right => decide (left.symbol = right.symbol) = true := by
  induction items with
  | nil => exact .nil
  | cons first items ih =>
    rw [OneSymbol, List.forall_mem_cons] at one
    cases items with
    | nil => exact .singleton first
    | cons second items =>
      refine .cons_cons (decide_eq_true ?_) (ih one.2)
      exact one.1.trans (one.2 second (List.mem_cons_self ..)).symm

theorem symbolRuns_of_oneSymbol (nonempty : items ≠ []) (one : OneSymbol symbol items) :
    symbolRuns items = [items] :=
  List.splitBy_of_isChain nonempty (isChain_of_oneSymbol one)

/-- A run ends where the symbol changes. -/
theorem symbolRuns_append_cons {later : List Json.TradeDataItem} (nonempty : items ≠ [])
    (one : OneSymbol symbol items) (other : item.symbol ≠ symbol) :
    symbolRuns (items ++ item :: later) = items :: symbolRuns (item :: later) := by
  have ends : ∀ last ∈ items.getLast?, decide (last.symbol = item.symbol) = false := by
    intro last isLast
    rw [one last (List.mem_of_getLast? isLast)]
    exact decide_eq_false (Ne.symm other)
  have cut : symbolRuns (items ++ item :: later) = symbolRuns items ++ symbolRuns (item :: later) :=
    List.splitBy_append_cons later ends
  rw [cut, symbolRuns_of_oneSymbol nonempty one]
  rfl

/-- A run has one symbol. -/
theorem oneSymbol_of_mem_symbolRuns {run : List Json.TradeDataItem}
    (member : run ∈ symbolRuns items) (first : item ∈ run) : OneSymbol item.symbol run := by
  have pairwise : run.Pairwise fun left right => left.symbol = right.symbol :=
    List.isChain_iff_pairwise.mp
      ((List.isChain_of_mem_splitBy member).imp fun _ _ => of_decide_eq_true)
  have flipped : run.Pairwise fun left right => right.symbol = left.symbol :=
    pairwise.imp fun same => same.symm
  intro other second
  have all := pairwise.forall_of_forall_of_flip (fun item _ => Eq.refl item.symbol) flipped
  exact all second first

end Runs

/-! ## The loop -/

/-- The buffer of the loop holds a run, and its time is the latest up to it. -/
structure TradeLoop.Holds (loop : TradeLoop) (time : Int) (run : List Json.TradeDataItem) :
    Prop where
  nonempty : run ≠ []
  oneSymbol : OneSymbol loop.previous run
  trades : loop.trades = run.map tradeOf
  time : loop.exchangeTimeUtc = latest time run

section Loop

variable {session : MarketData} {settings : Settings} {loop : TradeLoop} {time : Int}
  {run items : List Json.TradeDataItem} {item : Json.TradeDataItem}

/-- A flush dispatches the summary of the run, and leaves the buffer empty. -/
theorem TradeLoop.Holds.dispatch (holds : loop.Holds time run) :
    loop.dispatch session settings =
      ({ loop with trades := [] }, [.tradeSummary (session.summary settings time run)]) := by
  obtain ⟨nonempty, oneSymbol, trades, latest⟩ := holds
  obtain ⟨first, rest, rfl⟩ := List.exists_cons_of_ne_nil nonempty
  have symbol : loop.previous = first.symbol := (oneSymbol first (List.mem_cons_self ..)).symm
  have full : loop.trades.isEmpty = false := by rw [trades]; rfl
  unfold TradeLoop.dispatch
  rw [if_neg (by simp [full]), summary, symbol, trades, latest]
  rfl

/-- An item of the same symbol prolongs the run. -/
theorem TradeLoop.Holds.emplaceBack (holds : loop.Holds time run)
    (same : item.symbol = loop.previous) :
    (loop.emplaceBack item).Holds time (run ++ [item]) where
  nonempty := by simp
  oneSymbol := by
    intro other member
    rcases List.mem_append.mp member with old | new
    · exact (holds.oneSymbol other old).trans same.symm
    · rw [List.mem_singleton.mp new]
      rfl
  trades := by
    rw [List.map_append, ← holds.trades]
    rfl
  time := by
    change max loop.exchangeTimeUtc (toNanoseconds item.timestamp) = latest time (run ++ [item])
    rw [latest_append, ← holds.time]
    rfl

/-- An item put into an empty buffer starts a run. -/
theorem holds_emplaceBack (empty : loop.trades = []) :
    (loop.emplaceBack item).Holds loop.exchangeTimeUtc [item] where
  nonempty := by simp
  oneSymbol other member := by
    rw [List.mem_singleton.mp member]
    rfl
  trades := by
    change loop.trades ++ [tradeOf item] = [tradeOf item]
    rw [empty, List.nil_append]
  time := rfl

/-- From the run in the buffer on, the loop dispatches the summaries of the runs
and ends with an empty buffer. -/
theorem TradeLoop.Holds.dispatches (holds : loop.Holds time run) (items : List Json.TradeDataItem) :
    (TradeLoop.run session settings loop items).1.trades = [] ∧
      (TradeLoop.run session settings loop items).2 =
        (session.summaries settings time (symbolRuns (run ++ items))).map .tradeSummary := by
  induction items generalizing loop time run with
  | nil =>
    rw [TradeLoop.run, holds.dispatch, List.append_nil,
      symbolRuns_of_oneSymbol holds.nonempty holds.oneSymbol]
    exact ⟨rfl, rfl⟩
  | cons item items ih =>
    unfold TradeLoop.run
    by_cases same : item.symbol = loop.previous
    · obtain ⟨empty, dispatched⟩ := ih (holds.emplaceBack same)
      simp only [same, ne_eq, not_true_eq_false, if_false, List.nil_append]
      refine ⟨empty, ?_⟩
      rw [dispatched, List.append_assoc, List.singleton_append]
    · simp only [ne_eq, same, not_false_eq_true, if_true, holds.dispatch]
      obtain ⟨empty, dispatched⟩ := ih (@holds_emplaceBack { loop with trades := [] } item rfl)
      refine ⟨empty, ?_⟩
      rw [dispatched, symbolRuns_append_cons holds.nonempty holds.oneSymbol same]
      simp only [summaries, List.map_cons, List.singleton_append, holds.time]

end Loop

/-- **The handler.**  It dispatches the summaries of the maximal runs and leaves
the buffer empty. -/
theorem onTrade_eq (session : MarketData) (settings : Settings) (shared : Shared core)
    (trade : Json.Trade) : session.onTrade settings shared trade =
      ({ shared with trades := [] },
        (session.summaries settings 0 (symbolRuns trade.data)).map .tradeSummary) := by
  obtain ⟨items⟩ := trade
  cases items with
  | nil => rfl
  | cons item items =>
    -- nothing is in the buffer before the first item, whatever its symbol
    have first : (if item.symbol ≠ "" then TradeLoop.dispatch {} session settings
        else (({} : TradeLoop), [])) = ({}, []) := by
      split <;> rfl
    have start : ((({} : TradeLoop).emplaceBack item).Holds 0 [item]) := holds_emplaceBack rfl
    obtain ⟨empty, dispatched⟩ := @TradeLoop.Holds.dispatches session settings _ _ _ start items
    simp only [onTrade, TradeLoop.run, first, List.nil_append, empty, dispatched,
      List.singleton_append]

/-! ## The summaries of a message -/

/-- The trade summaries among dispatched events. -/
def tradeSummaries (events : List Dispatch) : List TradeSummary :=
  events.filterMap fun
    | .tradeSummary event => some event
    | _ => none

theorem tradeSummaries_map (summaries : List TradeSummary) :
    tradeSummaries (summaries.map .tradeSummary) = summaries := by
  rw [tradeSummaries, List.filterMap_map]
  exact List.filterMap_some

/-- A summary has the trades of a run of its symbol. -/
def Summarises (summary : TradeSummary) (run : List Json.TradeDataItem) : Prop :=
  summary.trades = run.map tradeOf ∧ OneSymbol summary.symbol run

/-- The summaries cut a message into its maximal runs. -/
structure Partition (items : List Json.TradeDataItem) (summaries : List TradeSummary) : Prop where
  runs : List.Forall₂ Summarises summaries (symbolRuns items)
  trades : summaries.flatMap TradeSummary.trades = items.map tradeOf
  nonempty : ∀ summary ∈ summaries, summary.trades ≠ []
  /-- The assertion of the `dispatch` lambda. -/
  named : ∀ summary ∈ summaries, summary.symbol ≠ ""
  neighbours : (summaries.map TradeSummary.symbol).IsChain (· ≠ ·)

section Summaries

variable {session : MarketData} {settings : Settings} {time : Int}
  {runs : List (List Json.TradeDataItem)} {items : List Json.TradeDataItem}

/-- The symbol a run begins with is that of all its items. -/
theorem oneSymbol_runSymbol {run : List Json.TradeDataItem} (member : run ∈ symbolRuns items) :
    OneSymbol (runSymbol run) run := by
  obtain ⟨first, rest, rfl⟩ := List.exists_cons_of_ne_nil (List.ne_nil_of_mem_splitBy member)
  exact oneSymbol_of_mem_symbolRuns member (List.mem_cons_self ..)

theorem forall₂_summaries (one : ∀ run ∈ runs, OneSymbol (runSymbol run) run) :
    List.Forall₂ Summarises (session.summaries settings time runs) runs := by
  induction runs generalizing time with
  | nil => exact .nil
  | cons run runs ih =>
    rw [List.forall_mem_cons] at one
    exact .cons ⟨rfl, one.1⟩ (ih one.2)

theorem flatMap_trades_summaries :
    (session.summaries settings time runs).flatMap TradeSummary.trades =
      runs.flatten.map tradeOf := by
  induction runs generalizing time with
  | nil => rfl
  | cons run runs ih =>
    rw [summaries, List.flatMap_cons, ih, List.flatten_cons, List.map_append]
    rfl

theorem map_symbol_summaries :
    (session.summaries settings time runs).map TradeSummary.symbol = runs.map runSymbol := by
  induction runs generalizing time with
  | nil => rfl
  | cons run runs ih =>
    rw [summaries, List.map_cons, ih]
    rfl

/-- Neighbouring runs have different symbols. -/
theorem isChain_runSymbol (items : List Json.TradeDataItem) :
    ((symbolRuns items).map runSymbol).IsChain (· ≠ ·) := by
  rw [List.isChain_map]
  refine (List.isChain_getLast_head_splitBy _ items).imp_of_mem_imp ?_
  rintro left right leftRun rightRun ⟨leftNonempty, rightNonempty, other⟩
  have last := oneSymbol_runSymbol leftRun _ (List.getLast_mem leftNonempty)
  have head := oneSymbol_runSymbol rightRun _ (List.head_mem rightNonempty)
  rw [← last, ← head]
  exact of_decide_eq_false other

/-- A summary is that of one of the runs. -/
theorem exists_of_mem_summaries {summary : TradeSummary}
    (member : summary ∈ session.summaries settings time runs) :
    ∃ run ∈ runs, summary.trades = run.map tradeOf ∧ summary.symbol = runSymbol run := by
  induction runs generalizing time with
  | nil => cases member
  | cons run runs ih =>
    rcases List.mem_cons.mp member with rfl | member
    · exact ⟨run, List.mem_cons_self .., rfl, rfl⟩
    · obtain ⟨other, there, same⟩ := ih member
      exact ⟨other, List.mem_cons_of_mem _ there, same⟩

theorem partition_summaries (named : ∀ item ∈ items, item.symbol ≠ "") :
    Partition items (session.summaries settings time (symbolRuns items)) := by
  refine ⟨?_, ?_, ?_, ?_, ?_⟩
  · exact forall₂_summaries fun run member => oneSymbol_runSymbol member
  · rw [flatMap_trades_summaries, symbolRuns, List.flatten_splitBy]
  · intro summary member
    obtain ⟨run, there, trades, -⟩ := exists_of_mem_summaries member
    rw [trades, ne_eq, List.map_eq_nil_iff]
    exact List.ne_nil_of_mem_splitBy there
  · intro summary member
    obtain ⟨run, there, -, symbol⟩ := exists_of_mem_summaries member
    obtain ⟨first, rest, rfl⟩ := List.exists_cons_of_ne_nil (List.ne_nil_of_mem_splitBy there)
    have listed : first ∈ (symbolRuns items).flatten :=
      List.mem_flatten_of_mem there (List.mem_cons_self ..)
    rw [symbolRuns, List.flatten_splitBy] at listed
    rw [symbol]
    exact named first listed
  · rw [map_symbol_summaries]
    exact isChain_runSymbol items

end Summaries

/-- **Trade summaries.**  A message whose items have symbols leads to nothing but
the summaries of its maximal runs, whatever was left in the shared buffer, and
leaves the buffer empty. -/
theorem tradeSummaries_partition (session : MarketData) (settings : Settings)
    (shared : Shared core) (trade : Json.Trade) (named : ∀ item ∈ trade.data, item.symbol ≠ "") :
    (session.onTrade settings shared trade).2 =
        (tradeSummaries (session.onTrade settings shared trade).2).map .tradeSummary ∧
      Partition trade.data (tradeSummaries (session.onTrade settings shared trade).2) ∧
      (session.onTrade settings shared trade).1 = { shared with trades := [] } := by
  rw [onTrade_eq]
  simp only [tradeSummaries_map]
  exact ⟨trivial, partition_summaries named, trivial⟩

/-- Two symbols, the first of which comes back. -/
def returningSymbol : Json.Trade :=
  ⟨[⟨"BTC/USD", .buy, 100.0, 1.0, 1, 7⟩, ⟨"ETH/USD", .sell, 10.0, 2.0, 2, 5⟩,
    ⟨"BTC/USD", .buy, 101.0, 1.0, 3, 8⟩]⟩

/-- What is shared, with a trade left in the buffer. -/
def leftOver : Shared (Symbols.chunked 1 Nat.one_pos) :=
  { symbols := (Symbols.chunked 1 Nat.one_pos).empty, trades := [⟨.buy, 1.0, 1.0, "0"⟩] }

theorem tradeSummaries_partition_returningSymbol :
    Partition returningSymbol.data
      (tradeSummaries (onTrade ⟨3, 0, 0, .ready⟩ {} leftOver returningSymbol).2) :=
  (tradeSummaries_partition ⟨3, 0, 0, .ready⟩ {} leftOver returningSymbol (by decide)).2.1

/-! ## The time of a summary -/

/-- The summary's time is the latest time of its own trades. -/
def OwnTime (summary : TradeSummary) (run : List Json.TradeDataItem) : Prop :=
  (run.map fun item => item.timestamp.toInt * 1000).max? = some summary.exchangeTimeUtc

instance : DecidableRel OwnTime := fun _ _ => inferInstanceAs (Decidable (_ = _))

/-- The latest trade of a run gives a time that stands: it fits into 64 bits, and is
not before `time` nor before what any of the trades in `seen` is converted to. -/
structure TimeStands (time : Int) (seen run : List Json.TradeDataItem)
    (item : Json.TradeDataItem) : Prop where
  latest : ∀ other ∈ run, other.timestamp ≤ item.timestamp
  fits : item.timestamp.FitsMul 1000
  late : time ≤ toNanoseconds item.timestamp
  stands : ∀ other ∈ seen, toNanoseconds other.timestamp ≤ toNanoseconds item.timestamp

/-- Every run has a trade with a time that stands up to the end of the run. -/
def EachRunLatest (time : Int) (runs : List (List Json.TradeDataItem)) : Prop :=
  ∀ front run back, runs = front ++ run :: back →
    ∃ item ∈ run, TimeStands time (front.flatten ++ run) run item

section Times

variable {session : MarketData} {settings : Settings} {time : Int}
  {run items : List Json.TradeDataItem} {runs : List (List Json.TradeDataItem)}
  {item : Json.TradeDataItem}

theorem toNanoseconds_eq {timestamp : Int64} (fits : timestamp.FitsMul 1000) :
    toNanoseconds timestamp = timestamp.toInt * 1000 :=
  fits.toInt_mul

theorem latest_le_iff {bound : Int} : latest time items ≤ bound ↔
    time ≤ bound ∧ ∀ item ∈ items, toNanoseconds item.timestamp ≤ bound := by
  induction items generalizing time with
  | nil => simp [latest]
  | cons first items ih =>
    rw [List.forall_mem_cons, ← and_assoc, ← Int.max_le]
    exact ih

/-- From a time of 64 bits on, all times have 64 bits. -/
theorem latest_lt (small : time ≤ Int64.maxValue.toInt) (items : List Json.TradeDataItem) :
    latest time items ≤ Int64.maxValue.toInt :=
  latest_le_iff.mpr ⟨small, fun _ _ => Int64.toInt_le _⟩

/-- A run's own time is what counts if that of its latest trade stands. -/
theorem ownTime_summary (epoch : 0 ≤ time) (small : time ≤ Int64.maxValue.toInt) :
    OwnTime (session.summary settings time run) run ↔
      ∃ item ∈ run, TimeStands time run run item := by
  obtain ⟨after, all⟩ := latest_le_iff.mp (Int.le_refl (latest time run))
  change _ = some (latest time run) ↔ _
  rw [List.max?_eq_some_iff, List.forall_mem_map]
  constructor
  · rintro ⟨member, own⟩
    obtain ⟨item, there, same⟩ := List.mem_map.mp member
    have least : Int64.minValue.toInt ≤ 0 := by decide
    have fits : item.timestamp.FitsMul 1000 := by
      change _ ≤ item.timestamp.toInt * 1000 ∧ item.timestamp.toInt * 1000 ≤ _
      rw [same]
      exact ⟨Int.le_trans least (Int.le_trans epoch after), latest_lt small run⟩
    have time' : toNanoseconds item.timestamp = latest time run :=
      (toNanoseconds_eq fits).trans same
    refine ⟨item, there, fun other mem => ?_, fits, time' ▸ after, time' ▸ all⟩
    have before := own other mem
    rw [Int64.le_iff_toInt_le]
    omega
  · rintro ⟨item, there, largest, fits, late, stands⟩
    have time' : latest time run = item.timestamp.toInt * 1000 := by
      rw [← toNanoseconds_eq fits]
      exact Int.le_antisymm (latest_le_iff.mpr ⟨late, stands⟩) (all item there)
    refine ⟨List.mem_map.mpr ⟨item, there, time'.symm⟩, fun other mem => ?_⟩
    have before := Int64.le_iff_toInt_le.mp (largest other mem)
    omega

theorem timeStands_append {seen : List Json.TradeDataItem} :
    TimeStands time (seen ++ items) run item ↔ TimeStands (latest time seen) items run item := by
  constructor
  · rintro ⟨largest, fits, late, stands⟩
    rw [List.forall_mem_append] at stands
    exact ⟨largest, fits, latest_le_iff.mpr ⟨late, stands.1⟩, stands.2⟩
  · rintro ⟨largest, fits, late, stands⟩
    obtain ⟨late, before⟩ := latest_le_iff.mp late
    exact ⟨largest, fits, late, List.forall_mem_append.mpr ⟨before, stands⟩⟩

theorem eachRunLatest_cons : EachRunLatest time (run :: runs) ↔
    (∃ item ∈ run, TimeStands time run run item) ∧ EachRunLatest (latest time run) runs := by
  constructor
  · intro all
    refine ⟨all [] run runs rfl, fun front next back split => ?_⟩
    obtain ⟨item, member, stands⟩ := all (run :: front) next back (by rw [split]; rfl)
    rw [List.flatten_cons, List.append_assoc] at stands
    exact ⟨item, member, timeStands_append.mp stands⟩
  · rintro ⟨first, all⟩ front next back split
    cases front with
    | nil =>
      cases split
      exact first
    | cons before front =>
      cases split
      obtain ⟨item, member, stands⟩ := all front next back rfl
      refine ⟨item, member, ?_⟩
      rw [List.flatten_cons, List.append_assoc]
      exact timeStands_append.mpr stands

theorem forall₂_ownTime_iff (epoch : 0 ≤ time) (small : time ≤ Int64.maxValue.toInt) :
    List.Forall₂ OwnTime (session.summaries settings time runs) runs ↔
      EachRunLatest time runs := by
  induction runs generalizing time with
  | nil => exact iff_of_true .nil fun front run back split => by simp at split
  | cons run runs ih =>
    have later : 0 ≤ latest time run :=
      Int.le_trans epoch (latest_le_iff.mp (Int.le_refl (latest time run))).1
    rw [summaries, List.forall₂_cons, eachRunLatest_cons, ownTime_summary epoch small,
      ih later (latest_lt small run)]

/-- Where all times fit into 64 bits, a run needs a trade as late as all trades before
the run. -/
theorem eachRunLatest_iff_of_fits (fits : ∀ item ∈ runs.flatten, item.timestamp.FitsMul 1000) :
    EachRunLatest time runs ↔ ∀ front run back, runs = front ++ run :: back →
      ∃ item ∈ run, time ≤ toNanoseconds item.timestamp ∧
        ∀ earlier ∈ front.flatten, earlier.timestamp ≤ item.timestamp := by
  have thousand : 0 < (1000 : Int64).toInt := by decide
  refine forall_congr' fun front => forall_congr' fun run => forall_congr' fun back =>
    imp_congr_right fun split => ?_
  rw [split, List.flatten_append, List.flatten_cons] at fits
  simp only [List.forall_mem_append] at fits
  obtain ⟨before, within, -⟩ := fits
  constructor
  · rintro ⟨item, member, -, itemFits, late, stands⟩
    refine ⟨item, member, late, fun earlier there => ?_⟩
    exact (Int64.toInt_mul_le_toInt_mul_iff thousand (before earlier there) itemFits).mp
      (stands earlier (List.mem_append_left run there))
  · rintro ⟨item, member, late, earlier⟩
    -- the latest trade of the run, which may be another one
    obtain ⟨last, there, largest⟩ :=
      run.toFinset.exists_max_image (·.timestamp.toInt) ⟨item, List.mem_toFinset.mpr member⟩
    simp only [List.mem_toFinset, ← Int64.le_iff_toInt_le] at there largest
    have monotone : ∀ {other : Json.TradeDataItem}, other.timestamp.FitsMul 1000 →
        other.timestamp ≤ last.timestamp →
        toNanoseconds other.timestamp ≤ toNanoseconds last.timestamp :=
      fun otherFits =>
        (Int64.toInt_mul_le_toInt_mul_iff thousand otherFits (within last there)).mpr
    refine ⟨last, there, largest, within last there,
      Int.le_trans late (monotone (within item member) (largest item member)), ?_⟩
    rw [List.forall_mem_append]
    refine ⟨fun other there' => ?_, fun other there' => ?_⟩
    · exact monotone (before other there')
        (Int64.le_trans (earlier other there') (largest item member))
    · exact monotone (within other there') (largest other there')

end Times

/-- **Times of trade summaries.**  Every summary has the latest time of its own
trades exactly when every run has a trade, the latest of the run, the time of which
fits into 64 bits, is as late as the epoch, and stands against all trades so far. -/
theorem ownTimes_iff (session : MarketData) (settings : Settings) (shared : Shared core)
    (trade : Json.Trade) :
    List.Forall₂ OwnTime (tradeSummaries (session.onTrade settings shared trade).2)
        (symbolRuns trade.data) ↔
      EachRunLatest 0 (symbolRuns trade.data) := by
  rw [onTrade_eq, tradeSummaries_map]
  exact forall₂_ownTime_iff (Int.le_refl 0) (by decide)

/-- The second symbol traded before the first, and gets the time of the first. -/
theorem time_of_another_symbol :
    ¬ ∀ (core : Symbols) (session : MarketData) (settings : Settings) (shared : Shared core)
      (trade : Json.Trade),
        List.Forall₂ OwnTime (tradeSummaries (session.onTrade settings shared trade).2)
          (symbolRuns trade.data) := by
  intro own
  have times := own _ ⟨3, 0, 0, .ready⟩ {} leftOver returningSymbol
  revert times
  decide

end MarketData

end RoqKraken.Gateway
