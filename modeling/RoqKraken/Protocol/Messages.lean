import RoqKraken.Protocol.Map

/-!
# Decoded messages

The messages `Parser::dispatch` hands to a session, as far as a session reads
them; a message whose fields only reach the log has no payload here.  The
generated decoder leaves a `double` that is absent from the text at NaN, a
number or enumeration at its default and a text empty.  Timestamps are counts of
microseconds.
-/

namespace RoqKraken

/-- The quiet NaN of the source (`roq::NaN`, and an absent `double`). -/
def nan : Float := Float.ofBits 0x7ff8000000000000

namespace Json

/-- `BalancesDataItem`.  A snapshot lists `balance` (and the wallets), an update
the ledger change `amount` and the `balance` after it. -/
structure BalancesDataItem where
  asset : String
  balance : Float
  timestamp : Int64 := 0
  amount : Float := nan
deriving DecidableEq

structure Balances where
  type : MessageType
  data : List BalancesDataItem
  sequence : UInt64 := 0
deriving DecidableEq

/-- `ExecutionsDataItem`.  An execution report repeats only part of the fields. -/
structure ExecutionsDataItem where
  orderId : String
  symbol : String := ""
  orderQty : Float := nan
  cumQty : Float := nan
  timeInForce : TimeInForce2 := .undefinedInternal
  execType : ExecType := .undefinedInternal
  side : Side := .undefinedInternal
  orderType : OrderType := .undefinedInternal
  clOrdId : String := ""
  limitPrice : Float := nan
  orderStatus : OrderStatus := .undefinedInternal
  avgPrice : Float := nan
  timestamp : Int64 := 0
  tradeId : Int := 0
  lastQty : Float := nan
  lastPrice : Float := nan
  liquidityInd : LiquidityInd := .undefinedInternal
deriving DecidableEq

structure Executions where
  type : MessageType
  data : List ExecutionsDataItem
deriving DecidableEq

structure InstrumentDataPairsItem where
  symbol : String
  base : String := ""
  quote : String := ""
  status : PairsStatus
  qtyIncrement : Float := nan
  priceIncrement : Float := nan
deriving DecidableEq

/-- `Instrument`; only `data.pairs` is read. -/
structure Instrument where
  pairs : List InstrumentDataPairsItem
deriving DecidableEq

structure TickerDataItem where
  symbol : String
  bid : Float := nan
  bidQty : Float := nan
  ask : Float := nan
  askQty : Float := nan
  volume : Float := nan
  low : Float := nan
  high : Float := nan
  timestamp : Int64 := 0
deriving DecidableEq

structure Ticker where
  type : MessageType
  data : List TickerDataItem
deriving DecidableEq

structure TradeDataItem where
  symbol : String
  side : Side
  price : Float
  qty : Float
  tradeId : Int
  timestamp : Int64
deriving DecidableEq

structure Trade where
  data : List TradeDataItem
deriving DecidableEq

structure BookDataBidsAsksItem where
  price : Float
  qty : Float
deriving DecidableEq

structure BookData where
  symbol : String
  bids : List BookDataBidsAsksItem
  asks : List BookDataBidsAsksItem
  timestamp : Int64 := 0
deriving DecidableEq

structure Book where
  type : MessageType
  data : List BookData
deriving DecidableEq

/-- The fields read of `AddOrder`, `AmendOrder` and `CancelOrder` alike.  A
missing `error` is empty, a missing `req_id` zero. -/
structure OrderAck where
  error : String := ""
  reqId : UInt64 := 0
deriving DecidableEq

/-- Everything `Parser::Handler` can be called with. -/
inductive Message where
  | status
  | heartbeat
  | error
  | pong
  | subscribe
  | instrument (instrument : Instrument)
  | ticker (ticker : Ticker)
  | trade (trade : Trade)
  | book (book : Book)
  | balances (balances : Balances)
  | executions (executions : Executions)
  | addOrder (addOrder : OrderAck)
  | amendOrder (amendOrder : OrderAck)
  | cancelOrder (cancelOrder : OrderAck)
  | cancelAll
deriving DecidableEq

end Json

end RoqKraken
