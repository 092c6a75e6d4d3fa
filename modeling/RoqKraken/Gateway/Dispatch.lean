import RoqKraken.Protocol.Messages

/-!
# What the gateway dispatches

The events a stream hands to the server's dispatcher (`roq::*` and
`server::oms::*`).  Fields that the source leaves value-initialised, and the
constant description of a stream (transport, encoding, supported types), are
left out.  Times are counts of nanoseconds.
-/

namespace RoqKraken.Gateway

/-- Microseconds of the exchange as nanoseconds of the gateway, both counted in 64
bits.  A product that does not fit is undefined in the source, and is taken to wrap
around as it does on the machine. -/
def toNanoseconds (timestamp : Int64) : Int := (timestamp * 1000).toInt

inductive ConnectionStatus where
  | undefined | disconnected | downloading | ready
deriving DecidableEq, Repr

structure StreamStatus where
  streamId : UInt16
  account : String := ""
  connectionStatus : ConnectionStatus
  reason : String := ""
deriving DecidableEq

structure ExternalLatency where
  streamId : UInt16
  account : String := ""
  latency : Int
deriving DecidableEq

structure ReferenceData where
  streamId : UInt16
  exchange : String
  symbol : String
  baseCurrency : String
  quoteCurrency : String
  tickSize : Float
  multiplier : Float := 1.0
  minNotional : Float := nan
  minTradeVol : Float
  maxTradeVol : Float := nan
  tradeVolStepSize : Float
  strikePrice : Float := nan
  discard : Bool
deriving DecidableEq

structure MarketStatus where
  streamId : UInt16
  exchange : String
  symbol : String
  tradingStatus : Roq.TradingStatus
deriving DecidableEq

structure TopOfBook where
  streamId : UInt16
  exchange : String
  symbol : String
  bidPrice : Float
  bidQuantity : Float
  askPrice : Float
  askQuantity : Float
  updateType : Roq.UpdateType
  exchangeTimeUtc : Int
deriving DecidableEq

inductive StatisticsType where
  | tradeVolume | lowestTradedPrice | highestTradedPrice
deriving DecidableEq, Repr

structure StatisticsUpdate where
  streamId : UInt16
  exchange : String
  symbol : String
  statistics : List (StatisticsType × Float)
  updateType : Roq.UpdateType
  exchangeTimeUtc : Int
deriving DecidableEq

structure Trade where
  side : Roq.Side
  price : Float
  quantity : Float
  tradeId : String
deriving DecidableEq

structure TradeSummary where
  streamId : UInt16
  exchange : String
  symbol : String
  trades : List Trade
  exchangeTimeUtc : Int
deriving DecidableEq

structure MbpUpdate where
  price : Float
  quantity : Float
  impliedQuantity : Float := nan
  priceLevel : UInt32
deriving DecidableEq

structure MarketByPriceUpdate where
  streamId : UInt16
  exchange : String
  symbol : String
  bids : List MbpUpdate
  asks : List MbpUpdate
  updateType : Roq.UpdateType
  exchangeTimeUtc : Int
deriving DecidableEq

structure FundsUpdate where
  streamId : UInt16
  account : String
  currency : String
  balance : Float
  hold : Float := nan
  borrowed : Float := nan
  unrealizedPnl : Float := nan
  updateType : Roq.UpdateType
  exchangeTimeUtc : Int := 0
  exchangeSequence : UInt64 := 0
deriving DecidableEq

structure OrderUpdate where
  account : String
  exchange : String
  symbol : String
  side : Roq.Side
  maxShowQuantity : Float := nan
  orderType : Roq.OrderType
  timeInForce : Roq.TimeInForce
  createTimeUtc : Int
  updateTimeUtc : Int
  externalOrderId : String
  clientOrderId : String
  orderStatus : Roq.OrderStatus
  quantity : Float
  price : Float
  stopPrice : Float := nan
  leverage : Float := nan
  remainingQuantity : Float
  tradedQuantity : Float
  averageTradedPrice : Float
  lastTradedQuantity : Float
  lastTradedPrice : Float
  lastLiquidity : Roq.Liquidity
  updateType : Roq.UpdateType
deriving DecidableEq

structure Fill where
  exchangeTimeUtc : Int
  externalTradeId : String
  quantity : Float
  price : Float
  liquidity : Roq.Liquidity
  commissionAmount : Float := nan
  baseAmount : Float := nan
  quoteAmount : Float := nan
  profitLossAmount : Float := nan
deriving DecidableEq

structure TradeUpdate where
  streamId : UInt16
  account : String
  orderId : UInt64
  exchange : String
  symbol : String
  side : Roq.Side
  createTimeUtc : Int
  updateTimeUtc : Int
  externalOrderId : String
  clientOrderId : String
  fills : List Fill
  updateType : Roq.UpdateType
  strategyId : UInt32
deriving DecidableEq

inductive RequestType where
  | createOrder | modifyOrder | cancelOrder
deriving DecidableEq, Repr

inductive RequestStatus where
  | rejected | error
deriving DecidableEq, Repr

inductive Origin where
  | gateway | exchange
deriving DecidableEq, Repr

/-- `roq::Error` as far as the gateway sets it. -/
inductive Error where
  | undefined | unknown | tooLateToModifyOrCancel
deriving DecidableEq, Repr

structure Response where
  requestType : RequestType
  origin : Origin
  requestStatus : RequestStatus
  error : Error
  text : String
  version : Nat
  quantity : Float := nan
  price : Float := nan
deriving DecidableEq

/-- One call of the dispatcher.  A response is addressed to a user and an order,
a trade to a user. -/
inductive Dispatch where
  | streamStatus (event : StreamStatus)
  | externalLatency (event : ExternalLatency)
  | referenceData (event : ReferenceData)
  | marketStatus (event : MarketStatus)
  | topOfBook (event : TopOfBook)
  | statisticsUpdate (event : StatisticsUpdate)
  | tradeSummary (event : TradeSummary)
  | marketByPriceUpdate (event : MarketByPriceUpdate)
  | fundsUpdate (event : FundsUpdate)
  | orderUpdate (event : OrderUpdate)
  | tradeUpdate (event : TradeUpdate) (userId : UInt8)
  | response (event : Response) (userId : UInt8) (orderId : UInt64)
deriving DecidableEq

end RoqKraken.Gateway
