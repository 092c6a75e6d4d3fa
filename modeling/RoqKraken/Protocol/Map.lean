/-!
# Enumerations and `map`

The enumerations of the exchange protocol (`protocol/json/*.json`, namespace
`Json`), those of the gateway API as far as `map.cpp` lists them (namespace
`Roq`), and the conversions of `map.cpp` between the two.  Every switch there
covers its enumeration, so the optional a helper returns is always engaged and
the conversions are total functions.

A generated enumeration has two more values than its schema:
`UNDEFINED_INTERNAL`, the default, and `UNKNOWN_INTERNAL`, a text that the
schema does not list.
-/

namespace RoqKraken

/-! ## Exchange protocol -/

namespace Json

inductive LiquidityInd where
  | undefinedInternal | unknownInternal | maker | taker
deriving DecidableEq, Repr

inductive OrderStatus where
  | undefinedInternal | unknownInternal
  | pendingNew | new | partiallyFilled | filled | canceled | expired
deriving DecidableEq, Repr

inductive OrderType where
  | undefinedInternal | unknownInternal
  | limit | market | iceberg | stopLoss | stopLossLimit | takeProfit | takeProfitLimit
  | trailingStop | trailingStopLimit | settlePosition
deriving DecidableEq, Repr

inductive Side where
  | undefinedInternal | unknownInternal | buy | sell
deriving DecidableEq, Repr

inductive TimeInForce where
  | undefinedInternal | unknownInternal | gtc | gtd | ioc
deriving DecidableEq, Repr

/-- As `TimeInForce`, spelled in capitals by the executions channel. -/
inductive TimeInForce2 where
  | undefinedInternal | unknownInternal | gtc | gtd | ioc
deriving DecidableEq, Repr

inductive PairsStatus where
  | undefinedInternal | unknownInternal
  | cancelOnly | delisted | limitOnly | maintenance | online | postOnly | reduceOnly
  | workInProgress
deriving DecidableEq, Repr

/-- `json::Type`: does a message replace what was sent before or add to it? -/
inductive MessageType where
  | undefinedInternal | unknownInternal | snapshot | update
deriving DecidableEq, Repr

inductive ExecType where
  | undefinedInternal | unknownInternal
  | pendingNew | new | trade | filled | canceled | icebergRefill | expired | amended
  | restated | status
deriving DecidableEq, Repr

end Json

/-! ## Gateway API -/

namespace Roq

inductive Liquidity where
  | undefined | maker | taker
deriving DecidableEq, Repr

inductive OrderStatus where
  | undefined | accepted | working | completed | canceled | expired
deriving DecidableEq, Repr

inductive OrderType where
  | undefined | market | limit
deriving DecidableEq, Repr

inductive Side where
  | undefined | buy | sell
deriving DecidableEq, Repr

inductive TimeInForce where
  | undefined | gfd | gtc | opg | ioc | fok | gtx | gtd | atTheClose | goodThroughCrossing
  | atCrossing | goodForTime | gfa | gfm
deriving DecidableEq, Repr

inductive TradingStatus where
  | undefined | close | open
deriving DecidableEq, Repr

inductive UpdateType where
  | undefined | snapshot | incremental
deriving DecidableEq, Repr

end Roq

/-! ## From the exchange to the gateway -/

namespace Json

def LiquidityInd.map : LiquidityInd → Roq.Liquidity
  | .undefinedInternal => .undefined
  | .unknownInternal => .undefined
  | .maker => .maker
  | .taker => .taker

def OrderStatus.map : OrderStatus → Roq.OrderStatus
  | .undefinedInternal => .undefined
  | .unknownInternal => .undefined
  | .pendingNew => .accepted
  | .new => .working
  | .partiallyFilled => .working
  | .filled => .completed
  | .canceled => .canceled
  | .expired => .expired

def OrderType.map : OrderType → Roq.OrderType
  | .undefinedInternal => .undefined
  | .unknownInternal => .undefined
  | .limit => .limit
  | .market => .market
  | .iceberg => .undefined
  | .stopLoss => .market
  | .stopLossLimit => .limit
  | .takeProfit => .market
  | .takeProfitLimit => .limit
  | .trailingStop => .market
  | .trailingStopLimit => .limit
  | .settlePosition => .market

def Side.map : Side → Roq.Side
  | .undefinedInternal => .undefined
  | .unknownInternal => .undefined
  | .buy => .buy
  | .sell => .sell

def TimeInForce2.map : TimeInForce2 → Roq.TimeInForce
  | .undefinedInternal => .undefined
  | .unknownInternal => .undefined
  | .gtc => .gtc
  | .gtd => .gtd
  | .ioc => .ioc

def PairsStatus.map : PairsStatus → Roq.TradingStatus
  | .undefinedInternal => .undefined
  | .unknownInternal => .undefined
  | .cancelOnly => .close
  | .delisted => .close
  | .limitOnly => .close
  | .maintenance => .close
  | .online => .open
  | .postOnly => .close
  | .reduceOnly => .close
  | .workInProgress => .close

def MessageType.map : MessageType → Roq.UpdateType
  | .undefinedInternal => .undefined
  | .unknownInternal => .undefined
  | .snapshot => .snapshot
  | .update => .incremental

end Json

/-! ## From the gateway to the exchange -/

namespace Roq

def OrderType.map : OrderType → Json.OrderType
  | .undefined => .undefinedInternal
  | .market => .market
  | .limit => .limit

def Side.map : Side → Json.Side
  | .undefined => .undefinedInternal
  | .buy => .buy
  | .sell => .sell

def TimeInForce.map : TimeInForce → Json.TimeInForce
  | .undefined => .undefinedInternal
  | .gfd => .undefinedInternal
  | .gtc => .gtc
  | .opg => .undefinedInternal
  | .ioc => .ioc
  | .fok => .undefinedInternal
  | .gtx => .undefinedInternal
  | .gtd => .gtd
  | .atTheClose => .undefinedInternal
  | .goodThroughCrossing => .undefinedInternal
  | .atCrossing => .undefinedInternal
  | .goodForTime => .undefinedInternal
  | .gfa => .undefinedInternal
  | .gfm => .undefinedInternal

end Roq

end RoqKraken
