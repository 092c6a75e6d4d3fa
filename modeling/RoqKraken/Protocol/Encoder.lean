import Mathlib.Algebra.Group.Nat.Defs
import RoqKraken.Protocol.Map

/-!
# `json::Encoder`: the order frames

The texts of `encoder.cpp`, piece by piece as the source concatenates them.
`roq::Decimal` and the generated `as_raw_text` are not part of the repository;
they are the fields of `Format`.
-/

namespace RoqKraken

/-! ## Requests and what the server knows about the order -/

structure CreateOrder where
  account : String
  symbol : String
  side : Roq.Side
  orderType : Roq.OrderType
  timeInForce : Roq.TimeInForce
  quantity : Float
  price : Float
deriving DecidableEq

structure ModifyOrder where
  account : String
  quantity : Float
  price : Float
deriving DecidableEq

structure CancelOrder where
  account : String
deriving DecidableEq

structure CancelAllOrders where
  account : String
deriving DecidableEq

/-- `server::oms::Order`. -/
structure Order where
  userId : UInt8
  orderId : UInt64
  strategyId : UInt32 := 0
  clientOrderId : String := ""
  externalOrderId : String := ""
deriving DecidableEq

/-- `roq::Precision`: a number of decimals, when defined. -/
abbrev Precision := Option Nat

/-- `server::oms::RefData`. -/
structure RefData where
  quantityPrecision : Precision
  pricePrecision : Precision
deriving DecidableEq

/-- The formatting the encoder leaves to others: `roq::Decimal` writes a double
at a precision, `as_raw_text` writes a value of a generated enumeration. -/
structure Format where
  decimal : Float → Precision → String
  sideText : Json.Side → String
  orderTypeText : Json.OrderType → String
  timeInForceText : Json.TimeInForce → String

namespace Encoder

/-! ## Request ids -/

/-- `pack_req_id`; the assertion on the order id is compiled out. -/
def packReqId (userId : UInt8) (orderId : UInt64) : UInt64 :=
  (userId.toUInt64 <<< 56) ||| orderId

/-- `Encoder::unpack_req_id`. -/
def unpackReqId (reqId : UInt64) : UInt8 × UInt64 :=
  ((reqId >>> 56).toUInt8, reqId &&& (((1 : UInt64) <<< 48) - 1))

theorem toNat_packReqId (userId : UInt8) {orderId : UInt64} (small : orderId.toNat < 2 ^ 48) :
    (packReqId userId orderId).toNat = userId.toNat * 2 ^ 56 + orderId.toNat := by
  have user : userId.toNat < 2 ^ 8 := userId.toNat_lt
  have shifted : userId.toNat <<< 56 < 2 ^ 64 := by
    rw [Nat.shiftLeft_eq]
    omega
  have below : orderId.toNat < 2 ^ 56 := by omega
  rw [packReqId, UInt64.toNat_or, UInt64.toNat_shiftLeft, UInt8.toNat_toUInt64]
  rw [show (UInt64.toNat 56 % 64) = 56 from rfl, Nat.mod_eq_of_lt shifted,
    ← Nat.shiftLeft_add_eq_or_of_lt below, Nat.shiftLeft_eq]

/-- Unpacking undoes packing for the order ids that the mask of 48 bits keeps. -/
theorem unpackReqId_packReqId (userId : UInt8) {orderId : UInt64}
    (small : orderId.toNat < 2 ^ 48) :
    unpackReqId (packReqId userId orderId) = (userId, orderId) := by
  have packed := toNat_packReqId userId small
  have user : userId.toNat < 2 ^ 8 := userId.toNat_lt
  refine Prod.ext ?_ ?_
  · refine UInt8.toNat_inj.mp ?_
    simp only [unpackReqId, UInt64.toNat_toUInt8, UInt64.toNat_shiftRight, packed]
    rw [show (UInt64.toNat 56 % 64) = 56 from rfl, Nat.shiftRight_eq_div_pow]
    omega
  · refine UInt64.toNat_inj.mp ?_
    simp only [unpackReqId, UInt64.toNat_and, packed]
    rw [show (((1 : UInt64) <<< 48) - 1).toNat = 2 ^ 48 - 1 from rfl,
      Nat.and_two_pow_sub_one_eq_mod]
    omega

/-! ## Texts -/

/-- The tail all three order frames share: it closes `params` and adds the
request id. -/
def reqIdText (reqId : UInt64) : String :=
  r"}," ++ r#""req_id":"# ++ toString reqId.toNat ++ r"}"

/-- `Encoder::add_order_json`. -/
def addOrderJson (format : Format) (createOrder : CreateOrder) (order : Order)
    (refData : RefData) (requestId token : String) : String :=
  let side := createOrder.side.map
  let orderType := createOrder.orderType.map
  r"{" ++
    r#""method":"add_order","# ++
    r#""params":{"# ++
    r#""token":""# ++ token ++ r#"","# ++
    r#""cl_ord_id":""# ++ requestId ++ r#"","# ++
    r#""symbol":""# ++ createOrder.symbol ++ r#"","# ++
    r#""side":""# ++ format.sideText side ++ r#"","# ++
    r#""order_type":""# ++ format.orderTypeText orderType ++ r#"","# ++
    r#""order_qty":"# ++ format.decimal createOrder.quantity refData.quantityPrecision ++
    (if createOrder.timeInForce ≠ .undefined then
      r#","time_in_force":""# ++ format.timeInForceText createOrder.timeInForce.map ++ r#"""#
    else "") ++
    (if createOrder.price.isNaN then ""
    else r#","limit_price":"# ++ format.decimal createOrder.price refData.pricePrecision) ++
    reqIdText (packReqId order.userId order.orderId)

/-- `Encoder::amend_order_json`. -/
def amendOrderJson (format : Format) (modifyOrder : ModifyOrder) (order : Order)
    (refData : RefData) (token : String) : String :=
  r"{" ++
    r#""method":"amend_order","# ++
    r#""params":{"# ++
    r#""token":""# ++ token ++ r#"","# ++
    r#""cl_ord_id":""# ++ order.clientOrderId ++ r#"""# ++
    (if modifyOrder.quantity.isNaN then ""
    else r#","order_qty":"# ++ format.decimal modifyOrder.quantity refData.quantityPrecision) ++
    (if modifyOrder.price.isNaN then ""
    else r#","limit_price":"# ++ format.decimal modifyOrder.price refData.pricePrecision) ++
    reqIdText (packReqId order.userId order.orderId)

/-- `Encoder::cancel_order_json`. -/
def cancelOrderJson (order : Order) (token : String) : String :=
  r"{" ++
    r#""method":"cancel_order","# ++
    r#""params":{"# ++
    r#""token":""# ++ token ++ r#"","# ++
    (if order.externalOrderId.isEmpty then
      r#""cl_ord_id":[""# ++ order.clientOrderId ++ r#""]"#
    else r#""order_id":[""# ++ order.externalOrderId ++ r#""]"#) ++
    reqIdText (packReqId order.userId order.orderId)

/-- `Encoder::cancel_all_json`. -/
def cancelAllJson (token : String) : String :=
  r"{" ++
    r#""method":"cancel_all","# ++
    r#""params":{"# ++
    r#""token":""# ++ token ++ r#"""# ++
    r"}," ++
    r#""req_id":123"# ++
    r"}"

end Encoder

end RoqKraken
