import Mathlib
import RoqKraken.JsonText
import RoqKraken.Protocol.Encoder

/-!
# Reading the order frames back

The texts of the encoder are the texts of JSON objects, so a JSON reader finds
in them exactly what the request, the order and the token say.  The texts that
come from elsewhere are covered by `Format.Lawful`.
-/

namespace RoqKraken

open JsonText

/-! ## What Kraken calls things -/

def Roq.Side.wireName : Roq.Side → Option String
  | .buy => some "buy"
  | .sell => some "sell"
  | .undefined => none

def Roq.OrderType.wireName : Roq.OrderType → Option String
  | .market => some "market"
  | .limit => some "limit"
  | .undefined => none

def Roq.TimeInForce.wireName : Roq.TimeInForce → Option String
  | .gtc => some "gtc"
  | .gtd => some "gtd"
  | .ioc => some "ioc"
  | _ => none

theorem Roq.Side.plain_wireName {side : Roq.Side} {name : String}
    (named : side.wireName = some name) : Plain name := by
  cases side <;> cases named <;> decide

theorem Roq.OrderType.plain_wireName {orderType : Roq.OrderType} {name : String}
    (named : orderType.wireName = some name) : Plain name := by
  cases orderType <;> cases named <;> decide

theorem Roq.TimeInForce.plain_wireName {timeInForce : Roq.TimeInForce} {name : String}
    (named : timeInForce.wireName = some name) : Plain name := by
  cases timeInForce <;> cases named <;> decide

/-- What the encoder relies on: a finite number is written as a JSON number, and
an enumeration value as the schema spells it. -/
structure Format.Lawful (format : Format) : Prop where
  decimal : ∀ value precision, value.isFinite = true →
    isNumber (format.decimal value precision).toList = true
  side : format.sideText .buy = "buy" ∧ format.sideText .sell = "sell"
  orderType : format.orderTypeText .market = "market" ∧ format.orderTypeText .limit = "limit"
  timeInForce : format.timeInForceText .gtc = "gtc" ∧ format.timeInForceText .gtd = "gtd" ∧
    format.timeInForceText .ioc = "ioc"

namespace Format.Lawful

variable {format : Format} (lawful : format.Lawful)
include lawful

theorem sideText {side : Roq.Side} {name : String} (named : side.wireName = some name) :
    format.sideText side.map = name := by
  cases side <;> cases named
  · exact lawful.side.1
  · exact lawful.side.2

theorem orderTypeText {orderType : Roq.OrderType} {name : String}
    (named : orderType.wireName = some name) : format.orderTypeText orderType.map = name := by
  cases orderType <;> cases named
  · exact lawful.orderType.1
  · exact lawful.orderType.2

theorem timeInForceText {timeInForce : Roq.TimeInForce} {name : String}
    (named : timeInForce.wireName = some name) :
    format.timeInForceText timeInForce.map = name := by
  cases timeInForce <;> cases named
  · exact lawful.timeInForce.1
  · exact lawful.timeInForce.2.2
  · exact lawful.timeInForce.2.1

end Format.Lawful

/-! ## What the frames say -/

/-- A member that may be absent. -/
def optionalMember (key : String) (value : Option Value) : List (String × Value) :=
  (value.map fun value => (key, value)).toList

/-- A request: a method with its parameters and the request id. -/
def requestValue (method : String) (params : List (String × Value)) (reqId : UInt64) : Value :=
  .object [("method", .string method), ("params", .object params),
    ("req_id", .number (toString reqId.toNat))]

def addOrderParams (token clOrdId symbol side orderType orderQty : String)
    (timeInForce limitPrice : Option String) : List (String × Value) :=
  [("token", .string token), ("cl_ord_id", .string clOrdId), ("symbol", .string symbol),
    ("side", .string side), ("order_type", .string orderType), ("order_qty", .number orderQty)] ++
    optionalMember "time_in_force" (timeInForce.map .string) ++
    optionalMember "limit_price" (limitPrice.map .number)

def amendOrderParams (token clOrdId : String) (orderQty limitPrice : Option String) :
    List (String × Value) :=
  [("token", .string token), ("cl_ord_id", .string clOrdId)] ++
    optionalMember "order_qty" (orderQty.map .number) ++
    optionalMember "limit_price" (limitPrice.map .number)

/-- An order is cancelled by the exchange's id for it, or by ours while there is
none. -/
def cancelOrderParams (token clOrdId externalOrderId : String) : List (String × Value) :=
  [("token", .string token),
    if externalOrderId = "" then ("cl_ord_id", .array [.string clOrdId])
    else ("order_id", .array [.string externalOrderId])]

/-- The text of a number that is left out when it is NaN. -/
def optionalDecimal (format : Format) (value : Float) (precision : Precision) : Option String :=
  if value.isNaN then none else some (format.decimal value precision)

/-- A text is one JSON object without repeated keys, the given request, and its
request id leads back to the order. -/
structure Decodes (text method : String) (params : List (String × Value)) (order : Order) :
    Prop where
  read : JsonText.read text.toList =
    some (requestValue method params (Encoder.packReqId order.userId order.orderId))
  unique : (requestValue method params
    (Encoder.packReqId order.userId order.orderId)).uniqueKeys = true
  reqId : ∃ reqId : UInt64,
    (Value.number (toString (Encoder.packReqId order.userId order.orderId).toNat)).natValue =
      some reqId.toNat ∧
    Encoder.unpackReqId reqId = (order.userId, order.orderId)

variable {format : Format} {order : Order} {refData : RefData}

/-- A text that is the text of a request decodes to it. -/
theorem decodes_of_render {text method : String} {params : List (String × Value)}
    (same : text.toList = render (requestValue method params
      (Encoder.packReqId order.userId order.orderId)))
    (valid : (Value.object params).valid = true) (unique : (Value.object params).uniqueKeys = true)
    (small : order.orderId.toNat < 2 ^ 48) : Decodes text method params order where
  read := by
    rw [same]
    refine read_render ?_
    simp only [Value.valid] at valid
    simp [requestValue, Value.valid, validMembers, valid, isNumber_toDigits]
  unique := by
    simp only [Value.uniqueKeys] at unique
    simp [requestValue, Value.uniqueKeys, uniqueMembers, unique]
  reqId := ⟨Encoder.packReqId order.userId order.orderId, natValue_toString _,
    Encoder.unpackReqId_packReqId order.userId small⟩

/-- The tail of the frames is the tail of the text of a request. -/
theorem render_requestValue (method : String) (params : List (String × Value)) (reqId : UInt64)
    (plain : Plain method) : render (requestValue method params reqId) =
      r#"{"method":""#.toList ++ method.toList ++ r#"","params":"#.toList ++
        render (.object params) ++ r#","req_id":"#.toList ++ (toString reqId.toNat).toList ++
        r"}".toList := by
  simp (disch := decide) [requestValue, render, renderMembers, quote_of_plain plain,
    quote_of_plain]

/-! ## The three frames -/

theorem toList_cancelOrderJson {token : String} (plainToken : Plain token)
    (plainId : Plain order.clientOrderId) (plainExternal : Plain order.externalOrderId) :
    (Encoder.cancelOrderJson order token).toList =
      render (requestValue "cancel_order"
        (cancelOrderParams token order.clientOrderId order.externalOrderId)
        (Encoder.packReqId order.userId order.orderId)) := by
  rw [render_requestValue _ _ _ (by decide)]
  unfold Encoder.cancelOrderJson cancelOrderParams Encoder.reqIdText
  by_cases none : order.externalOrderId = ""
  · simp (disch := decide) [none, render, renderMembers, renderItems,
      quote_of_plain plainToken, quote_of_plain plainId, quote_of_plain]
  · simp (disch := decide) [none, render, renderMembers, renderItems,
      quote_of_plain plainToken, quote_of_plain plainExternal, quote_of_plain]

theorem toList_amendOrderJson {modifyOrder : ModifyOrder} {token : String}
    (plainToken : Plain token) (plainId : Plain order.clientOrderId) :
    (Encoder.amendOrderJson format modifyOrder order refData token).toList =
      render (requestValue "amend_order"
        (amendOrderParams token order.clientOrderId
          (optionalDecimal format modifyOrder.quantity refData.quantityPrecision)
          (optionalDecimal format modifyOrder.price refData.pricePrecision))
        (Encoder.packReqId order.userId order.orderId)) := by
  rw [render_requestValue _ _ _ (by decide)]
  unfold Encoder.amendOrderJson amendOrderParams Encoder.reqIdText optionalDecimal
  cases modifyOrder.quantity.isNaN <;> cases modifyOrder.price.isNaN <;>
    simp (disch := decide) [optionalMember, render, renderMembers, quote_of_plain plainToken,
      quote_of_plain plainId, quote_of_plain]

/-- The text of an optional limit price, with the brace that closes the
parameters. -/
theorem toList_limitPrice (price : Float) (precision : Precision) (rest : List Char) :
    (if price.isNaN then "" else r#","limit_price":"# ++ format.decimal price precision).toList ++
        '}' :: rest =
      renderMembers (optionalMember "limit_price"
        ((optionalDecimal format price precision).map .number)) ++ rest := by
  unfold optionalDecimal
  cases price.isNaN <;>
    simp (disch := decide) [optionalMember, renderMembers, render, quote_of_plain]

/-- The text of a time in force, which is left out when it is undefined. -/
theorem toList_timeInForce (lawful : format.Lawful) {timeInForce : Roq.TimeInForce}
    (supported : timeInForce = .undefined ∨ timeInForce.wireName.isSome = true)
    (members : List (String × Value)) (rest : List Char) :
    (if timeInForce = .undefined then ""
      else r#","time_in_force":""# ++ format.timeInForceText timeInForce.map ++ r#"""#).toList ++
        (renderMembers members ++ rest) =
      renderMembers (optionalMember "time_in_force" (timeInForce.wireName.map .string) ++
        members) ++ rest := by
  cases named : timeInForce.wireName with
  | none =>
    have undefined : timeInForce = .undefined := by simpa [named] using supported
    simp [undefined, optionalMember]
  | some name =>
    have defined : timeInForce ≠ .undefined := by
      rintro rfl
      cases named
    have plainName := Roq.TimeInForce.plain_wireName named
    rw [lawful.timeInForceText named]
    simp (disch := decide) [defined, optionalMember, render, renderMembers,
      quote_of_plain plainName, quote_of_plain]

theorem toList_addOrderJson (lawful : format.Lawful) {createOrder : CreateOrder}
    {requestId token sideName typeName : String} (plainToken : Plain token)
    (plainId : Plain requestId) (plainSymbol : Plain createOrder.symbol)
    (side : createOrder.side.wireName = some sideName)
    (orderType : createOrder.orderType.wireName = some typeName)
    (timeInForce : createOrder.timeInForce = .undefined ∨
      createOrder.timeInForce.wireName.isSome = true) :
    (Encoder.addOrderJson format createOrder order refData requestId token).toList =
      render (requestValue "add_order"
        (addOrderParams token requestId createOrder.symbol sideName typeName
          (format.decimal createOrder.quantity refData.quantityPrecision)
          createOrder.timeInForce.wireName
          (optionalDecimal format createOrder.price refData.pricePrecision))
        (Encoder.packReqId order.userId order.orderId)) := by
  rw [render_requestValue _ _ _ (by decide)]
  unfold Encoder.addOrderJson addOrderParams Encoder.reqIdText
  dsimp only
  rw [lawful.sideText side, lawful.orderTypeText orderType]
  simp (disch := decide) [render, renderMembers, toList_limitPrice,
    toList_timeInForce lawful timeInForce,
    quote_of_plain plainToken, quote_of_plain plainId, quote_of_plain plainSymbol,
    quote_of_plain (Roq.Side.plain_wireName side),
    quote_of_plain (Roq.OrderType.plain_wireName orderType), quote_of_plain,
    -Float.isNaN_eq_decide_eq_nan]

/-! ## Well-formed parameters -/

/-- An optional number is valid when what it is made from is finite. -/
theorem validMembers_optionalDecimal (lawful : format.Lawful) (key : String) {value : Float}
    (precision : Precision) (finite : value.isNaN = true ∨ value.isFinite = true) :
    validMembers (optionalMember key ((optionalDecimal format value precision).map .number)) =
      true := by
  unfold optionalDecimal
  cases nan : value.isNaN with
  | true => rfl
  | false =>
    have isFinite := finite.resolve_left (Bool.eq_false_iff.mp nan)
    have number := lawful.decimal value precision isFinite
    simp [optionalMember, validMembers, Value.valid, number]

/-- The keys of the parameters are fixed, whatever is left out. -/
theorem uniqueKeys_addOrderParams (token clOrdId symbol side orderType orderQty : String)
    (timeInForce limitPrice : Option String) :
    (Value.object (addOrderParams token clOrdId symbol side orderType orderQty timeInForce
      limitPrice)).uniqueKeys = true := by
  cases timeInForce <;> cases limitPrice <;>
    simp [addOrderParams, optionalMember, Value.uniqueKeys, uniqueMembers]

theorem uniqueKeys_amendOrderParams (token clOrdId : String)
    (orderQty limitPrice : Option String) :
    (Value.object (amendOrderParams token clOrdId orderQty limitPrice)).uniqueKeys = true := by
  cases orderQty <;> cases limitPrice <;>
    simp [amendOrderParams, optionalMember, Value.uniqueKeys, uniqueMembers]

theorem uniqueKeys_cancelOrderParams (token clOrdId externalOrderId : String) :
    (Value.object (cancelOrderParams token clOrdId externalOrderId)).uniqueKeys = true := by
  unfold cancelOrderParams
  split <;> simp [Value.uniqueKeys, uniqueMembers, uniqueItems]

theorem valid_addOrderParams (lawful : format.Lawful)
    (token clOrdId symbol side orderType : String) (timeInForce : Option String)
    {quantity price : Float} (quantityPrecision pricePrecision : Precision)
    (finite : quantity.isFinite = true) (finite' : price.isNaN = true ∨ price.isFinite = true) :
    (Value.object (addOrderParams token clOrdId symbol side orderType
      (format.decimal quantity quantityPrecision) timeInForce
      (optionalDecimal format price pricePrecision))).valid = true := by
  have number := lawful.decimal quantity quantityPrecision finite
  cases timeInForce <;>
    simp [addOrderParams, Value.valid, validMembers, number,
      validMembers_optionalDecimal lawful _ _ finite'] <;>
    simp [optionalMember, Value.valid, validMembers]

theorem valid_amendOrderParams (lawful : format.Lawful) (token clOrdId : String)
    {quantity price : Float} (quantityPrecision pricePrecision : Precision)
    (finite : quantity.isNaN = true ∨ quantity.isFinite = true)
    (finite' : price.isNaN = true ∨ price.isFinite = true) :
    (Value.object (amendOrderParams token clOrdId
      (optionalDecimal format quantity quantityPrecision)
      (optionalDecimal format price pricePrecision))).valid = true := by
  simp [amendOrderParams, Value.valid, validMembers,
    validMembers_optionalDecimal lawful _ _ finite,
    validMembers_optionalDecimal lawful _ _ finite']

theorem valid_cancelOrderParams (token clOrdId externalOrderId : String) :
    (Value.object (cancelOrderParams token clOrdId externalOrderId)).valid = true := by
  unfold cancelOrderParams
  split <;> simp [Value.valid, validMembers, validItems]

/-! ## Round trip -/

/-- What an order frame is asked to say, with what the encoder relies on: strings
that need no escaping, finite numbers, and names the exchange has. -/
structure CreateOrder.Encodable (createOrder : CreateOrder) (sideName typeName : String) :
    Prop where
  symbol : Plain createOrder.symbol
  side : createOrder.side.wireName = some sideName
  orderType : createOrder.orderType.wireName = some typeName
  timeInForce : createOrder.timeInForce = .undefined ∨
    createOrder.timeInForce.wireName.isSome = true
  quantity : createOrder.quantity.isFinite = true
  price : createOrder.price.isNaN = true ∨ createOrder.price.isFinite = true

structure ModifyOrder.Encodable (modifyOrder : ModifyOrder) : Prop where
  quantity : modifyOrder.quantity.isNaN = true ∨ modifyOrder.quantity.isFinite = true
  price : modifyOrder.price.isNaN = true ∨ modifyOrder.price.isFinite = true

structure Order.Encodable (orderIdMax : UInt64) (order : Order) : Prop where
  clientOrderId : Plain order.clientOrderId
  externalOrderId : Plain order.externalOrderId
  orderId : order.orderId ≤ orderIdMax

/-- **Order frames decode to what was asked.**  `orderIdMax` is the bound on
order ids that the packing of request ids asserts, 48 bits at most. -/
theorem order_frames_decode (lawful : format.Lawful) {orderIdMax : UInt64}
    (bits : orderIdMax.toNat < 2 ^ 48) (encodable : order.Encodable orderIdMax) {token : String}
    (plainToken : Plain token) :
    (∀ (createOrder : CreateOrder) (requestId sideName typeName : String),
      Plain requestId → createOrder.Encodable sideName typeName →
        Decodes (Encoder.addOrderJson format createOrder order refData requestId token)
          "add_order"
          (addOrderParams token requestId createOrder.symbol sideName typeName
            (format.decimal createOrder.quantity refData.quantityPrecision)
            createOrder.timeInForce.wireName
            (optionalDecimal format createOrder.price refData.pricePrecision)) order) ∧
    (∀ modifyOrder : ModifyOrder, modifyOrder.Encodable →
      Decodes (Encoder.amendOrderJson format modifyOrder order refData token) "amend_order"
        (amendOrderParams token order.clientOrderId
          (optionalDecimal format modifyOrder.quantity refData.quantityPrecision)
          (optionalDecimal format modifyOrder.price refData.pricePrecision)) order) ∧
    Decodes (Encoder.cancelOrderJson order token) "cancel_order"
      (cancelOrderParams token order.clientOrderId order.externalOrderId) order := by
  have small : order.orderId.toNat < 2 ^ 48 :=
    Nat.lt_of_le_of_lt (UInt64.le_iff_toNat_le.mp encodable.orderId) bits
  refine ⟨fun createOrder requestId sideName typeName plainId asked => ?_,
    fun modifyOrder asked => ?_, ?_⟩
  · exact decodes_of_render
      (toList_addOrderJson lawful plainToken plainId asked.symbol asked.side asked.orderType
        asked.timeInForce)
      (valid_addOrderParams lawful _ _ _ _ _ _ _ _ asked.quantity asked.price)
      (uniqueKeys_addOrderParams ..) small
  · exact decodes_of_render (toList_amendOrderJson plainToken encodable.clientOrderId)
      (valid_amendOrderParams lawful _ _ _ _ asked.quantity asked.price)
      (uniqueKeys_amendOrderParams ..) small
  · exact decodes_of_render
      (toList_cancelOrderJson plainToken encodable.clientOrderId encodable.externalOrderId)
      (valid_cancelOrderParams ..) (uniqueKeys_cancelOrderParams ..) small

/-- A formatter for whole numbers. -/
def wholeFormat : Format where
  decimal value _ := toString value.toUInt64.toNat
  sideText
    | .buy => "buy"
    | .sell => "sell"
    | _ => ""
  orderTypeText
    | .market => "market"
    | .limit => "limit"
    | _ => ""
  timeInForceText
    | .gtc => "gtc"
    | .gtd => "gtd"
    | .ioc => "ioc"
    | _ => ""

theorem wholeFormat_lawful : wholeFormat.Lawful where
  decimal _ _ _ := by simp [wholeFormat, isNumber_toDigits]
  side := ⟨rfl, rfl⟩
  orderType := ⟨rfl, rfl⟩
  timeInForce := ⟨rfl, rfl, rfl⟩

/-- A limit order of two and its frame. -/
theorem order_frames_decode_limit_order :
    Decodes
      (Encoder.addOrderJson wholeFormat ⟨"A1", "BTC/USD", .buy, .limit, .gtc, 2.0, 100.0⟩
        ⟨7, 1000, 0, "", ""⟩ ⟨none, none⟩ "roq-1" "T") "add_order"
      (addOrderParams "T" "roq-1" "BTC/USD" "buy" "limit" (wholeFormat.decimal 2.0 none)
        (some "gtc") (some (wholeFormat.decimal 100.0 none))) ⟨7, 1000, 0, "", ""⟩ :=
  (@order_frames_decode wholeFormat ⟨7, 1000, 0, "", ""⟩ ⟨none, none⟩ wholeFormat_lawful
    (2 ^ 48 - 1) (by decide) ⟨by decide, by decide, by decide⟩ "T" (by decide)).1
    ⟨"A1", "BTC/USD", .buy, .limit, .gtc, 2.0, 100.0⟩ "roq-1" "buy" "limit" (by decide)
    ⟨by decide, rfl, rfl, .inr rfl, by decide, .inr (by decide)⟩

end RoqKraken
