import RoqKraken.Protocol.OrderFrames
import RoqKraken.Protocol.RequestIds
import RoqKraken.Gateway.Parsing

/-!
# Rejections and the orders they answer

An order frame carries a request id in which the user and the order are packed.
The exchange echoes it in its response, and the acknowledgement handlers of a
session unpack it to address a rejection.  A response without a request id reads
as one with request id zero, which is an id like any other.
-/

namespace RoqKraken.Gateway

open Json (Members Decoders)
open Json.Parser (recognise firstType Decides)
open JsonText (Value)

/-! ## The three methods -/

namespace OrderMethod

/-- As it is spelled on the wire. -/
def name : OrderMethod → String
  | addOrder => "add_order"
  | amendOrder => "amend_order"
  | cancelOrder => "cancel_order"

def eventType : OrderMethod → Json.EventType
  | addOrder => .addOrder
  | amendOrder => .amendOrder
  | cancelOrder => .cancelOrder

/-- The decoder of its acknowledgement. -/
def decode (decoders : Decoders) : OrderMethod → Members → Option Json.OrderAck
  | addOrder => decoders.addOrder
  | amendOrder => decoders.amendOrder
  | cancelOrder => decoders.cancelOrder

theorem lookup_name (method : OrderMethod) :
    Json.Parser.methods.lookup method.name = some method.eventType := by
  cases method <;> rfl

theorem decode_eventType (method : OrderMethod) (decoders : Decoders) (members : Members) :
    decoders.decode members method.eventType =
      (method.decode decoders members).map method.message := by
  cases method <;> rfl

end OrderMethod

/-- The request an order frame makes, and for which order. -/
def Frame.request? : Frame → Option (OrderMethod × Order)
  | .addOrder _ order _ _ _ => some (.addOrder, order)
  | .amendOrder _ order _ _ => some (.amendOrder, order)
  | .cancelOrder order _ => some (.cancelOrder, order)
  | _ => none

/-- An order frame carries the packed id of its order. -/
theorem Frame.wireReqId_text {frame : Frame} {method : OrderMethod} {order : Order}
    (request : frame.request? = some (method, order)) (format : Format) (settings : Settings) :
    Encoder.wireReqId (frame.text format settings) =
      some (toString (Encoder.packReqId order.userId order.orderId).toNat) := by
  cases frame with
  | addOrder => cases request; exact Encoder.wireReqId_addOrderJson ..
  | amendOrder => cases request; exact Encoder.wireReqId_amendOrderJson ..
  | cancelOrder => cases request; exact Encoder.wireReqId_cancelOrderJson ..
  | _ => cases request

/-- The frames of different orders carry different request ids. -/
theorem Frame.wireReqId_text_ne {frame frame' : Frame} {method method' : OrderMethod}
    {order order' : Order} (request : frame.request? = some (method, order))
    (request' : frame'.request? = some (method', order'))
    (small : order.orderId.toNat < 2 ^ 48) (small' : order'.orderId.toNat < 2 ^ 48)
    (different : (order.userId, order.orderId) ≠ (order'.userId, order'.orderId))
    (format : Format) (settings : Settings) :
    Encoder.wireReqId (frame.text format settings) ≠
      Encoder.wireReqId (frame'.text format settings) := by
  rw [wireReqId_text request, wireReqId_text request']
  intro same
  have packed : Encoder.packReqId order.userId order.orderId =
      Encoder.packReqId order'.userId order'.orderId := by
    refine UInt64.toNat_inj.mp (Option.some.inj ?_)
    rw [← JsonText.natValue_toString, Option.some.inj same, JsonText.natValue_toString]
  refine different ?_
  rw [← Encoder.unpackReqId_packReqId order.userId small, packed,
    Encoder.unpackReqId_packReqId order'.userId small']

/-! ## Responses -/

/-- The text of the error a response reports, empty when it reports none. -/
def errorText (members : Members) : String :=
  match members.lookup "error" with
  | some (.string text) => text
  | _ => ""

/-- How a generated decoder reads the two fields of an acknowledgement when no key
comes twice; a number that is absent stays zero. -/
structure ReadsAcks (decode : Members → Option Json.OrderAck) : Prop where
  error : ∀ {members ack}, decode members = some ack → (members.map Prod.fst).Nodup →
    ack.error = errorText members
  reqId : ∀ {members ack} {reqId : UInt64}, decode members = some ack →
    (members.map Prod.fst).Nodup →
    (members.lookup "req_id").bind Value.natValue = some reqId.toNat → ack.reqId = reqId
  absent : ∀ {members ack}, decode members = some ack → members.lookup "req_id" = none →
    ack.reqId = 0

/-- A response of a method: the method is the first that the parser knows of it. -/
def Responds (method : OrderMethod) (members : Members) : Prop :=
  (members.find? fun pair => decide (Decides pair)) = some ("method", .string method.name)

/-- The response carries the text of the request id of a frame. -/
def Echoes (frame : String) (members : Members) : Prop :=
  ∃ reqId, Encoder.wireReqId frame = some reqId ∧
    members.lookup "req_id" = some (.number reqId)

/-- The acknowledgement in the response to a frame has the request id of the
frame. -/
theorem ReadsAcks.reqId_of_echoes {decode : Members → Option Json.OrderAck}
    (reads : ReadsAcks decode) {members : Members} {ack : Json.OrderAck}
    (decoded : decode members = some ack) (keys : (members.map Prod.fst).Nodup) {frame : Frame}
    {method : OrderMethod} {order : Order} (request : frame.request? = some (method, order))
    {format : Format} {settings : Settings} (echoes : Echoes (frame.text format settings) members) :
    ack.reqId = Encoder.packReqId order.userId order.orderId := by
  obtain ⟨text, carried, echoed⟩ := echoes
  rw [Frame.wireReqId_text request] at carried
  refine reads.reqId decoded keys ?_
  rw [echoed, ← Option.some.inj carried, Option.bind_some, JsonText.natValue_toString]

namespace DropCopy

variable {decoders : Decoders} {server : Server} {settings : Settings} {format : Format}
  {allowUnknownEventTypes : Bool} {session session' : DropCopy} {members : Members}
  {oms : Nat → Option Order} {method : OrderMethod}

/-- A response is handed to the handler of its method. -/
theorem parse_responds (responds : Responds method members) :
    session.parse decoders server settings allowUnknownEventTypes members oms =
      (method.decode decoders members).map fun ack =>
        (session, (onAck method ack).map .dispatch) := by
  rw [parse_eq, show members.find? _ = _ from responds]
  have type : recognise ("method", .string method.name) = some method.eventType :=
    method.lookup_name
  have handled : ∀ ack, session.onMessage server settings oms (method.message ack) =
      some (session, (onAck method ack).map .dispatch) := by
    intro ack
    cases method <;> rfl
  simp only [type, Option.bind_some, method.decode_eventType, Option.bind_map]
  cases method.decode decoders members with
  | none => rfl
  | some ack => exact handled ack

/-- **Rejections.**  A failed response that echoes the request id of an order frame
is one rejection addressed to the order, and no two orders share a request id.
`orderIdMax` is the bound on order ids that the packing of request ids asserts. -/
theorem rejection_reaches_its_order
    (reads : ∀ method : OrderMethod, ReadsAcks (method.decode decoders)) {orderIdMax : UInt64}
    (bits : orderIdMax.toNat < 2 ^ 48) :
    (∀ (frame : Frame) (method : OrderMethod) (order : Order) (members : Members)
      (error : String), frame.request? = some (method, order) → order.orderId ≤ orderIdMax →
      Responds method members → (members.map Prod.fst).Nodup →
      (method.decode decoders members).isSome = true →
      members.lookup "error" = some (.string error) → error ≠ "" →
      Echoes (frame.text format settings) members →
      ∀ (session : DropCopy) (oms : Nat → Option Order), ∃ response : Response,
        session.parse decoders server settings allowUnknownEventTypes members oms =
          some (session, [.dispatch (.response response order.userId order.orderId)]) ∧
        response.requestStatus = .rejected ∧ response.requestType = method.requestType) ∧
    ∀ (frame frame' : Frame) (method method' : OrderMethod) (order order' : Order),
      frame.request? = some (method, order) → frame'.request? = some (method', order') →
      order.orderId ≤ orderIdMax → order'.orderId ≤ orderIdMax →
      (order.userId, order.orderId) ≠ (order'.userId, order'.orderId) →
      Encoder.wireReqId (frame.text format settings) ≠
        Encoder.wireReqId (frame'.text format settings) := by
  have small : ∀ order : Order, order.orderId ≤ orderIdMax → order.orderId.toNat < 2 ^ 48 :=
    fun order admitted => Nat.lt_of_le_of_lt (UInt64.le_iff_toNat_le.mp admitted) bits
  constructor
  · intro frame method order members error request admitted responds keys decodes failed
      nonempty echoes session oms
    obtain ⟨ack, decoded⟩ := Option.isSome_iff_exists.mp decodes
    have text : ack.error = error := by
      rw [(reads method).error decoded keys, errorText, failed]
    have reqId := (reads method).reqId_of_echoes decoded keys request echoes
    obtain ⟨response, dispatched, status, type⟩ := onAck_failed method (text.trans_ne nonempty)
    rw [reqId, Encoder.unpackReqId_packReqId order.userId (small order admitted)] at dispatched
    refine ⟨response, ?_, status, type⟩
    rw [parse_responds responds, decoded, Option.map_some, dispatched]
    rfl
  · intro frame frame' method method' order order' request request' admitted admitted' different
    exact Frame.wireReqId_text_ne request request' (small order admitted)
      (small order' admitted') different format settings

theorem plainDecoders_readsAcks (method : OrderMethod) :
    ReadsAcks (method.decode Json.Parser.plainDecoders) := by
  have decoded : ∀ {members ack}, method.decode Json.Parser.plainDecoders members = some ack →
      ack = Json.Parser.readAck members := by
    intro members ack read
    cases method <;> exact (Option.some.inj read).symm
  refine ⟨fun read _ => ?_, fun read _ echoed => ?_, fun read absent => ?_⟩
  · rw [decoded read]
    rfl
  · rw [decoded read, Json.Parser.readAck, echoed, Option.getD_some, UInt64.ofNat_toNat]
  · rw [decoded read, Json.Parser.readAck, absent]
    rfl

/-- The response to a cancel request of user 7 for order 1000. -/
def unknownOrder : Members :=
  [("error", .string "EOrder:Unknown order"), ("method", .string "cancel_order"),
    ("req_id", .number "504403158265496552"), ("success", .bool false)]

theorem unknownOrder_echoes :
    Echoes ((Frame.cancelOrder ⟨7, 1000, 0, "", ""⟩ "T").text wholeFormat {}) unknownOrder := by
  refine ⟨_, Frame.wireReqId_text rfl _ _, ?_⟩
  rw [show toString (Encoder.packReqId 7 1000).toNat = "504403158265496552" by decide]
  rfl

theorem rejection_reaches_its_order_unknownOrder :
    (∃ response : Response,
      (DropCopy.mk 3 "A1" "T" .ready).parse Json.Parser.plainDecoders ⟨255, fun _ => false⟩ {} true
          unknownOrder (fun _ => none) =
        some (⟨3, "A1", "T", .ready⟩, [.dispatch (.response response 7 1000)]) ∧
      response.requestStatus = .rejected ∧ response.requestType = .cancelOrder) ∧
    Encoder.wireReqId ((Frame.cancelOrder ⟨7, 1000, 0, "", ""⟩ "T").text wholeFormat {}) ≠
      Encoder.wireReqId ((Frame.cancelOrder ⟨8, 1000, 0, "", ""⟩ "T").text wholeFormat {}) := by
  have rejected := @rejection_reaches_its_order Json.Parser.plainDecoders ⟨255, fun _ => false⟩ {}
    wholeFormat true plainDecoders_readsAcks (2 ^ 48 - 1) (by decide)
  exact ⟨rejected.1 (.cancelOrder ⟨7, 1000, 0, "", ""⟩ "T") .cancelOrder ⟨7, 1000, 0, "", ""⟩
      unknownOrder "EOrder:Unknown order" rfl (by decide) rfl (by decide) rfl rfl
      (by decide) unknownOrder_echoes ⟨3, "A1", "T", .ready⟩ fun _ => none,
    rejected.2 (.cancelOrder ⟨7, 1000, 0, "", ""⟩ "T") (.cancelOrder ⟨8, 1000, 0, "", ""⟩ "T")
      .cancelOrder .cancelOrder ⟨7, 1000, 0, "", ""⟩ ⟨8, 1000, 0, "", ""⟩ rfl rfl (by decide)
      (by decide) (by decide)⟩

end DropCopy

end RoqKraken.Gateway
