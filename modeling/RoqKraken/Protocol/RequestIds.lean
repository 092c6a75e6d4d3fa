import RoqKraken.JsonText
import RoqKraken.Protocol.Encoder

/-!
# Request ids on the wire

Every order frame ends with its request id, in which the encoder packs the user
and the order.  Whoever echoes the text of the id gives both back, and two
orders never share one.
-/

namespace RoqKraken

namespace Encoder

/-- The text of the request id that a frame ends with. -/
def wireReqId (frame : String) : Option String :=
  match frame.toList.reverse with
  | '}' :: rest =>
    if r#""req_id":"#.toList.reverse.isPrefixOf (rest.dropWhile Char.isDigit) then
      some (String.ofList (rest.takeWhile Char.isDigit).reverse)
    else none
  | _ => none

/-- The digits of a number are taken whole. -/
theorem isDigit_of_mem_toString {n : Nat} {c : Char} (member : c ∈ (toString n).toList) :
    c.isDigit = true :=
  Nat.isDigit_of_mem_toDigits (by decide) (by decide) (Nat.toList_repr ▸ member)

theorem wireReqId_append (front : String) (reqId : UInt64) :
    wireReqId (front ++ reqIdText reqId) = some (toString reqId.toNat) := by
  have digits : ∀ c ∈ (toString reqId.toNat).toList.reverse, c.isDigit = true :=
    fun c member => isDigit_of_mem_toString (List.mem_reverse.mp member)
  have reversed : (front ++ reqIdText reqId).toList.reverse =
      '}' :: ((toString reqId.toNat).toList.reverse ++
        (r#""req_id":"#.toList.reverse ++ (front ++ r"},").toList.reverse)) := by
    simp [reqIdText]
  have stops : r#""req_id":"#.toList.reverse = ':' :: r#""req_id""#.toList.reverse := by decide
  unfold wireReqId
  rw [reversed]
  simp only [List.dropWhile_append_of_pos digits, List.takeWhile_append_of_pos digits]
  rw [stops]
  simp [-Nat.toList_repr]

/-- The request id of the three order frames. -/
theorem wireReqId_addOrderJson (format : Format) (createOrder : CreateOrder) (order : Order)
    (refData : RefData) (requestId token : String) :
    wireReqId (addOrderJson format createOrder order refData requestId token) =
      some (toString (packReqId order.userId order.orderId).toNat) :=
  wireReqId_append ..

theorem wireReqId_amendOrderJson (format : Format) (modifyOrder : ModifyOrder) (order : Order)
    (refData : RefData) (token : String) :
    wireReqId (amendOrderJson format modifyOrder order refData token) =
      some (toString (packReqId order.userId order.orderId).toNat) :=
  wireReqId_append ..

theorem wireReqId_cancelOrderJson (order : Order) (token : String) :
    wireReqId (cancelOrderJson order token) =
      some (toString (packReqId order.userId order.orderId).toNat) :=
  wireReqId_append ..

end Encoder

end RoqKraken
