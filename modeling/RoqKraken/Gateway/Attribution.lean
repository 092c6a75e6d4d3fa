import RoqKraken.Gateway.Rejections

/-!
# Whom a rejection is attributed to

A session as the exchange sees it: texts come in, and order requests go out in
between.  Over a whole run every rejection goes to an order that was acted on
exactly as long as no failed response leaves its request id out.
-/

namespace RoqKraken.Gateway

open Json (Members Decoders)
open Json.Parser (recognise Decides)

/-- Only a method of orders stands for its type. -/
theorem OrderMethod.eq_of_recognise {method : OrderMethod} {pair : String × JsonText.Value}
    (recognised : recognise pair = some method.eventType) :
    pair = ("method", .string method.name) := by
  rcases pair with ⟨key, value⟩
  cases value with
  | string text =>
    simp only [recognise, Json.Parser.lookup_methods, Json.Parser.lookup_channels] at recognised
    split at recognised
    · next isMethod =>
      unfold Json.Parser.methodType at recognised
      cases method <;> grind [OrderMethod.eventType, OrderMethod.name]
    · split at recognised
      · unfold Json.Parser.channelType at recognised
        cases method <;> grind [OrderMethod.eventType]
      · cases recognised
  | _ => cases recognised

namespace DropCopy

variable {decoders : Decoders} {server : Server} {settings : Settings} {format : Format}
  {allowUnknownEventTypes : Bool} {session session' : DropCopy} {out : List Output}

/-! ## The session on the wire -/

/-- What reaches a session, with the texts of the exchange. -/
inductive Wire where
  | disconnected
  | ready
  | latency (sample : Int)
  | binary
  /-- A text, with the order manager's answers to its items. -/
  | text (members : Members) (oms : Nat → Option Order)
  | request (request : Request)

/-- One event of a session, a text being parsed first. -/
def receive (decoders : Decoders) (server : Server) (settings : Settings)
    (allowUnknownEventTypes : Bool) : Step DropCopy Wire (List Output) :=
  fun session wire =>
    match wire with
    | .disconnected => step server settings session .disconnected
    | .ready => step server settings session .ready
    | .latency sample => step server settings session (.latency sample)
    | .binary => step server settings session .binary
    | .text members oms =>
      session.parse decoders server settings allowUnknownEventTypes members oms
    | .request request => step server settings session (.request request)

/-- A text is a step of the session at the message that it decodes to, or nothing. -/
theorem parse_cases {members : Members} {oms : Nat → Option Order}
    (parsed : session.parse decoders server settings allowUnknownEventTypes members oms =
      some (session', out)) :
    (∃ pair type message,
      (members.find? fun pair => decide (Decides pair)) = some pair ∧
        recognise pair = some type ∧ decoders.decode members type = some message ∧
        step server settings session (.message message oms) = some (session', out)) ∨
      session' = session ∧ out = [] := by
  rw [parse_eq] at parsed
  cases found : members.find? fun pair => decide (Decides pair) with
  | none =>
    rw [found] at parsed
    cases allowUnknownEventTypes <;> cases parsed
    exact .inr ⟨rfl, rfl⟩
  | some pair =>
    rw [found] at parsed
    obtain ⟨type, recognised, parsed⟩ := Option.bind_eq_some_iff.mp parsed
    obtain ⟨message, decoded, handled⟩ := Option.bind_eq_some_iff.mp parsed
    exact .inl ⟨pair, type, message, rfl, recognised, decoded, handled⟩

/-- A response comes from a text that is a failed response of a method. -/
theorem receive_response {wire : Wire} {response : Response} {userId : UInt8} {orderId : UInt64}
    (received : receive decoders server settings allowUnknownEventTypes session wire =
      some (session', out))
    (member : .dispatch (.response response userId orderId) ∈ out) :
    ∃ members oms method ack, wire = .text members oms ∧ Responds method members ∧
      method.decode decoders members = some ack ∧ ack.error ≠ "" ∧
      response.requestType = method.requestType ∧
      (userId, orderId) = Encoder.unpackReqId ack.reqId := by
  cases wire with
  | text members oms =>
    rcases parse_cases received with
      ⟨pair, type, message, found, recognised, decoded, stepped⟩ | ⟨-, rfl⟩
    · obtain ⟨method, ack, oms', same, failed, requestType, addressed⟩ :=
        step_dispatch stepped member
      cases same
      have sameType : method.eventType = type := by
        rw [← Decoders.type_of_decode decoded]
        cases method <;> rfl
      subst sameType
      rw [OrderMethod.eq_of_recognise recognised] at found
      rw [method.decode_eventType] at decoded
      obtain ⟨ack', read, sameMessage⟩ := Option.map_eq_some_iff.mp decoded
      have sameAck : ack' = ack := by cases method <;> cases sameMessage <;> rfl
      subst sameAck
      exact ⟨members, oms, method, ack', rfl, found, read, failed, requestType, addressed⟩
    · cases member
  | disconnected | ready | latency | binary | request =>
    simp only [receive] at received
    obtain ⟨method, ack, oms, same, -⟩ := step_dispatch received member
    cases same

/-! ## Attribution over a run -/

/-- The frames sent so far. -/
def sent (log : List (Wire × List Output)) : List Frame := frames (log.flatMap Prod.snd)

/-- What the exchange does: in a response no key comes twice, and it leaves the
request id out or echoes the one of an earlier request of its method. -/
def Echoed (format : Format) (settings : Settings) (past : List (Wire × List Output))
    (entry : Wire × List Output) : Prop :=
  ∀ members oms method, entry.1 = .text members oms → Responds method members →
    (members.map Prod.fst).Nodup ∧
      (members.lookup "req_id" = none ∨ ∃ frame ∈ sent past, ∃ order,
        frame.request? = some (method, order) ∧ Echoes (frame.text format settings) members)

/-- A response of a method that failed and leaves its request id out. -/
def Unidentified (method : OrderMethod) (members : Members) : Prop :=
  Responds method members ∧ errorText members ≠ "" ∧ members.lookup "req_id" = none

/-- It is dispatched as a rejection of order 0 of user 0. -/
theorem parse_unidentified
    (reads : ∀ method : OrderMethod, ReadsAcks (method.decode decoders)) {method : OrderMethod}
    {members : Members} {oms : Nat → Option Order} (keys : (members.map Prod.fst).Nodup)
    (unidentified : Unidentified method members)
    (parsed : session.parse decoders server settings allowUnknownEventTypes members oms =
      some (session', out)) :
    ∃ response, out = [.dispatch (.response response 0 0)] := by
  obtain ⟨responds, failed, absent⟩ := unidentified
  rw [parse_responds responds] at parsed
  obtain ⟨ack, decoded, same⟩ := Option.map_eq_some_iff.mp parsed
  cases same
  rw [← (reads method).error decoded keys] at failed
  obtain ⟨response, dispatched, -⟩ := onAck_failed method failed
  rw [(reads method).absent decoded absent] at dispatched
  exact ⟨response, by rw [dispatched]; rfl⟩

/-- Every response dispatched is about an earlier request, and a failed response
without a request id is not dispatched. -/
structure Attributed (past : List (Wire × List Output)) (entry : Wire × List Output) : Prop where
  requested : ∀ response userId orderId,
    .dispatch (.response response userId orderId) ∈ entry.2 →
      ∃ frame ∈ sent past, ∃ method order, frame.request? = some (method, order) ∧
        method.requestType = response.requestType ∧ order.userId = userId ∧
        order.orderId = orderId
  unidentified : ∀ members oms method, entry.1 = .text members oms →
    Unidentified method members → ∀ response userId orderId,
      .dispatch (.response response userId orderId) ∉ entry.2

/-- **Attribution.**  Over a run rejections go to orders that were acted on if and
only if no failed response leaves its request id out. -/
theorem rejections_attributed_iff
    (reads : ∀ method : OrderMethod, ReadsAcks (method.decode decoders)) {orderIdMax : UInt64}
    (bits : orderIdMax.toNat < 2 ^ 48) {wires : List Wire} {log : List (Wire × List Output)}
    (ran : (receive decoders server settings allowUnknownEventTypes).run session wires =
      some (session', log))
    (admitted : ∀ frame ∈ sent log, ∀ method order, frame.request? = some (method, order) →
      order.orderId ≤ orderIdMax)
    (exchange : Throughout (Echoed format settings) log) :
    Throughout Attributed log ↔
      ∀ members oms method, .text members oms ∈ wires → ¬ Unidentified method members := by
  constructor
  · intro attributed members oms method received unidentified
    rw [← Step.map_fst_log ran] at received
    obtain ⟨⟨wire, out⟩, member, same⟩ := List.mem_map.mp received
    cases same
    obtain ⟨past, later, cut⟩ := List.append_of_mem member
    obtain ⟨before, after, -, parsed⟩ := Step.run_split (cut ▸ ran)
    have keys := (exchange past _ later cut members oms method rfl unidentified.1).1
    obtain ⟨response, dispatched⟩ := parse_unidentified reads keys unidentified parsed
    have none := (attributed past _ later cut).unidentified members oms method rfl unidentified
      response 0 0
    refine none ?_
    rw [dispatched]
    exact List.mem_singleton_self _
  · intro identified past entry later cut
    obtain ⟨before, after, -, stepped⟩ := Step.run_split (e := entry.1) (o := entry.2) (cut ▸ ran)
    have named : ∀ members oms method, entry.1 = .text members oms →
        ¬ Unidentified method members := by
      intro members oms method text
      refine identified members oms method ?_
      rw [← text, ← Step.map_fst_log ran, cut]
      simp
    refine ⟨fun response userId orderId member => ?_,
      fun members oms method text unidentified => absurd unidentified (named _ _ _ text)⟩
    obtain ⟨members, oms, method, ack, text, responds, decoded, failed, type, addressed⟩ :=
      receive_response stepped member
    obtain ⟨keys, echoed⟩ := exchange past entry later cut members oms method text responds
    rw [(reads method).error decoded keys] at failed
    rcases echoed with absent | ⟨frame, wasSent, order, request, echoes⟩
    · exact absurd ⟨responds, failed, absent⟩ (named members oms method text)
    · have sentBefore : frame ∈ sent log := by
        rw [cut, sent, List.flatMap_append, frames_append]
        exact List.mem_append_left _ wasSent
      have small : order.orderId.toNat < 2 ^ 48 := Nat.lt_of_le_of_lt
        (UInt64.le_iff_toNat_le.mp (admitted frame sentBefore method order request)) bits
      rw [(reads method).reqId_of_echoes decoded keys request echoes,
        Encoder.unpackReqId_packReqId order.userId small, Prod.mk.injEq] at addressed
      exact ⟨frame, wasSent, method, order, request, type.symm, addressed.1.symm,
        addressed.2.symm⟩

/-- A cancel request and the response that rejects it. -/
def rejectedCancel : List Wire :=
  [.request (.cancelOrder ⟨"A1"⟩ ⟨7, 1000, 0, "", ""⟩), .text unknownOrder fun _ => none]

theorem rejectedCancel_echoed {out : List Output} :
    Throughout (Echoed wholeFormat {})
      [(.request (.cancelOrder ⟨"A1"⟩ ⟨7, 1000, 0, "", ""⟩),
        [.send (.cancelOrder ⟨7, 1000, 0, "", ""⟩ "T")]),
        (.text unknownOrder fun _ => none, out)] := by
  refine (throughout_nil.concat ?_ : Throughout _ [_]).concat ?_
  · intro members oms method text
    cases text
  · intro members oms method text responds
    cases text
    cases method with
    | cancelOrder =>
      exact ⟨by decide, .inr ⟨_, List.mem_singleton_self _, _, rfl, unknownOrder_echoes⟩⟩
    | addOrder | amendOrder =>
      have same : ("method", JsonText.Value.string "cancel_order") =
        ("method", .string (OrderMethod.name _)) := Option.some.inj responds
      simp [OrderMethod.name] at same

theorem rejections_attributed_iff_rejectedCancel : ∃ log : List (Wire × List Output),
    (receive Json.Parser.plainDecoders ⟨255, fun _ => false⟩ {} true).run
        ⟨3, "A1", "T", .ready⟩ rejectedCancel = some (⟨3, "A1", "T", .ready⟩, log) ∧
      (Throughout Attributed log ↔
        ∀ members oms method, .text members oms ∈ rejectedCancel →
          ¬ Unidentified method members) :=
  ⟨_, rfl, @rejections_attributed_iff Json.Parser.plainDecoders ⟨255, fun _ => false⟩ {} wholeFormat
    true ⟨3, "A1", "T", .ready⟩ ⟨3, "A1", "T", .ready⟩ plainDecoders_readsAcks (2 ^ 48 - 1)
    (by decide) rejectedCancel _ rfl
    (by
      intro frame member method order request
      cases List.mem_singleton.mp member
      cases request
      decide)
    rejectedCancel_echoed⟩

/-- A failed order as the exchange reports it, without a request id. -/
def volumeMinimumNotMet : Members :=
  [("error", .string "EGeneral:Invalid arguments:volume minimum not met"),
    ("method", .string "add_order"), ("success", .bool false),
    ("time_in", .string "2026-01-21T14:24:10.817739Z"),
    ("time_out", .string "2026-01-21T14:24:10.819873Z")]

/-- It is dispatched to order 0 of user 0, although nothing was requested. -/
theorem rejection_without_reqId_is_dispatched :
    ¬ ∀ (decoders : Decoders) (server : Server) (settings : Settings) (format : Format)
      (orderIdMax : UInt64) (session session' : DropCopy) (wires : List Wire)
      (log : List (Wire × List Output)),
      (∀ method : OrderMethod, ReadsAcks (method.decode decoders)) →
      orderIdMax.toNat < 2 ^ 48 →
      (receive decoders server settings true).run session wires = some (session', log) →
      (∀ frame ∈ sent log, ∀ method order, frame.request? = some (method, order) →
        order.orderId ≤ orderIdMax) →
      Throughout (Echoed format settings) log → Throughout Attributed log := by
  intro attributed
  have all := attributed Json.Parser.plainDecoders ⟨255, fun _ => false⟩ {} wholeFormat
    (2 ^ 48 - 1) ⟨3, "A1", "T", .ready⟩ ⟨3, "A1", "T", .ready⟩
    [.text volumeMinimumNotMet fun _ => none] _ plainDecoders_readsAcks (by decide) rfl
    (by
      intro frame member
      cases member)
    (throughout_nil.concat (by
      intro members oms method text responds
      cases text
      exact ⟨by decide, .inl rfl⟩))
  obtain ⟨frame, member, -⟩ := (all [] _ [] rfl).requested _ 0 0 (List.mem_singleton_self _)
  cases member

end DropCopy

end RoqKraken.Gateway
