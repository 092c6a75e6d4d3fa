import RoqKraken.Fallible
import RoqKraken.JsonText
import RoqKraken.Protocol.Messages
import Mathlib.Data.List.TakeDrop

/-!
# `json::Parser`: which message is which

`Parser::dispatch` of `parser.cpp` walks the pairs of the top-level object of a
message, decodes the message as the type that its `method` or `channel` names,
and hands it to a handler.

The object walk of `core::json` and the generated decoders are not part of the
repository.  The walk visits the pairs in order and stops when its callback
returns true; the decoders are the fields of `Decoders`.
-/

namespace RoqKraken.Json

/-- The top-level object of a message, pair by pair. -/
abbrev Members := List (String × JsonText.Value)

/-- The types of `Parser::Handler`. -/
inductive EventType where
  | status | heartbeat | error | pong | subscribe | instrument | ticker | trade | book
  | balances | executions | addOrder | amendOrder | cancelOrder | cancelAll
deriving DecidableEq, Repr

/-- The type of a message. -/
def Message.type : Message → EventType
  | .status => .status
  | .heartbeat => .heartbeat
  | .error => .error
  | .pong => .pong
  | .subscribe => .subscribe
  | .instrument _ => .instrument
  | .ticker _ => .ticker
  | .trade _ => .trade
  | .book _ => .book
  | .balances _ => .balances
  | .executions _ => .executions
  | .addOrder _ => .addOrder
  | .amendOrder _ => .amendOrder
  | .cancelOrder _ => .cancelOrder
  | .cancelAll => .cancelAll

/-- The constructors `T{message, buffer_stack}` of the generated types; `none`
when a constructor raises. -/
structure Decoders where
  status : Members → Option Unit
  heartbeat : Members → Option Unit
  error : Members → Option Unit
  pong : Members → Option Unit
  subscribe : Members → Option Unit
  instrument : Members → Option Instrument
  ticker : Members → Option Ticker
  trade : Members → Option Trade
  book : Members → Option Book
  balances : Members → Option Balances
  executions : Members → Option Executions
  addOrder : Members → Option OrderAck
  amendOrder : Members → Option OrderAck
  cancelOrder : Members → Option OrderAck
  cancelAll : Members → Option Unit

/-- The object `dispatch_helper` makes of a message. -/
def Decoders.decode (decoders : Decoders) (members : Members) : EventType → Option Message
  | .status => (decoders.status members).map fun _ => .status
  | .heartbeat => (decoders.heartbeat members).map fun _ => .heartbeat
  | .error => (decoders.error members).map fun _ => .error
  | .pong => (decoders.pong members).map fun _ => .pong
  | .subscribe => (decoders.subscribe members).map fun _ => .subscribe
  | .instrument => (decoders.instrument members).map .instrument
  | .ticker => (decoders.ticker members).map .ticker
  | .trade => (decoders.trade members).map .trade
  | .book => (decoders.book members).map .book
  | .balances => (decoders.balances members).map .balances
  | .executions => (decoders.executions members).map .executions
  | .addOrder => (decoders.addOrder members).map .addOrder
  | .amendOrder => (decoders.amendOrder members).map .amendOrder
  | .cancelOrder => (decoders.cancelOrder members).map .cancelOrder
  | .cancelAll => (decoders.cancelAll members).map fun _ => .cancelAll

/-- A message decoded as a type is of that type. -/
theorem Decoders.type_of_decode {decoders : Decoders} {members : Members} {type : EventType}
    {message : Message} (decoded : decoders.decode members type = some message) :
    message.type = type := by
  cases type <;> obtain ⟨_, _, rfl⟩ := Option.map_eq_some_iff.mp decoded <;> rfl

namespace Parser

/-- Why `dispatch` does not return. -/
inductive Raised where
  /-- `std::bad_variant_access`. -/
  | badVariantAccess
  /-- A constructor of a generated type. -/
  | decoder
  /-- The handler. -/
  | handler
  /-- `log::fatal`. -/
  | unexpected
deriving DecidableEq, Repr

variable {σ : Type}

/-- `dispatch_helper`. -/
def dispatchHelper (decoders : Decoders) (handler : Message → Fallible Raised σ PUnit)
    (members : Members) (type : EventType) : Fallible Raised σ Bool :=
  match decoders.decode members type with
  | some message => do
    handler message
    return true
  | none => throw .decoder

/-- The switch on the value of `method`, up to collisions of the hash it
compares. -/
def methodType (value : String) : Option EventType :=
  if value = "error" then some .error
  else if value = "pong" then some .pong
  else if value = "subscribe" then some .subscribe
  else if value = "add_order" then some .addOrder
  else if value = "amend_order" then some .amendOrder
  else if value = "cancel_order" then some .cancelOrder
  else if value = "cancel_all" then some .cancelAll
  else none

/-- The switch on the value of `channel`, likewise. -/
def channelType (value : String) : Option EventType :=
  if value = "status" then some .status
  else if value = "heartbeat" then some .heartbeat
  else if value = "instrument" then some .instrument
  else if value = "ticker" then some .ticker
  else if value = "trade" then some .trade
  else if value = "book" then some .book
  else if value = "balances" then some .balances
  else if value = "executions" then some .executions
  else none

/-- `std::get<std::string_view>(value)`. -/
def getString : JsonText.Value → Fallible Raised σ String
  | .string text => pure text
  | _ => throw .badVariantAccess

/-- The `helper` lambda; `result` is the flag it captures. -/
def helper (decoders : Decoders) (handler : Message → Fallible Raised σ PUnit)
    (members : Members) (result : Bool) (key : String) (value : JsonText.Value) :
    Fallible Raised σ Bool := do
  if key = "method" then
    match methodType (← getString value) with
    | some type => dispatchHelper decoders handler members type
    | none => return result
  else if key = "channel" then
    match channelType (← getString value) with
    | some type => dispatchHelper decoders handler members type
    | none => return result
  else
    return result

/-- `core::json::Parser::dispatch<core::json::Object>`. -/
def walk (callback : Bool → String → JsonText.Value → Fallible Raised σ Bool) :
    Bool → Members → Fallible Raised σ Bool
  | result, [] => return result
  | result, (key, value) :: members => do
    let result ← callback result key value
    if result then return result else walk callback result members

/-- `Parser::dispatch`. -/
def dispatch (decoders : Decoders) (handler : Message → Fallible Raised σ PUnit)
    (members : Members) (allowUnknownEventTypes : Bool) : Fallible Raised σ Bool := do
  let result ← walk (helper decoders handler members) false members
  if result || allowUnknownEventTypes then return result else throw .unexpected

/-! ## The pair that decides -/

/-- The methods `dispatch` knows, with the types they stand for. -/
def methods : List (String × EventType) :=
  [("error", .error), ("pong", .pong), ("subscribe", .subscribe), ("add_order", .addOrder),
    ("amend_order", .amendOrder), ("cancel_order", .cancelOrder), ("cancel_all", .cancelAll)]

def channels : List (String × EventType) :=
  [("status", .status), ("heartbeat", .heartbeat), ("instrument", .instrument),
    ("ticker", .ticker), ("trade", .trade), ("book", .book), ("balances", .balances),
    ("executions", .executions)]

/-- The type a pair stands for. -/
def recognise (pair : String × JsonText.Value) : Option EventType :=
  match pair.2 with
  | .string value =>
    if pair.1 = "method" then methods.lookup value
    else if pair.1 = "channel" then channels.lookup value
    else none
  | _ => none

/-- The pair names a method or a channel by a value that is no string. -/
def Untyped (pair : String × JsonText.Value) : Prop :=
  (pair.1 = "method" ∨ pair.1 = "channel") ∧ pair.2.isString = false

instance (pair : String × JsonText.Value) : Decidable (Untyped pair) :=
  inferInstanceAs (Decidable (_ ∧ _))

theorem lookup_cons_eq_ite (value name : String) (type : EventType)
    (rest : List (String × EventType)) : ((name, type) :: rest).lookup value =
      if value = name then some type else rest.lookup value := by
  rw [List.lookup_cons]
  by_cases same : value = name
  · simp [same]
  · simp [same, beq_eq_false_iff_ne.mpr same]

theorem lookup_methods (value : String) : methods.lookup value = methodType value := by
  simp only [methods, lookup_cons_eq_ite, List.lookup_nil, methodType]

theorem lookup_channels (value : String) : channels.lookup value = channelType value := by
  simp only [channels, lookup_cons_eq_ite, List.lookup_nil, channelType]

variable {decoders : Decoders} {handler : Message → Fallible Raised σ PUnit}
  {members : Members}

/-- What the callback does with a pair while nothing was found. -/
theorem helper_eq (pair : String × JsonText.Value) :
    helper decoders handler members false pair.1 pair.2 =
      if Untyped pair then throw .badVariantAccess
      else match recognise pair with
        | some type => dispatchHelper decoders handler members type
        | none => pure false := by
  rcases pair with ⟨key, value⟩
  unfold helper recognise Untyped
  by_cases method : key = "method"
  · cases value <;> simp [method, getString, JsonText.Value.isString, lookup_methods]
  · by_cases channel : key = "channel"
    · cases value <;> simp [channel, getString, JsonText.Value.isString, lookup_channels]
    · cases value <;> simp [method, channel]

/-- What becomes of a pair that the walk reaches: nothing, or it ends the walk. -/
def Decides (pair : String × JsonText.Value) : Prop :=
  Untyped pair ∨ (recognise pair).isSome = true

instance (pair : String × JsonText.Value) : Decidable (Decides pair) :=
  inferInstanceAs (Decidable (_ ∨ _))

/-- What decides is a type, or a value that is no string. -/
theorem recognise_eq_none_of_untyped {pair : String × JsonText.Value} (untyped : Untyped pair) :
    recognise pair = none := by
  rcases pair with ⟨key, value⟩
  obtain ⟨-, other⟩ := untyped
  cases value with
  | string text => cases other
  | _ => rfl

/-- `dispatch_helper` returns true or raises. -/
theorem dispatchHelper_bind (type : EventType) (next : Bool → Fallible Raised σ Bool)
    (stops : next true = pure true) :
    dispatchHelper decoders handler members type >>= next =
      dispatchHelper decoders handler members type := by
  unfold dispatchHelper
  cases decoders.decode members type with
  | none => rfl
  | some message => simp [stops]

/-- What the pair that decides leads to. -/
def decided (decoders : Decoders) (handler : Message → Fallible Raised σ PUnit)
    (members : Members) (pair : String × JsonText.Value) : Fallible Raised σ Bool :=
  match recognise pair with
  | some type => dispatchHelper decoders handler members type
  | none => throw .badVariantAccess

/-- The walk ends at the first pair that decides. -/
theorem walk_eq (rest : Members) : walk (helper decoders handler members) false rest =
    match rest.find? fun pair => decide (Decides pair) with
    | some pair => decided decoders handler members pair
    | none => pure false := by
  induction rest with
  | nil => rfl
  | cons pair rest ih =>
    rw [walk, helper_eq]
    by_cases untyped : Untyped pair
    · rw [if_pos untyped, List.find?_cons_of_pos (by simp [Decides, untyped])]
      simp only [decided, recognise_eq_none_of_untyped untyped]
      rfl
    · cases recognised : recognise pair with
      | some type =>
        rw [if_neg untyped, List.find?_cons_of_pos (by simp [Decides, recognised])]
        simp only [decided, recognised]
        exact dispatchHelper_bind type _ (by simp)
      | none =>
        rw [if_neg untyped, List.find?_cons_of_neg (by simp [Decides, untyped, recognised])]
        simpa using ih

/-- **Dispatch.**  The first pair that decides settles what happens to a message;
without one it is unexpected. -/
theorem dispatch_eq (allowUnknownEventTypes : Bool) :
    dispatch decoders handler members allowUnknownEventTypes =
      match members.find? fun pair => decide (Decides pair) with
      | some pair => decided decoders handler members pair
      | none => if allowUnknownEventTypes then pure false else throw .unexpected := by
  unfold dispatch
  rw [walk_eq]
  cases members.find? fun pair => decide (Decides pair) with
  | none => simp
  | some pair =>
    simp only [decided]
    cases recognise pair with
    | some type => exact dispatchHelper_bind type _ (by simp)
    | none => rfl

/-- How that ends, and the state it leaves. -/
theorem run_decided (pair : String × JsonText.Value) (s : σ) :
    (decided decoders handler members pair).run.run s =
      match recognise pair with
      | none => (.error .badVariantAccess, s)
      | some type =>
        match decoders.decode members type with
        | none => (.error .decoder, s)
        | some message =>
          match (handler message).run.run s with
          | (.ok _, s') => (.ok true, s')
          | (.error raised, s') => (.error raised, s') := by
  unfold decided dispatchHelper
  cases recognise pair with
  | none => rfl
  | some type =>
    cases decoded : decoders.decode members type with
    | none => simp only [decoded]; rfl
    | some message =>
      simp only [decoded, ExceptT.run_bind, StateT.run_bind]
      rcases (handler message).run.run s with ⟨_ | _, _⟩ <;> rfl

/-! ## Routing -/

/-- The first type that the pairs of a message stand for. -/
def firstType (members : Members) : Option EventType := members.findSome? recognise

/-- A recognised pair that decides is the first recognised one. -/
theorem firstType_of_find? {members : Members} {pair : String × JsonText.Value} {type : EventType}
    (found : (members.find? fun pair => decide (Decides pair)) = some pair)
    (recognised : recognise pair = some type) : firstType members = some type := by
  obtain ⟨-, past, later, cut, before⟩ := List.find?_eq_some_iff_append.mp found
  refine List.findSome?_eq_some_iff.mpr ⟨past, pair, later, cut, recognised, ?_⟩
  intro earlier member
  have not : ¬ Decides earlier := by simpa using before earlier member
  simpa using fun recognised => not (.inr recognised)

/-- With strings for methods and channels, the first pair that stands for a type
decides. -/
theorem find?_decides {members : Members} (typed : ∀ pair ∈ members, ¬ Untyped pair) :
    (members.find? fun pair => decide (Decides pair)).bind recognise = firstType members := by
  unfold firstType
  induction members with
  | nil => rfl
  | cons pair members ih =>
    rw [List.forall_mem_cons] at typed
    cases recognised : recognise pair with
    | some type =>
      rw [List.find?_cons_of_pos (by simp [Decides, recognised]),
        List.findSome?_cons_of_isSome (by simp [recognised])]
      rfl
    | none =>
      rw [List.find?_cons_of_neg (by simp [Decides, typed.1, recognised]),
        List.findSome?_cons_of_isNone (by simp [recognised])]
      exact ih typed.2

/-- A handler that notes what it is called with. -/
def note (message : Message) : Fallible Raised (List Message) PUnit := modify (· ++ [message])

/-- What `dispatch` returns or raises, and the calls of the handler it makes. -/
def outcome (decoders : Decoders) (members : Members) (allowUnknownEventTypes : Bool) :
    Except Raised Bool × List Message :=
  (dispatch decoders note members allowUnknownEventTypes).run.run []

theorem outcome_eq {members : Members} (typed : ∀ pair ∈ members, ¬ Untyped pair)
    (allowUnknownEventTypes : Bool) : outcome decoders members allowUnknownEventTypes =
      match firstType members with
      | some type =>
        match decoders.decode members type with
        | some message => (.ok true, [message])
        | none => (.error .decoder, [])
      | none => (if allowUnknownEventTypes then .ok false else .error .unexpected, []) := by
  have first := find?_decides typed
  unfold outcome
  rw [dispatch_eq]
  cases found : members.find? fun pair => decide (Decides pair) with
  | none =>
    rw [found, Option.bind_none] at first
    rw [← first]
    cases allowUnknownEventTypes <;> rfl
  | some pair =>
    have decides : Decides pair := by simpa using List.find?_some found
    obtain ⟨type, recognised⟩ := Option.isSome_iff_exists.mp
      (decides.resolve_left (typed pair (List.mem_of_find?_eq_some found)))
    rw [found, Option.bind_some, recognised] at first
    rw [← first]
    simp only [decided, recognised, dispatchHelper]
    cases decoders.decode members type <;> rfl

/-- What `dispatch` does with a message that decodes as its first type. -/
theorem outcome_routed {members : Members} (typed : ∀ pair ∈ members, ¬ Untyped pair)
    (decodes : ∀ type, firstType members = some type →
      ∃ message, decoders.decode members type = some message) (allowUnknownEventTypes : Bool) :
    (outcome decoders members allowUnknownEventTypes).2.map Message.type =
        (firstType members).toList ∧
      (outcome decoders members allowUnknownEventTypes).1 =
        if (firstType members).isSome then .ok true
        else if allowUnknownEventTypes then .ok false else .error .unexpected := by
  rw [outcome_eq typed]
  cases first : firstType members with
  | none => exact ⟨rfl, rfl⟩
  | some type =>
    obtain ⟨message, decoded⟩ := decodes type first
    simp [decoded, Decoders.type_of_decode decoded]

/-- A message with one recognised pair has the same type in any order. -/
theorem firstType_perm {members reordered : Members} (same : reordered.Perm members)
    (one : (members.filterMap recognise).length = 1) :
    firstType reordered = firstType members := by
  obtain ⟨type, only⟩ := List.length_eq_one_iff.mp one
  have only' : reordered.filterMap recognise = [type] :=
    List.Perm.eq_singleton (only ▸ same.filterMap recognise)
  rw [firstType, firstType, ← List.head?_filterMap, ← List.head?_filterMap, only, only']

/-- **Routing.**  A message is handed over as the type of the first pair that is
recognised, once, or not at all. -/
theorem dispatch_routes_by_first_pair (decoders : Decoders) {members : Members}
    (allowUnknownEventTypes : Bool)
    (strings : ∀ pair ∈ members, pair.1 = "method" ∨ pair.1 = "channel" →
      pair.2.isString = true)
    (decodes : ∀ type, firstType members = some type →
      ∃ message, decoders.decode members type = some message) :
    (outcome decoders members allowUnknownEventTypes).2.length ≤ 1 ∧
    ((outcome decoders members allowUnknownEventTypes).2 ≠ [] ↔
      ∃ pair ∈ members, ∃ type, recognise pair = some type) ∧
    (∀ past pair later type, members = past ++ pair :: later → recognise pair = some type →
      (∀ earlier ∈ past, recognise earlier = none) →
        (outcome decoders members allowUnknownEventTypes).2.map Message.type = [type] ∧
        (outcome decoders members allowUnknownEventTypes).1 = .ok true) ∧
    ((∀ pair ∈ members, recognise pair = none) → allowUnknownEventTypes = true →
      (outcome decoders members allowUnknownEventTypes).1 = .ok false) ∧
    ∀ reordered : Members, reordered.Perm members →
      (members.filterMap recognise).length = 1 →
      (∀ type, firstType reordered = some type →
        ∃ message, decoders.decode reordered type = some message) →
        (outcome decoders reordered allowUnknownEventTypes).2.map Message.type =
          (outcome decoders members allowUnknownEventTypes).2.map Message.type ∧
        (outcome decoders reordered allowUnknownEventTypes).1 =
          (outcome decoders members allowUnknownEventTypes).1 := by
  have typed : ∀ pair ∈ members, ¬ Untyped pair := by
    rintro pair member ⟨key, other⟩
    rw [strings pair member key] at other
    cases other
  obtain ⟨calls, result⟩ := outcome_routed typed decodes allowUnknownEventTypes
  refine ⟨?_, ?_, ?_, ?_, ?_⟩
  · have one := congrArg List.length calls
    rw [List.length_map] at one
    rw [one]
    exact Option.length_toList_le
  · have silent : (outcome decoders members allowUnknownEventTypes).2 = [] ↔
        firstType members = none := by
      rw [← @List.map_eq_nil_iff _ _ Message.type, calls, Option.toList_eq_nil_iff]
    rw [ne_eq, silent, firstType, List.findSome?_eq_none_iff]
    simp [Option.ne_none_iff_exists']
  · intro past pair later type cut recognised before
    have first : firstType members = some type :=
      List.findSome?_eq_some_iff.mpr ⟨past, pair, later, cut, recognised, before⟩
    rw [calls, result, first]
    exact ⟨rfl, rfl⟩
  · intro unknown allowed
    have none : firstType members = none := List.findSome?_eq_none_iff.mpr unknown
    rw [result, none, allowed]
    rfl
  · intro reordered same one decodes'
    have typed' : ∀ pair ∈ reordered, ¬ Untyped pair :=
      fun pair member => typed pair (same.mem_iff.mp member)
    obtain ⟨calls', result'⟩ := outcome_routed typed' decodes' allowUnknownEventTypes
    rw [calls, calls', result, result', firstType_perm same one]
    exact ⟨rfl, rfl⟩

/-- The two fields of an order acknowledgement, or their defaults. -/
def readAck (members : Members) : OrderAck where
  error :=
    match members.lookup "error" with
    | some (.string text) => text
    | _ => ""
  reqId := UInt64.ofNat (((members.lookup "req_id").bind JsonText.Value.natValue).getD 0)

/-- Decoders that read the order acknowledgements and nothing of any other
message. -/
def plainDecoders : Decoders where
  status _ := some ()
  heartbeat _ := some ()
  error _ := some ()
  pong _ := some ()
  subscribe _ := some ()
  instrument _ := some ⟨[]⟩
  ticker _ := some ⟨.update, []⟩
  trade _ := some ⟨[]⟩
  book _ := some ⟨.update, []⟩
  balances _ := some { type := .update, data := [] }
  executions _ := some ⟨.update, []⟩
  addOrder members := some (readAck members)
  amendOrder members := some (readAck members)
  cancelOrder members := some (readAck members)
  cancelAll _ := some ()

/-- A channel that is not known, and a method that is. -/
theorem dispatch_routes_by_first_pair_pong :
    (outcome plainDecoders [("channel", .string "level3"), ("time_in", .null),
        ("method", .string "pong")] true).2.map Message.type = [.pong] ∧
      (outcome plainDecoders [("channel", .string "level3"), ("time_in", .null),
        ("method", .string "pong")] true).1 = .ok true :=
  (@dispatch_routes_by_first_pair plainDecoders [("channel", .string "level3"),
    ("time_in", .null), ("method", .string "pong")] true (by simp [JsonText.Value.isString])
    (by
      intro type first
      cases first.symm.trans (show firstType _ = some EventType.pong by decide)
      exact ⟨_, rfl⟩)).2.2.1
    [("channel", .string "level3"), ("time_in", .null)] ("method", .string "pong") [] .pong rfl
    (by decide) (by decide)

end Parser

end RoqKraken.Json
