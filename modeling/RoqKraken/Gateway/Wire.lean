import RoqKraken.Gateway.Session
import RoqKraken.Protocol.OrderFrames

/-!
# What the exchange reads

Every text a session sends is the text of a JSON object, as long as no string in it
needs escaping; the code writes strings as they are.  `Frame.value` is the object,
`Frame.read_text` reads it back, whichever frame it is.
-/

namespace RoqKraken.Gateway

open JsonText

/-! ## Numbers with a sign -/

/-- A minus sign does not change what comes after the first digit. -/
theorem after_minus_toDigits {n : Nat} (positive : 0 < n) :
    NumberState.minus.after (Nat.toDigits 10 n) = some .integer := by
  have start := after_toDigits positive
  cases digits : Nat.toDigits 10 n with
  | nil =>
    rw [digits] at start
    cases start
  | cons c text =>
    have digit : c.isDigit = true := Nat.isDigit_of_mem_toDigits (b := 10) (n := n) (by decide)
      (by decide) (digits ▸ List.mem_cons_self ..)
    have sign : c ≠ '-' := by
      rintro rfl
      exact absurd digit (by decide)
    have same : NumberState.minus.next c = NumberState.start.next c := by
      simp [NumberState.next, sign]
    rw [digits, NumberState.after, List.foldlM_cons] at start
    rw [NumberState.after, List.foldlM_cons, same]
    exact start

theorem isNumber_int (n : Int) : isNumber (toString n).toList = true := by
  rw [Int.toString_eq_repr, Int.repr_eq_if]
  split
  · simp [Nat.repr, isNumber_toDigits]
  · next negative =>
    have positive : 0 < (-n).toNat := by omega
    have text : ("-" ++ (-n).toNat.repr).toList = '-' :: Nat.toDigits 10 (-n).toNat := by
      simp [Nat.repr]
    have sign : NumberState.start.next '-' = some .minus := by decide
    have rest := after_minus_toDigits positive
    unfold NumberState.after at rest
    rw [text, isNumber, NumberState.after, List.foldlM_cons, sign]
    simp [rest, NumberState.accepts]

namespace Frame

/-! ## The objects -/

/-- What the book channel is asked for besides the symbols. -/
def bookMembers (settings : Settings) : List (String × Value) :=
  optionalMember "depth" (if settings.publicSubscribeBookDepth ≠ 0 then
      some (.number (toString settings.publicSubscribeBookDepth.toNat)) else none) ++
    [("snapshot", .bool true)]

/-- The object a frame is. -/
def value (format : Format) (settings : Settings) : Frame → Value
  | ping reqId => .object [("method", .string "ping"), ("req_id", .number (toString reqId))]
  | subscribe channel =>
    .object [("method", .string "subscribe"), ("params", .object [("channel", .string channel)])]
  | subscribeSymbols channel symbols =>
    .object [("method", .string "subscribe"),
      ("params", .object (
        [("channel", .string channel), ("symbol", .array (symbols.map .string))] ++
        (if channel = "ticker" then [("event_trigger", .string "bbo")] else []) ++
        (if channel = "book" then bookMembers settings else [])))]
  | subscribeToken channel token =>
    .object [("method", .string "subscribe"),
      ("params", .object ([("channel", .string channel), ("token", .string token)] ++
        (if channel = "executions" then [("snap_orders", .bool true), ("snap_trades", .bool true)]
        else [])))]
  | addOrder createOrder order refData requestId token =>
    requestValue "add_order"
      (addOrderParams token requestId createOrder.symbol (createOrder.side.wireName.getD "")
        (createOrder.orderType.wireName.getD "")
        (format.decimal createOrder.quantity refData.quantityPrecision)
        createOrder.timeInForce.wireName
        (optionalDecimal format createOrder.price refData.pricePrecision))
      (Encoder.packReqId order.userId order.orderId)
  | amendOrder modifyOrder order refData token =>
    requestValue "amend_order"
      (amendOrderParams token order.clientOrderId
        (optionalDecimal format modifyOrder.quantity refData.quantityPrecision)
        (optionalDecimal format modifyOrder.price refData.pricePrecision))
      (Encoder.packReqId order.userId order.orderId)
  | cancelOrder order token =>
    requestValue "cancel_order"
      (cancelOrderParams token order.clientOrderId order.externalOrderId)
      (Encoder.packReqId order.userId order.orderId)
  | cancelAll token => requestValue "cancel_all" [("token", .string token)] 123

/-- What a frame is made of needs no escaping, and the exchange has a name and a number for
what is asked. -/
def Encodable : Frame → Prop
  | ping _ => True
  | subscribe channel => Plain channel
  | subscribeSymbols channel symbols =>
    Plain channel ∧ symbols ≠ [] ∧ ∀ symbol ∈ symbols, Plain symbol
  | subscribeToken channel token => Plain channel ∧ Plain token
  | addOrder createOrder _ _ requestId token => Plain token ∧ Plain requestId ∧
      ∃ sideName typeName, createOrder.Encodable sideName typeName
  | amendOrder modifyOrder order _ token =>
    Plain token ∧ Plain order.clientOrderId ∧ modifyOrder.Encodable
  | cancelOrder order token =>
    Plain token ∧ Plain order.clientOrderId ∧ Plain order.externalOrderId
  | cancelAll token => Plain token

/-! ## The texts -/

/-- The symbols of a subscription. -/
theorem toList_symbols {symbols : List String} (plain : ∀ symbol ∈ symbols, Plain symbol)
    (some_ : symbols ≠ []) :
    (r#"[""# ++ String.intercalate r#"",""# symbols ++ r#""]"#).toList =
      render (.array (symbols.map .string)) := by
  have items : ∀ (first : String) (rest : List String), Plain first →
      (∀ symbol ∈ rest, Plain symbol) →
      '"' :: (String.intercalate r#"",""# (first :: rest)).toList ++ ['"', ']'] =
        render (.string first) ++ renderItems (rest.map .string) := by
    intro first rest
    induction rest generalizing first with
    | nil =>
      intro plainFirst _
      simp [render, renderItems, quote_of_plain plainFirst]
    | cons second rest ih =>
      intro plainFirst plainRest
      obtain ⟨plainSecond, plainRest⟩ := List.forall_mem_cons.mp plainRest
      have later := ih second plainSecond plainRest
      rw [String.intercalate_cons_cons, List.map_cons, renderItems, ← later]
      simp [render, quote_of_plain plainFirst]
  cases symbols with
  | nil => exact absurd rfl some_
  | cons first rest =>
    obtain ⟨plainFirst, plainRest⟩ := List.forall_mem_cons.mp plain
    have listed := items first rest plainFirst plainRest
    rw [List.map_cons, render, ← listed]
    simp

variable {format : Format} {settings : Settings} {frame : Frame}

theorem toList_subscribeToken {channel token : String} (plain : Plain channel)
    (plainToken : Plain token) : ((subscribeToken channel token).text format settings).toList =
      render ((subscribeToken channel token).value format settings) := by
  dsimp only [text, value]
  by_cases executions : channel = "executions"
  · simp only [executions, if_true]
    simp (disch := decide) [render, renderMembers, quote_of_plain plainToken, quote_of_plain]
  · simp only [executions, if_false]
    simp (disch := decide) [render, renderMembers, quote_of_plain plain,
      quote_of_plain plainToken, quote_of_plain]

theorem toList_ping (reqId : Int) : ((ping reqId).text format settings).toList =
    render ((ping reqId).value format settings) := by
  dsimp only [text, value]
  simp (disch := decide) [render, renderMembers, quote_of_plain]

theorem toList_subscribe {channel : String} (plain : Plain channel) :
    ((subscribe channel).text format settings).toList =
      render ((subscribe channel).value format settings) := by
  dsimp only [text, value]
  simp (disch := decide) [render, renderMembers, quote_of_plain plain, quote_of_plain]

theorem toList_cancelAll {token : String} (plain : Plain token) :
    ((cancelAll token).text format settings).toList =
      render ((cancelAll token).value format settings) := by
  dsimp only [text, value, Encoder.cancelAllJson]
  rw [render_requestValue _ _ _ (by decide)]
  have digits : Nat.toDigits 10 123 = ['1', '2', '3'] := by decide
  simp (disch := decide) [digits, render, renderMembers, quote_of_plain plain, quote_of_plain]

/-- What follows the symbols depends on the channel. -/
theorem toList_subscribeSymbols {channel : String} {symbols : List String}
    (plain : Plain channel) (some_ : symbols ≠ [])
    (plainSymbols : ∀ symbol ∈ symbols, Plain symbol) :
    ((subscribeSymbols channel symbols).text format settings).toList =
      render ((subscribeSymbols channel symbols).value format settings) := by
  have array := toList_symbols plainSymbols some_
  dsimp only [text, value]
  generalize String.intercalate r#"",""# symbols = inner at array ⊢
  generalize texts : Value.array (symbols.map .string) = listed at array ⊢
  have inside : render listed = '[' :: '"' :: (inner.toList ++ ['"', ']']) := by
    rw [← array]
    simp
  by_cases ticker : channel = "ticker"
  · subst ticker
    simp (disch := decide) [inside, render, renderMembers, quote_of_plain]
  · by_cases book : channel = "book"
    · subst book
      by_cases none : settings.publicSubscribeBookDepth = 0
      · simp (disch := decide) [inside, none, bookMembers, optionalMember, render, renderMembers,
          quote_of_plain]
      · simp (disch := decide) [inside, none, bookMembers, optionalMember, render, renderMembers,
          quote_of_plain]
    · simp (disch := decide) [inside, ticker, book, render, renderMembers, quote_of_plain plain,
        quote_of_plain]

variable {frame : Frame}

/-- The text of a frame is the text of its object. -/
theorem toList_text (lawful : format.Lawful) (encodable : frame.Encodable) :
    (frame.text format settings).toList = render (frame.value format settings) := by
  cases frame with
  | ping reqId => exact toList_ping reqId
  | subscribe channel => exact toList_subscribe encodable
  | subscribeSymbols channel symbols =>
    obtain ⟨plain, some_, plainSymbols⟩ := encodable
    exact toList_subscribeSymbols plain some_ plainSymbols
  | subscribeToken channel token => exact toList_subscribeToken encodable.1 encodable.2
  | addOrder createOrder order refData requestId token =>
    obtain ⟨plainToken, plainId, sideName, typeName, asked⟩ := encodable
    rw [value, asked.side, asked.orderType]
    exact toList_addOrderJson lawful plainToken plainId asked.symbol asked.side asked.orderType
      asked.timeInForce
  | amendOrder modifyOrder order refData token =>
    exact toList_amendOrderJson encodable.1 encodable.2.1
  | cancelOrder order token => exact toList_cancelOrderJson encodable.1 encodable.2.1 encodable.2.2
  | cancelAll token => exact toList_cancelAll encodable

/-! ## Well-formed objects -/

theorem validItems_strings (symbols : List String) : validItems (symbols.map .string) = true := by
  induction symbols with
  | nil => rfl
  | cons symbol symbols ih => simpa [validItems, Value.valid] using ih

theorem uniqueItems_strings (symbols : List String) : uniqueItems (symbols.map .string) = true := by
  induction symbols with
  | nil => rfl
  | cons symbol symbols ih => simpa [uniqueItems, Value.uniqueKeys] using ih

theorem valid_requestValue {method : String} {params : List (String × Value)} (reqId : UInt64)
    (valid : (Value.object params).valid = true) :
    (requestValue method params reqId).valid = true := by
  simp only [Value.valid] at valid
  simp [requestValue, Value.valid, validMembers, valid, isNumber_toDigits]

theorem uniqueKeys_requestValue {method : String} {params : List (String × Value)} (reqId : UInt64)
    (unique : (Value.object params).uniqueKeys = true) :
    (requestValue method params reqId).uniqueKeys = true := by
  simp only [Value.uniqueKeys] at unique
  simp [requestValue, Value.uniqueKeys, uniqueMembers, unique]

theorem valid_value (lawful : format.Lawful) (encodable : frame.Encodable) :
    (frame.value format settings).valid = true := by
  cases frame with
  | ping reqId => simp only [value, Value.valid, validMembers, isNumber_int, Bool.and_true]
  | subscribe channel => simp [value, Value.valid, validMembers]
  | subscribeSymbols channel symbols =>
    have depth : validMembers (bookMembers settings) = true := by
      unfold bookMembers
      split <;> simp [optionalMember, validMembers, Value.valid, isNumber_toDigits]
    simp only [value, Value.valid, validMembers, validMembers_append, validItems_strings]
    split <;> split <;> simp [depth, validMembers, Value.valid]
  | subscribeToken channel token =>
    simp only [value, Value.valid, validMembers, validMembers_append]
    split <;> simp [validMembers, Value.valid]
  | addOrder createOrder order refData requestId token =>
    obtain ⟨-, -, sideName, typeName, asked⟩ := encodable
    exact valid_requestValue _
      (valid_addOrderParams lawful _ _ _ _ _ _ _ _ asked.quantity asked.price)
  | amendOrder modifyOrder order refData token =>
    obtain ⟨-, -, asked⟩ := encodable
    exact valid_requestValue _ (valid_amendOrderParams lawful _ _ _ _ asked.quantity asked.price)
  | cancelOrder order token => exact valid_requestValue _ (valid_cancelOrderParams ..)
  | cancelAll token => exact valid_requestValue _ (by simp [Value.valid, validMembers])

theorem uniqueKeys_value (format : Format) (settings : Settings) (frame : Frame) :
    (frame.value format settings).uniqueKeys = true := by
  cases frame with
  | ping reqId => simp [value, Value.uniqueKeys, uniqueMembers]
  | subscribe channel => simp [value, Value.uniqueKeys, uniqueMembers]
  | subscribeSymbols channel symbols =>
    have items := uniqueItems_strings symbols
    by_cases ticker : channel = "ticker"
    · subst ticker
      simp [value, Value.uniqueKeys, uniqueMembers, items]
    · by_cases book : channel = "book"
      · subst book
        by_cases none : settings.publicSubscribeBookDepth = 0 <;>
          simp [value, bookMembers, optionalMember, none, Value.uniqueKeys, uniqueMembers, items]
      · simp [value, ticker, book, Value.uniqueKeys, uniqueMembers, items]
  | subscribeToken channel token =>
    by_cases executions : channel = "executions" <;>
      simp [value, executions, Value.uniqueKeys, uniqueMembers]
  | addOrder createOrder order refData requestId token =>
    exact uniqueKeys_requestValue _ (uniqueKeys_addOrderParams ..)
  | amendOrder modifyOrder order refData token =>
    exact uniqueKeys_requestValue _ (uniqueKeys_amendOrderParams ..)
  | cancelOrder order token => exact uniqueKeys_requestValue _ (uniqueKeys_cancelOrderParams ..)
  | cancelAll token =>
    exact uniqueKeys_requestValue _ (by simp [Value.uniqueKeys, uniqueMembers])

/-- **Frames read back.** -/
theorem read_text (lawful : format.Lawful) (encodable : frame.Encodable) :
    JsonText.read (frame.text format settings).toList = some (frame.value format settings) := by
  rw [toList_text lawful encodable]
  exact read_render (valid_value lawful encodable)

end Frame

end RoqKraken.Gateway
