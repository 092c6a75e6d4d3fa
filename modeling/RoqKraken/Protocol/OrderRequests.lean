import RoqKraken.Protocol.OrderFrames
import RoqKraken.Protocol.RequestIds

/-!
# The requests an order frame can stand for

A frame of `add_order` is cut by its quotes, so texts without quotes can be told
apart in it: frames that are the same say the same.  What they say is what was
requested as long as the exchange has a name for it.
-/

namespace RoqKraken

open JsonText

/-! ## Names -/

namespace Json

/-- The values of the schema. -/
def Side.names : List String := ["buy", "sell"]

def OrderType.names : List String :=
  ["limit", "market", "iceberg", "stop-loss", "stop-loss-limit", "take-profit",
    "take-profit-limit", "trailing-stop", "trailing-stop-limit", "settle-position"]

def TimeInForce.names : List String := ["gtc", "gtd", "ioc"]

end Json

/-- What telling frames apart relies on: no text has a quote, and no undefined
value is written as the exchange spells one of its own. -/
structure Format.Apart (format : Format) : Prop where
  decimal : ∀ value precision, '"' ∉ (format.decimal value precision).toList
  side : '"' ∉ (format.sideText .undefinedInternal).toList ∧
    format.sideText .undefinedInternal ∉ Json.Side.names
  orderType : '"' ∉ (format.orderTypeText .undefinedInternal).toList ∧
    format.orderTypeText .undefinedInternal ∉ Json.OrderType.names
  timeInForce : '"' ∉ (format.timeInForceText .undefinedInternal).toList ∧
    format.timeInForceText .undefinedInternal ∉ Json.TimeInForce.names

/-! ## Spellings -/

/-- Values are written by their names, and those without a name all alike. -/
structure Spelling {α : Type} (names : List String) (wireName : α → Option String)
    (text : α → String) : Prop where
  placeholder : ∃ placeholder : String, '"' ∉ placeholder.toList ∧ placeholder ∉ names ∧
    ∀ value, text value = (wireName value).getD placeholder
  known : ∀ {value name}, wireName value = some name → name ∈ names ∧ Plain name
  distinct : ∀ {value other name}, wireName value = some name → wireName other = some name →
    other = value

theorem not_quote_mem_of_plain {text : String} (plain : Plain text) : '"' ∉ text.toList :=
  fun member => (plain _ member).1 rfl

namespace Spelling

variable {α : Type} {names : List String} {wireName : α → Option String} {text : α → String}
  (spelling : Spelling names wireName text) {value other : α}
include spelling

theorem not_quote_mem (value : α) : '"' ∉ (text value).toList := by
  obtain ⟨placeholder, unquoted, -, texts⟩ := spelling.placeholder
  rw [texts]
  cases named : wireName value with
  | none => exact unquoted
  | some name => exact not_quote_mem_of_plain (spelling.known named).2

/-- What is written is a name if and only if there is one. -/
theorem mem_names_iff (value : α) : text value ∈ names ↔ (wireName value).isSome = true := by
  obtain ⟨placeholder, -, apart, texts⟩ := spelling.placeholder
  rw [texts]
  cases named : wireName value with
  | none => simpa using apart
  | some name => simpa using (spelling.known named).1

/-- A value with a name is told from any other by what is written. -/
theorem eq_of_text_eq (named : (wireName value).isSome = true)
    (same : text other = text value) : other = value := by
  have written := (spelling.mem_names_iff value).mpr named
  rw [← same, spelling.mem_names_iff] at written
  obtain ⟨placeholder, -, -, texts⟩ := spelling.placeholder
  obtain ⟨name, here⟩ := Option.isSome_iff_exists.mp named
  obtain ⟨name', there⟩ := Option.isSome_iff_exists.mp written
  rw [texts, texts, here, there, Option.getD_some, Option.getD_some] at same
  exact spelling.distinct here (same ▸ there)

end Spelling

namespace Format

variable {format : Format} (lawful : format.Lawful) (apart : format.Apart)
include lawful apart

theorem spelling_side : Spelling Json.Side.names Roq.Side.wireName
    fun side => format.sideText side.map where
  placeholder := by
    refine ⟨_, apart.side.1, apart.side.2, fun side => ?_⟩
    cases named : side.wireName with
    | some name => exact lawful.sideText named
    | none => cases side <;> first | rfl | cases named
  known {side name} named := by cases side <;> cases named <;> decide
  distinct {side other name} named same := by
    cases side <;> cases named <;> cases other <;>
      first | rfl | simp [Roq.Side.wireName] at same

theorem spelling_orderType : Spelling Json.OrderType.names Roq.OrderType.wireName
    fun orderType => format.orderTypeText orderType.map where
  placeholder := by
    refine ⟨_, apart.orderType.1, apart.orderType.2, fun orderType => ?_⟩
    cases named : orderType.wireName with
    | some name => exact lawful.orderTypeText named
    | none => cases orderType <;> first | rfl | cases named
  known {orderType name} named := by cases orderType <;> cases named <;> decide
  distinct {orderType other name} named same := by
    cases orderType <;> cases named <;> cases other <;>
      first | rfl | simp [Roq.OrderType.wireName] at same

theorem spelling_timeInForce : Spelling Json.TimeInForce.names Roq.TimeInForce.wireName
    fun timeInForce => format.timeInForceText timeInForce.map where
  placeholder := by
    refine ⟨_, apart.timeInForce.1, apart.timeInForce.2, fun timeInForce => ?_⟩
    cases named : timeInForce.wireName with
    | some name => exact lawful.timeInForceText named
    | none => cases timeInForce <;> first | rfl | cases named
  known {timeInForce name} named := by cases timeInForce <;> cases named <;> decide
  distinct {timeInForce other name} named same := by
    cases timeInForce <;> cases named <;> cases other <;>
      first | rfl | simp [Roq.TimeInForce.wireName] at same

end Format

/-! ## Frames and their fields -/

/-- What an `add_order` frame says, as it is spelled. -/
structure AddOrderFields where
  token : String
  clOrdId : String
  symbol : String
  side : String
  orderType : String
  orderQty : String
  timeInForce : Option String
  limitPrice : Option String
  reqId : String
deriving DecidableEq

namespace AddOrderFields

/-- The frame that says it. -/
def text (fields : AddOrderFields) : String :=
  r"{" ++
    r#""method":"add_order","# ++
    r#""params":{"# ++
    r#""token":""# ++ fields.token ++ r#"","# ++
    r#""cl_ord_id":""# ++ fields.clOrdId ++ r#"","# ++
    r#""symbol":""# ++ fields.symbol ++ r#"","# ++
    r#""side":""# ++ fields.side ++ r#"","# ++
    r#""order_type":""# ++ fields.orderType ++ r#"","# ++
    r#""order_qty":"# ++ fields.orderQty ++
    (match fields.timeInForce with
    | some timeInForce => r#","time_in_force":""# ++ timeInForce ++ r#"""#
    | none => "") ++
    (match fields.limitPrice with
    | some limitPrice => r#","limit_price":"# ++ limitPrice
    | none => "") ++
    r#"},"req_id":"# ++ fields.reqId ++ r"}"

/-- The end of the frame between its quotes, from the order quantity on. -/
def lastPieces (fields : AddOrderFields) : List String :=
  match fields.timeInForce, fields.limitPrice with
  | none, none => [":" ++ fields.orderQty ++ r"},", "req_id", ":" ++ fields.reqId ++ r"}"]
  | some timeInForce, none =>
    [":" ++ fields.orderQty ++ ",", "time_in_force", ":", timeInForce, r"},", "req_id",
      ":" ++ fields.reqId ++ r"}"]
  | none, some limitPrice =>
    [":" ++ fields.orderQty ++ ",", "limit_price", ":" ++ limitPrice ++ r"},", "req_id",
      ":" ++ fields.reqId ++ r"}"]
  | some timeInForce, some limitPrice =>
    [":" ++ fields.orderQty ++ ",", "time_in_force", ":", timeInForce, ",", "limit_price",
      ":" ++ limitPrice ++ r"},", "req_id", ":" ++ fields.reqId ++ r"}"]

/-- What stands between the quotes of the frame. -/
def pieces (fields : AddOrderFields) : List String :=
  [r"{", "method", ":", "add_order", ",", "params", r":{", "token", ":", fields.token, ",",
    "cl_ord_id", ":", fields.clOrdId, ",", "symbol", ":", fields.symbol, ",", "side", ":",
    fields.side, ",", "order_type", ":", fields.orderType, ",", "order_qty"] ++ fields.lastPieces

theorem toList_text (fields : AddOrderFields) :
    fields.text.toList = ['"'].intercalate (fields.pieces.map String.toList) := by
  rcases fields with ⟨token, clOrdId, symbol, side, orderType, orderQty, timeInForce, limitPrice,
    reqId⟩
  unfold text pieces lastPieces
  cases timeInForce <;> cases limitPrice <;> simp

/-- No field has a quote. -/
def Unquoted (fields : AddOrderFields) : Prop := ∀ piece ∈ fields.pieces, '"' ∉ piece.toList

theorem unquoted_of {fields : AddOrderFields} (token : '"' ∉ fields.token.toList)
    (clOrdId : '"' ∉ fields.clOrdId.toList) (symbol : '"' ∉ fields.symbol.toList)
    (side : '"' ∉ fields.side.toList) (orderType : '"' ∉ fields.orderType.toList)
    (orderQty : '"' ∉ fields.orderQty.toList)
    (timeInForce : ∀ text ∈ fields.timeInForce, '"' ∉ text.toList)
    (limitPrice : ∀ text ∈ fields.limitPrice, '"' ∉ text.toList)
    (reqId : '"' ∉ fields.reqId.toList) : fields.Unquoted := by
  rcases fields with ⟨tokenText, clOrdIdText, symbolText, sideText, orderTypeText, orderQtyText,
    timeInForceText, limitPriceText, reqIdText⟩
  unfold Unquoted pieces lastPieces
  cases timeInForceText <;> cases limitPriceText <;>
    simp_all

/-- Cutting a frame by its quotes gives its pieces. -/
theorem splitOn_text {fields : AddOrderFields} (unquoted : fields.Unquoted) :
    fields.text.toList.splitOn '"' = fields.pieces.map String.toList := by
  rw [toList_text]
  refine List.splitOn_intercalate '"' ?_ (by unfold pieces; simp)
  intro piece member
  obtain ⟨text, there, rfl⟩ := List.mem_map.mp member
  exact unquoted text there

/-- The same frame says the same. -/
theorem eq_of_text_eq {fields fields' : AddOrderFields} (unquoted : fields.Unquoted)
    (unquoted' : fields'.Unquoted) (same : fields.text = fields'.text) :
    fields.symbol = fields'.symbol ∧ fields.side = fields'.side ∧
      fields.orderType = fields'.orderType ∧ fields.timeInForce = fields'.timeInForce := by
  have pieces : fields.pieces = fields'.pieces := by
    refine List.map_injective_iff.mpr (fun _ _ => String.toList_injective) ?_
    rw [← splitOn_text unquoted, ← splitOn_text unquoted', same]
  rcases fields with ⟨token, clOrdId, symbol, side, orderType, orderQty, timeInForce, limitPrice,
    reqId⟩
  rcases fields' with ⟨token', clOrdId', symbol', side', orderType', orderQty', timeInForce',
    limitPrice', reqId'⟩
  unfold AddOrderFields.pieces lastPieces at pieces
  cases timeInForce <;> cases limitPrice <;> cases timeInForce' <;> cases limitPrice' <;>
    simp at pieces <;> simp [pieces]

end AddOrderFields

/-- What the frame says is said in names of the exchange. -/
structure AddOrderFields.Known (fields : AddOrderFields) : Prop where
  side : fields.side ∈ Json.Side.names
  orderType : fields.orderType ∈ Json.OrderType.names
  timeInForce : ∀ name ∈ fields.timeInForce, name ∈ Json.TimeInForce.names

/-! ## What the encoder writes -/

namespace Encoder

/-- What the frame of a request says. -/
def addOrderFields (format : Format) (createOrder : CreateOrder) (order : Order)
    (refData : RefData) (requestId token : String) : AddOrderFields where
  token
  clOrdId := requestId
  symbol := createOrder.symbol
  side := format.sideText createOrder.side.map
  orderType := format.orderTypeText createOrder.orderType.map
  orderQty := format.decimal createOrder.quantity refData.quantityPrecision
  timeInForce :=
    if createOrder.timeInForce ≠ .undefined then
      some (format.timeInForceText createOrder.timeInForce.map)
    else none
  limitPrice := optionalDecimal format createOrder.price refData.pricePrecision
  reqId := toString (packReqId order.userId order.orderId).toNat

theorem text_addOrderFields (format : Format) (createOrder : CreateOrder) (order : Order)
    (refData : RefData) (requestId token : String) :
    (addOrderFields format createOrder order refData requestId token).text =
      addOrderJson format createOrder order refData requestId token := by
  unfold addOrderFields AddOrderFields.text addOrderJson reqIdText optionalDecimal
  dsimp only
  by_cases undefined : createOrder.timeInForce = .undefined <;>
    cases createOrder.price.isNaN <;>
    simp only [undefined, ne_eq, not_true_eq_false, not_false_eq_true, if_true, if_false,
      Bool.false_eq_true, String.append_assoc] <;> rfl

end Encoder

section Requests

variable {format : Format} {order : Order} {refData : RefData} {requestId token : String}
  {createOrder : CreateOrder}

theorem unquoted_addOrderFields (lawful : format.Lawful) (apart : format.Apart)
    (plainToken : Plain token) (plainId : Plain requestId)
    (plainSymbol : Plain createOrder.symbol) :
    (Encoder.addOrderFields format createOrder order refData requestId token).Unquoted := by
  have tokenText := not_quote_mem_of_plain plainToken
  have idText := not_quote_mem_of_plain plainId
  have symbolText := not_quote_mem_of_plain plainSymbol
  have sideText := (Format.spelling_side lawful apart).not_quote_mem createOrder.side
  have orderTypeText :=
    (Format.spelling_orderType lawful apart).not_quote_mem createOrder.orderType
  have timeInForceText :=
    (Format.spelling_timeInForce lawful apart).not_quote_mem createOrder.timeInForce
  have quantityText := apart.decimal createOrder.quantity refData.quantityPrecision
  have priceText := apart.decimal createOrder.price refData.pricePrecision
  have reqIdText : '"' ∉ (toString (Encoder.packReqId order.userId order.orderId).toNat).toList :=
    fun member => absurd (Encoder.isDigit_of_mem_toString member) (by decide)
  refine AddOrderFields.unquoted_of tokenText idText symbolText sideText orderTypeText
    quantityText ?_ ?_ reqIdText
  · intro text member
    unfold Encoder.addOrderFields at member
    dsimp only at member
    split at member
    · cases member
      exact timeInForceText
    · cases member
  · intro text member
    unfold Encoder.addOrderFields optionalDecimal at member
    dsimp only at member
    split at member
    · cases member
    · cases member
      exact priceText

/-- The exchange has names for what is requested; no time in force is a wish too. -/
structure CreateOrder.Supported (createOrder : CreateOrder) : Prop where
  side : createOrder.side.wireName.isSome = true
  orderType : createOrder.orderType.wireName.isSome = true
  timeInForce : createOrder.timeInForce = .undefined ∨
    createOrder.timeInForce.wireName.isSome = true

/-- The frame of a request is the frame of no request for anything else, and
whatever it says it says in names of the exchange. -/
structure CreateOrder.ToldApart (format : Format) (order : Order) (refData : RefData)
    (requestId token : String) (createOrder : CreateOrder) : Prop where
  distinct : ∀ other : CreateOrder, Plain other.symbol →
    Encoder.addOrderJson format other order refData requestId token =
      Encoder.addOrderJson format createOrder order refData requestId token →
    other.symbol = createOrder.symbol ∧ other.side = createOrder.side ∧
      other.orderType = createOrder.orderType ∧ other.timeInForce = createOrder.timeInForce
  known : ∀ fields : AddOrderFields, fields.Unquoted →
    fields.text = Encoder.addOrderJson format createOrder order refData requestId token →
    fields.Known

/-- What the frame of a request says of its time in force. -/
theorem Encoder.timeInForce_addOrderFields :
    (Encoder.addOrderFields format createOrder order refData requestId token).timeInForce =
      if createOrder.timeInForce = .undefined then none
      else some (format.timeInForceText createOrder.timeInForce.map) := by
  unfold Encoder.addOrderFields
  exact ite_not ..

section Apart

variable (lawful : format.Lawful) (apart : format.Apart)
include lawful apart

/-- Supported requests say the same only if they are the same. -/
theorem CreateOrder.Supported.timeInForce_eq (supported : createOrder.Supported)
    {other : CreateOrder}
    (same : (Encoder.addOrderFields format other order refData requestId token).timeInForce =
      (Encoder.addOrderFields format createOrder order refData requestId token).timeInForce) :
    other.timeInForce = createOrder.timeInForce := by
  rw [Encoder.timeInForce_addOrderFields, Encoder.timeInForce_addOrderFields] at same
  by_cases undefined : createOrder.timeInForce = .undefined
  · rw [if_pos undefined] at same
    rw [undefined]
    by_contra defined
    rw [if_neg defined] at same
    cases same
  · have named := supported.timeInForce.resolve_left undefined
    rw [if_neg undefined] at same
    split at same
    · cases same
    · exact (Format.spelling_timeInForce lawful apart).eq_of_text_eq named (Option.some.inj same)

/-- What is written is known if and only if what was asked for is supported. -/
theorem known_addOrderFields_iff :
    (Encoder.addOrderFields format createOrder order refData requestId token).Known ↔
      createOrder.Supported := by
  have side := (Format.spelling_side lawful apart).mem_names_iff createOrder.side
  have orderType := (Format.spelling_orderType lawful apart).mem_names_iff createOrder.orderType
  have timeInForce :=
    (Format.spelling_timeInForce lawful apart).mem_names_iff createOrder.timeInForce
  constructor
  · rintro ⟨sideKnown, typeKnown, forceKnown⟩
    refine ⟨side.mp sideKnown, orderType.mp typeKnown, or_iff_not_imp_left.mpr fun defined => ?_⟩
    rw [Encoder.timeInForce_addOrderFields, if_neg defined] at forceKnown
    exact timeInForce.mp (forceKnown _ rfl)
  · intro supported
    refine ⟨side.mpr supported.side, orderType.mpr supported.orderType, fun name member => ?_⟩
    rw [Encoder.timeInForce_addOrderFields] at member
    split at member
    · cases member
    · next defined =>
      cases member
      exact timeInForce.mpr (supported.timeInForce.resolve_left defined)

/-- **Requests.**  A request is told apart on the wire exactly when the exchange has
names for what it asks. -/
theorem toldApart_iff_supported (plainToken : Plain token) (plainId : Plain requestId)
    (plainSymbol : Plain createOrder.symbol) :
    createOrder.ToldApart format order refData requestId token ↔ createOrder.Supported := by
  have unquoted : ∀ {request : CreateOrder}, Plain request.symbol →
      (Encoder.addOrderFields format request order refData requestId token).Unquoted :=
    fun plain => unquoted_addOrderFields lawful apart plainToken plainId plain
  constructor
  · intro toldApart
    exact (known_addOrderFields_iff lawful apart).mp
      (toldApart.known _ (unquoted plainSymbol) (Encoder.text_addOrderFields ..))
  · intro supported
    constructor
    · intro other plainOther same
      rw [← Encoder.text_addOrderFields, ← Encoder.text_addOrderFields] at same
      obtain ⟨symbol, side, orderType, timeInForce⟩ :=
        AddOrderFields.eq_of_text_eq (unquoted plainOther) (unquoted plainSymbol) same
      exact ⟨symbol, (Format.spelling_side lawful apart).eq_of_text_eq supported.side side,
        (Format.spelling_orderType lawful apart).eq_of_text_eq supported.orderType orderType,
        supported.timeInForce_eq lawful apart timeInForce⟩
    · intro fields unquotedFields same
      rw [← Encoder.text_addOrderFields] at same
      obtain ⟨-, side, orderType, timeInForce⟩ :=
        AddOrderFields.eq_of_text_eq unquotedFields (unquoted plainSymbol) same
      have known := (@known_addOrderFields_iff format order refData requestId token createOrder
        lawful apart).mpr supported
      exact ⟨side ▸ known.side, orderType ▸ known.orderType, timeInForce ▸ known.timeInForce⟩

end Apart

end Requests

theorem wholeFormat_apart : wholeFormat.Apart where
  decimal _ _ member := absurd (Encoder.isDigit_of_mem_toString member) (by decide)
  side := by decide
  orderType := by decide
  timeInForce := by decide

/-- A limit order. -/
theorem toldApart_iff_supported_limit_order :
    (CreateOrder.mk "A1" "BTC/USD" .buy .limit .gtc 2.0 100.0).ToldApart wholeFormat
        ⟨7, 1000, 0, "", ""⟩ ⟨none, none⟩ "roq-1" "T" ↔
      (CreateOrder.mk "A1" "BTC/USD" .buy .limit .gtc 2.0 100.0).Supported :=
  @toldApart_iff_supported wholeFormat ⟨7, 1000, 0, "", ""⟩ ⟨none, none⟩ "roq-1" "T"
    ⟨"A1", "BTC/USD", .buy, .limit, .gtc, 2.0, 100.0⟩ wholeFormat_lawful wholeFormat_apart
    (by decide) (by decide) (by decide)

/-- Fill or kill goes out as the same frame as good till crossing. -/
theorem fillOrKill_not_toldApart :
    ¬ ∀ (format : Format) (order : Order) (refData : RefData) (requestId token : String)
      (createOrder : CreateOrder), format.Lawful → format.Apart → Plain token →
      Plain requestId → Plain createOrder.symbol →
      createOrder.ToldApart format order refData requestId token := by
  intro toldApart
  have told := toldApart wholeFormat ⟨7, 1000, 0, "", ""⟩ ⟨none, none⟩ "roq-1" "T"
    ⟨"A1", "BTC/USD", .buy, .limit, .fok, 2.0, 100.0⟩ wholeFormat_lawful wholeFormat_apart
    (by decide) (by decide) (by decide)
  obtain ⟨-, -, -, same⟩ := told.distinct ⟨"A1", "BTC/USD", .buy, .limit, .gtx, 2.0, 100.0⟩
    (by decide) rfl
  cases same

end RoqKraken
