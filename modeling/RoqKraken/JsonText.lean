import Mathlib.Data.List.Basic

/-!
# JSON texts

A reader for JSON texts (RFC 8259), a compact writer, and the round trip between
the two: `JsonText.read_render`.  Numbers stay the texts they are; what a text
must look like to be one is `isNumber`.  Of the `\u` escapes the reader takes
those that stand for a character by themselves.
-/

namespace JsonText

inductive Value where
  | null
  | bool (value : Bool)
  | number (text : String)
  | string (text : String)
  | array (items : List Value)
  | object (members : List (String × Value))

def Value.isString : Value → Bool
  | .string _ => true
  | _ => false

/-! ## Numbers -/

/-- How far a number has been read. -/
inductive NumberState where
  | start | minus | zero | integer | point | fraction | exponent | exponentSign | exponentDigits
deriving DecidableEq, Repr

namespace NumberState

def next : NumberState → Char → Option NumberState
  | start, c =>
    if c = '-' then some minus else if c = '0' then some zero
    else if c.isDigit then some integer else none
  | minus, c => if c = '0' then some zero else if c.isDigit then some integer else none
  | zero, c =>
    if c = '.' then some point else if c = 'e' ∨ c = 'E' then some exponent else none
  | integer, c =>
    if c.isDigit then some integer else if c = '.' then some point
    else if c = 'e' ∨ c = 'E' then some exponent else none
  | point, c => if c.isDigit then some fraction else none
  | fraction, c =>
    if c.isDigit then some fraction else if c = 'e' ∨ c = 'E' then some exponent else none
  | exponent, c =>
    if c = '+' ∨ c = '-' then some exponentSign else if c.isDigit then some exponentDigits else none
  | exponentSign, c => if c.isDigit then some exponentDigits else none
  | exponentDigits, c => if c.isDigit then some exponentDigits else none

def accepts : NumberState → Bool
  | zero | integer | fraction | exponentDigits => true
  | start | minus | point | exponent | exponentSign => false

/-- The state after some characters. -/
def after (state : NumberState) (text : List Char) : Option NumberState :=
  text.foldlM next state

end NumberState

/-- The grammar of numbers. -/
def isNumber (text : List Char) : Bool :=
  (NumberState.start.after text).any NumberState.accepts

/-- The characters numbers are made of. -/
def isNumberChar (c : Char) : Bool :=
  c.isDigit || c = '-' || c = '+' || c = '.' || c = 'e' || c = 'E'

theorem NumberState.isNumberChar_of_next {state state' : NumberState} {c : Char}
    (step : state.next c = some state') : isNumberChar c = true := by
  unfold isNumberChar
  by_contra other
  simp only [Bool.or_eq_true, decide_eq_true_eq, not_or] at other
  obtain ⟨⟨⟨⟨⟨digit, minus⟩, plus⟩, point⟩, e⟩, E⟩ := other
  have zero : c ≠ '0' := by
    rintro rfl
    exact digit (by decide)
  cases state <;> simp [next, *] at step

theorem isNumberChar_of_mem {text : List Char} (number : isNumber text = true) :
    ∀ c ∈ text, isNumberChar c = true := by
  have general : ∀ {text : List Char} {state state' : NumberState},
      state.after text = some state' → ∀ c ∈ text, isNumberChar c = true := by
    intro text
    induction text with
    | nil => simp
    | cons c text ih =>
      intro state state' done
      simp only [NumberState.after, List.foldlM_cons, Option.bind_eq_bind,
        Option.bind_eq_some_iff] at done
      obtain ⟨next, first, rest⟩ := done
      exact List.forall_mem_cons.mpr ⟨NumberState.isNumberChar_of_next first, ih rest⟩
  obtain ⟨state, done, -⟩ := (Option.any_eq_true ..).mp number
  exact general done

/-- A number has at least one character. -/
theorem ne_nil_of_isNumber {text : List Char} (number : isNumber text = true) : text ≠ [] := by
  rintro rfl
  cases number

/-- Decimal digits of a positive number lead to the `integer` state. -/
theorem after_toDigits {n : Nat} (positive : 0 < n) :
    NumberState.start.after (Nat.toDigits 10 n) = some .integer := by
  induction n using Nat.strongRecOn with
  | ind n ih =>
    by_cases small : n < 10
    · have digit : ∀ n < 10, 0 < n → NumberState.start.after [n.digitChar] = some .integer := by
        decide
      rw [Nat.toDigits_of_lt_base small]
      exact digit n small positive
    · have shorter : 0 < n / 10 := Nat.div_pos (Nat.le_of_not_lt small) (by decide)
      have last : ∀ d < 10, NumberState.integer.next d.digitChar = some .integer := by decide
      rw [Nat.toDigits_of_base_le (by decide) (Nat.le_of_not_lt small), NumberState.after,
        List.foldlM_append]
      have front := ih (n / 10) (Nat.div_lt_self positive (by decide)) shorter
      simp only [NumberState.after] at front
      simp [front, last (n % 10) (Nat.mod_lt n (by decide))]

/-- The decimal digits of a natural number are a number. -/
theorem isNumber_toDigits (n : Nat) : isNumber (Nat.toDigits 10 n) = true := by
  rcases Nat.eq_zero_or_pos n with rfl | positive
  · decide
  · rw [isNumber, after_toDigits positive]
    rfl

/-- The value of a number without sign, fraction and exponent. -/
def Value.natValue : Value → Option Nat
  | .number text =>
    if text.toList.all Char.isDigit then some (Nat.ofDigitChars 10 text.toList 0) else none
  | _ => none

theorem natValue_toString (n : Nat) : (Value.number (toString n)).natValue = some n := by
  have digits : (toString n).toList = Nat.toDigits 10 n := Nat.toList_repr
  have all : (Nat.toDigits 10 n).all Char.isDigit = true :=
    List.all_eq_true.mpr fun c member => Nat.isDigit_of_mem_toDigits (by decide) (by decide) member
  simp only [Value.natValue, digits, all, if_true, Nat.ofDigitChars_ten_toDigits]

/-! ## Strings -/

def hexDigit (n : Nat) : Char := if n < 10 then Char.ofNat (48 + n) else Char.ofNat (87 + n)

def hexValue (c : Char) : Option Nat :=
  if c.isDigit then some (c.toNat - 48)
  else if 'a' ≤ c ∧ c ≤ 'f' then some (c.toNat - 87)
  else if 'A' ≤ c ∧ c ≤ 'F' then some (c.toNat - 55)
  else none

/-- The character a backslash and `c` stand for. -/
def unescape (c : Char) : Option Char :=
  if c = '"' then some '"' else if c = '\\' then some '\\' else if c = '/' then some '/'
  else if c = 'b' then some '\x08' else if c = 'f' then some '\x0c'
  else if c = 'n' then some '\n' else if c = 'r' then some '\r' else if c = 't' then some '\t'
  else none

/-- Where in a string the reader is: between characters, after a backslash, or in
a `\u` escape with the value so far and the number of digits after the next. -/
inductive StringState where
  | plain
  | escaped
  | unicode (code left : Nat)

/-- The characters of a string up to its closing quote, and what follows. -/
def readChars : StringState → List Char → Option (List Char × List Char)
  | _, [] => none
  | .plain, c :: rest =>
    if c = '"' then some ([], rest)
    else if c = '\\' then readChars .escaped rest
    else if c.toNat < 32 then none
    else (readChars .plain rest).map fun r => (c :: r.1, r.2)
  | .escaped, c :: rest =>
    if c = 'u' then readChars (.unicode 0 3) rest
    else (unescape c).bind fun c => (readChars .plain rest).map fun r => (c :: r.1, r.2)
  | .unicode code left, c :: rest =>
    (hexValue c).bind fun digit =>
      match left with
      | 0 =>
        if (code * 16 + digit).isValidChar then
          (readChars .plain rest).map fun r => (Char.ofNat (code * 16 + digit) :: r.1, r.2)
        else none
      | left + 1 => readChars (.unicode (code * 16 + digit) left) rest

/-- A character as a writer puts it into a string. -/
def escapeChar (c : Char) : List Char :=
  if c = '"' then ['\\', '"'] else if c = '\\' then ['\\', '\\']
  else if c.toNat < 32 then
    ['\\', 'u', '0', '0', hexDigit (c.toNat / 16), hexDigit (c.toNat % 16)]
  else [c]

def quote (text : String) : List Char := '"' :: (text.toList.flatMap escapeChar ++ ['"'])

/-- No character of the text has to be escaped. -/
def Plain (text : String) : Prop := ∀ c ∈ text.toList, c ≠ '"' ∧ c ≠ '\\' ∧ 32 ≤ c.toNat

instance (text : String) : Decidable (Plain text) :=
  List.decidableBAll (fun c => c ≠ '"' ∧ c ≠ '\\' ∧ 32 ≤ c.toNat) text.toList

theorem quote_of_plain {text : String} (plain : Plain text) :
    quote text = '"' :: (text.toList ++ ['"']) := by
  have same : ∀ c ∈ text.toList, escapeChar c = [c] := by
    intro c member
    obtain ⟨quote, backslash, control⟩ := plain c member
    simp [escapeChar, quote, backslash, Nat.not_lt.mpr control]
  rw [quote, List.flatMap_congr same]
  simp

theorem hexValue_hexDigit : ∀ n < 16, hexValue (hexDigit n) = some n := by decide

/-- The reader undoes one escape. -/
theorem readChars_escapeChar (c : Char) (rest : List Char) :
    readChars .plain (escapeChar c ++ rest) =
      (readChars .plain rest).map fun r => (c :: r.1, r.2) := by
  unfold escapeChar
  split
  · next quote =>
    subst quote
    simp [readChars, unescape]
  · split
    · next backslash =>
      subst backslash
      simp [readChars, unescape]
    · split
      · next control =>
        have high := hexValue_hexDigit (c.toNat / 16) (by omega)
        have low := hexValue_hexDigit (c.toNat % 16) (by omega)
        have zero : hexValue '0' = some 0 := by decide
        have code : c.toNat / 16 * 16 + c.toNat % 16 = c.toNat := by omega
        have valid : c.toNat.isValidChar := .inl (by omega)
        simp [readChars, zero, high, low, code, valid]
      · next quote backslash control =>
        simp [readChars, quote, backslash, control]

theorem readChars_quote (text : List Char) (rest : List Char) :
    readChars .plain (text.flatMap escapeChar ++ '"' :: rest) = some (text, rest) := by
  induction text with
  | nil => simp [readChars]
  | cons c text ih =>
    rw [List.flatMap_cons, List.append_assoc, readChars_escapeChar, ih]
    rfl

/-! ## Values -/

def isSpace (c : Char) : Bool := c = ' ' || c = '\t' || c = '\n' || c = '\r'

def skip (text : List Char) : List Char := text.dropWhile isSpace

def readNumber (text : List Char) : Option (Value × List Char) :=
  let number := text.takeWhile isNumberChar
  if isNumber number then
    some (.number (String.ofList number), text.dropWhile isNumberChar)
  else none

def readLiteral (literal : String) (value : Value) (text : List Char) :
    Option (Value × List Char) :=
  if literal.toList.isPrefixOf text then some (value, text.drop literal.toList.length) else none

mutual

/-- A value at the head of a text, and what follows it. -/
def readValue : Nat → List Char → Option (Value × List Char)
  | 0, _ => none
  | fuel + 1, text =>
    match skip text with
    | [] => none
    | c :: rest =>
      if c = '"' then
        (readChars .plain rest).map fun r => (.string (String.ofList r.1), r.2)
      else if c = '[' then
        if (skip rest).head? = some ']' then
          some (.array [], (skip rest).tail)
        else
          (readValue fuel rest).bind fun item =>
            (readItems fuel item.2).map fun items => (.array (item.1 :: items.1), items.2)
      else if c = '{' then
        if (skip rest).head? = some '}' then
          some (.object [], (skip rest).tail)
        else
          (readMember fuel rest).bind fun member =>
            (readMembers fuel member.2).map fun members =>
              (.object (member.1 :: members.1), members.2)
      else
        readLiteral "null" .null (c :: rest) <|> readLiteral "true" (.bool true) (c :: rest) <|>
          readLiteral "false" (.bool false) (c :: rest) <|> readNumber (c :: rest)

/-- The items of an array after the first, up to the closing bracket. -/
def readItems : Nat → List Char → Option (List Value × List Char)
  | 0, _ => none
  | fuel + 1, text =>
    match skip text with
    | ']' :: rest => some ([], rest)
    | ',' :: rest =>
      (readValue fuel rest).bind fun item =>
        (readItems fuel item.2).map fun items => (item.1 :: items.1, items.2)
    | _ => none

/-- The members of an object after the first, up to the closing brace. -/
def readMembers : Nat → List Char → Option (List (String × Value) × List Char)
  | 0, _ => none
  | fuel + 1, text =>
    match skip text with
    | '}' :: rest => some ([], rest)
    | ',' :: rest =>
      (readMember fuel rest).bind fun member =>
        (readMembers fuel member.2).map fun members => (member.1 :: members.1, members.2)
    | _ => none

/-- A key, a colon and a value. -/
def readMember : Nat → List Char → Option ((String × Value) × List Char)
  | 0, _ => none
  | fuel + 1, text =>
    match skip text with
    | '"' :: rest =>
      (readChars .plain rest).bind fun key =>
        match skip key.2 with
        | ':' :: rest =>
          (readValue fuel rest).map fun value =>
            ((String.ofList key.1, value.1), value.2)
        | _ => none
    | _ => none

end

/-- The value a whole text stands for, if it is a JSON text. -/
def read (text : List Char) : Option Value :=
  (readValue (text.length + 1) text).bind fun result =>
    if skip result.2 = [] then some result.1 else none

/-! ## Writing -/

mutual

/-- The compact text of a value. -/
def render : Value → List Char
  | .null => ['n', 'u', 'l', 'l']
  | .bool true => ['t', 'r', 'u', 'e']
  | .bool false => ['f', 'a', 'l', 's', 'e']
  | .number text => text.toList
  | .string text => quote text
  | .array [] => ['[', ']']
  | .array (item :: items) => '[' :: (render item ++ renderItems items)
  | .object [] => ['{', '}']
  | .object ((key, value) :: members) =>
    '{' :: (quote key ++ ':' :: (render value ++ renderMembers members))

def renderItems : List Value → List Char
  | [] => [']']
  | item :: items => ',' :: (render item ++ renderItems items)

def renderMembers : List (String × Value) → List Char
  | [] => ['}']
  | (key, value) :: members =>
    ',' :: (quote key ++ ':' :: (render value ++ renderMembers members))

end

mutual

/-- Every number in the value is one. -/
def Value.valid : Value → Bool
  | .number text => isNumber text.toList
  | .array items => validItems items
  | .object members => validMembers members
  | _ => true

def validItems : List Value → Bool
  | [] => true
  | item :: items => item.valid && validItems items

def validMembers : List (String × Value) → Bool
  | [] => true
  | (_, value) :: members => value.valid && validMembers members

end

mutual

/-- No object in the value repeats a key. -/
def Value.uniqueKeys : Value → Bool
  | .array items => uniqueItems items
  | .object members => decide (members.map Prod.fst).Nodup && uniqueMembers members
  | _ => true

def uniqueItems : List Value → Bool
  | [] => true
  | item :: items => item.uniqueKeys && uniqueItems items

def uniqueMembers : List (String × Value) → Bool
  | [] => true
  | (_, value) :: members => value.uniqueKeys && uniqueMembers members

end

@[simp] theorem validMembers_append (left right : List (String × Value)) :
    validMembers (left ++ right) = (validMembers left && validMembers right) := by
  induction left with
  | nil => rfl
  | cons member left ih => simp [validMembers, ih, Bool.and_assoc]

/-! ## Round trip -/

mutual

/-- The depth the reader reaches on the text of a value. -/
def depth : Value → Nat
  | .array [] => 1
  | .array (item :: items) => 1 + max (depth item) (depthItems items)
  | .object [] => 1
  | .object ((_, value) :: members) => 1 + max (1 + depth value) (depthMembers members)
  | _ => 1

def depthItems : List Value → Nat
  | [] => 1
  | item :: items => 1 + max (depth item) (depthItems items)

def depthMembers : List (String × Value) → Nat
  | [] => 1
  | (_, value) :: members => 1 + max (1 + depth value) (depthMembers members)

end

/-- What follows does not prolong a number. -/
def Stops (rest : List Char) : Prop := ∀ c ∈ rest.head?, isNumberChar c = false

theorem readNumber_append {text : String} (number : isNumber text.toList = true)
    {rest : List Char} (stops : Stops rest) :
    readNumber (text.toList ++ rest) = some (.number text, rest) := by
  have inside := isNumberChar_of_mem number
  have taken : (text.toList ++ rest).takeWhile isNumberChar = text.toList := by
    rw [List.takeWhile_append_of_pos inside]
    cases rest with
    | nil => simp
    | cons c rest => simp [stops c rfl]
  have left : (text.toList ++ rest).dropWhile isNumberChar = rest := by
    rw [List.dropWhile_append_of_pos inside]
    cases rest with
    | nil => rfl
    | cons c rest => simp [stops c rfl]
  simp only [readNumber, taken, left, number, if_true, String.ofList_toList]

/-- A number character starts none of the other values. -/
theorem of_isNumberChar {c : Char} (number : isNumberChar c = true) :
    isSpace c = false ∧ c ≠ '"' ∧ c ≠ '[' ∧ c ≠ ']' ∧ c ≠ '{' ∧ c ≠ 'n' ∧ c ≠ 't' ∧ c ≠ 'f' := by
  refine ⟨?_, ?_, ?_, ?_, ?_, ?_, ?_, ?_⟩
  · by_contra space
    simp only [isSpace, Bool.or_eq_true, decide_eq_true_eq, Bool.not_eq_false] at space
    rcases space with ((rfl | rfl) | rfl) | rfl <;> exact absurd number (by decide)
  all_goals
    rintro rfl
    exact absurd number (by decide)

/-- The text of a value starts with a character of its own. -/
theorem render_cons {value : Value} (valid : value.valid = true) :
    ∃ c rest, render value = c :: rest ∧ isSpace c = false ∧ c ≠ ']' := by
  cases value with
  | number text =>
    obtain ⟨c, rest, same⟩ := List.exists_cons_of_ne_nil (ne_nil_of_isNumber valid)
    have number := isNumberChar_of_mem valid c (by simp [same])
    obtain ⟨space, -, -, bracket, -⟩ := of_isNumberChar number
    exact ⟨c, rest, same, space, bracket⟩
  | bool value => cases value <;> exact ⟨_, _, rfl, by decide, by decide⟩
  | array items => cases items <;> exact ⟨_, _, rfl, by decide, by decide⟩
  | object members =>
    rcases members with _ | ⟨⟨_, _⟩, _⟩ <;> exact ⟨_, _, rfl, by decide, by decide⟩
  | _ => exact ⟨_, _, rfl, by decide, by decide⟩

theorem skip_cons {c : Char} {rest : List Char} (space : isSpace c = false) :
    skip (c :: rest) = c :: rest := by
  simp [skip, space]

theorem readValue_number {text : String} (number : isNumber text.toList = true) {rest : List Char}
    (stops : Stops rest) (fuel : Nat) :
    readValue (fuel + 1) (text.toList ++ rest) = some (.number text, rest) := by
  obtain ⟨c, tail, same⟩ := List.exists_cons_of_ne_nil (ne_nil_of_isNumber number)
  have read := readNumber_append number stops
  rw [same] at read ⊢
  obtain ⟨space, quote, bracket, -, brace, n, t, f⟩ :=
    of_isNumberChar (isNumberChar_of_mem number c (by simp [same]))
  rw [List.cons_append] at read ⊢
  simp only [readValue, skip_cons space, quote, bracket, brace, if_false, readLiteral]
  simpa [Ne.symm n, Ne.symm t, Ne.symm f] using read

theorem readChars_quote_tail (text : String) (rest : List Char) :
    (readChars .plain (text.toList.flatMap escapeChar ++ '"' :: rest)).map
      (fun r => (Value.string (String.ofList r.1), r.2)) = some (.string text, rest) := by
  rw [readChars_quote, Option.map_some, String.ofList_toList]

theorem stops_renderItems (items : List Value) (rest : List Char) :
    Stops (renderItems items ++ rest) := by
  cases items <;> simp [renderItems, Stops] <;> decide

theorem stops_renderMembers (members : List (String × Value)) (rest : List Char) :
    Stops (renderMembers members ++ rest) := by
  rcases members with _ | ⟨⟨_, _⟩, _⟩ <;> simp [renderMembers, Stops] <;> decide

mutual

/-- The reader takes the text of a value off the head of a longer text. -/
theorem readValue_render : ∀ (value : Value) (fuel : Nat) (rest : List Char),
    value.valid = true → depth value ≤ fuel → Stops rest →
      readValue fuel (render value ++ rest) = some (value, rest)
  | .null, fuel + 1, rest, _, _, _ => by
    simp [render, readValue, skip, isSpace, readLiteral]
  | .bool true, fuel + 1, rest, _, _, _ => by
    simp [render, readValue, skip, isSpace, readLiteral]
  | .bool false, fuel + 1, rest, _, _, _ => by
    simp [render, readValue, skip, isSpace, readLiteral]
  | .number text, fuel + 1, rest, valid, _, stops => readValue_number valid stops fuel
  | .string text, fuel + 1, rest, _, _, _ => by
    have read := readChars_quote_tail text rest
    simpa [render, quote, readValue, skip_cons, isSpace] using read
  | .array [], fuel + 1, rest, _, _, _ => by
    simp [render, readValue, skip, isSpace]
  | .array (item :: items), fuel + 1, rest, valid, deep, _ => by
    simp only [Value.valid, validItems, Bool.and_eq_true] at valid
    simp only [depth] at deep
    have first := readValue_render item fuel (renderItems items ++ rest) valid.1 (by omega)
      (stops_renderItems items rest)
    have later := readItems_render items fuel rest valid.2 (by omega)
    obtain ⟨c, tail, head, space, bracket⟩ := render_cons valid.1
    have other : (skip (render item ++ (renderItems items ++ rest))).head? ≠ some ']' := by
      simpa [head, skip_cons space] using bracket
    simp [render, readValue, skip_cons, isSpace, other, first, later]
  | .object [], fuel + 1, rest, _, _, _ => by
    simp [render, readValue, skip, isSpace]
  | .object ((key, value) :: members), fuel + 1, rest, valid, deep, _ => by
    simp only [Value.valid, validMembers, Bool.and_eq_true] at valid
    simp only [depth] at deep
    have first := readMember_render key value fuel (renderMembers members ++ rest) valid.1
      (by omega) (stops_renderMembers members rest)
    have later := readMembers_render members fuel rest valid.2 (by omega)
    have other : (skip (quote key ++ ':' :: (render value ++
        (renderMembers members ++ rest)))).head? ≠ some '}' := by
      simp [quote, skip_cons, isSpace]
    simp [render, readValue, skip_cons, isSpace, other, first, later]
  | .null, 0, _, _, deep, _ | .bool _, 0, _, _, deep, _ | .number _, 0, _, _, deep, _
  | .string _, 0, _, _, deep, _ | .array [], 0, _, _, deep, _ | .array (_ :: _), 0, _, _, deep, _
  | .object [], 0, _, _, deep, _ | .object ((_, _) :: _), 0, _, _, deep, _ => by
    simp [depth] at deep

theorem readItems_render : ∀ (items : List Value) (fuel : Nat) (rest : List Char),
    validItems items = true → depthItems items ≤ fuel →
      readItems fuel (renderItems items ++ rest) = some (items, rest)
  | [], fuel + 1, rest, _, _ => by
    simp [renderItems, readItems, skip, isSpace]
  | item :: items, fuel + 1, rest, valid, deep => by
    simp only [validItems, Bool.and_eq_true] at valid
    simp only [depthItems] at deep
    have first := readValue_render item fuel (renderItems items ++ rest) valid.1 (by omega)
      (stops_renderItems items rest)
    have later := readItems_render items fuel rest valid.2 (by omega)
    simp [renderItems, readItems, skip_cons, isSpace, first, later]
  | [], 0, _, _, deep | _ :: _, 0, _, _, deep => by
    simp [depthItems] at deep

theorem readMembers_render : ∀ (members : List (String × Value)) (fuel : Nat) (rest : List Char),
    validMembers members = true → depthMembers members ≤ fuel →
      readMembers fuel (renderMembers members ++ rest) = some (members, rest)
  | [], fuel + 1, rest, _, _ => by
    simp [renderMembers, readMembers, skip, isSpace]
  | (key, value) :: members, fuel + 1, rest, valid, deep => by
    simp only [validMembers, Bool.and_eq_true] at valid
    simp only [depthMembers] at deep
    have first := readMember_render key value fuel (renderMembers members ++ rest) valid.1
      (by omega) (stops_renderMembers members rest)
    have later := readMembers_render members fuel rest valid.2 (by omega)
    simp [renderMembers, readMembers, skip_cons, isSpace, first, later]
  | [], 0, _, _, deep | (_, _) :: _, 0, _, _, deep => by
    simp [depthMembers] at deep

theorem readMember_render (key : String) (value : Value) : ∀ (fuel : Nat) (rest : List Char),
    value.valid = true → 1 + depth value ≤ fuel → Stops rest →
      readMember fuel (quote key ++ ':' :: (render value ++ rest)) = some ((key, value), rest)
  | fuel + 1, rest, valid, deep, stops => by
    have read := readChars_quote key.toList (':' :: (render value ++ rest))
    have later := readValue_render value fuel rest valid (by omega) stops
    simp [quote, readMember, skip_cons, isSpace, read, later]
  | 0, _, _, deep, _ => by omega

end

mutual

/-- Each level of depth has a character of its own. -/
theorem depth_le_length : ∀ value : Value, value.valid = true →
    depth value ≤ (render value).length
  | .number text, valid => List.length_pos_iff.mpr (ne_nil_of_isNumber valid)
  | .null, _ => by simp [depth, render]
  | .bool true, _ => by simp [depth, render]
  | .bool false, _ => by simp [depth, render]
  | .string _, _ => by simp [depth, render, quote]
  | .array [], _ => by simp [depth, render]
  | .array (item :: items), valid => by
    simp only [Value.valid, validItems, Bool.and_eq_true] at valid
    have first := depth_le_length item valid.1
    have later := depthItems_le_length items valid.2
    simp only [depth, render, List.length_cons, List.length_append]
    omega
  | .object [], _ => by simp [depth, render]
  | .object ((key, value) :: members), valid => by
    simp only [Value.valid, validMembers, Bool.and_eq_true] at valid
    have first := depth_le_length value valid.1
    have later := depthMembers_le_length members valid.2
    simp only [depth, render, List.length_cons, List.length_append]
    omega

theorem depthItems_le_length : ∀ items : List Value, validItems items = true →
    depthItems items ≤ (renderItems items).length
  | [], _ => by simp [depthItems, renderItems]
  | item :: items, valid => by
    simp only [validItems, Bool.and_eq_true] at valid
    have first := depth_le_length item valid.1
    have later := depthItems_le_length items valid.2
    simp only [depthItems, renderItems, List.length_cons, List.length_append]
    omega

theorem depthMembers_le_length : ∀ members : List (String × Value),
    validMembers members = true → depthMembers members ≤ (renderMembers members).length
  | [], _ => by simp [depthMembers, renderMembers]
  | (key, value) :: members, valid => by
    simp only [validMembers, Bool.and_eq_true] at valid
    have first := depth_le_length value valid.1
    have later := depthMembers_le_length members valid.2
    simp only [depthMembers, renderMembers, List.length_cons, List.length_append]
    omega

end

/-- **Round trip.**  The text of a value whose numbers are numbers is read as
that value. -/
theorem read_render {value : Value} (valid : value.valid = true) :
    read (render value) = some value := by
  have enough : depth value ≤ (render value).length + 1 :=
    Nat.le_succ_of_le (depth_le_length value valid)
  have result := readValue_render value _ [] valid enough (by simp [Stops])
  rw [List.append_nil] at result
  unfold read
  rw [result, Option.bind_some]
  exact if_pos rfl

end JsonText
