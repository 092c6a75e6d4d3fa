import Mathlib.Data.List.Basic

/-!
# Form data

How a body of type `application/x-www-form-urlencoded` is read: it is split at
the ampersands, each part is cut at its first equals sign, and in both names and
values a plus sign stands for a space and a percent triplet for a byte.

`FormData.decode_cons` reads parts that need no escapes.
-/

namespace FormData

/-- The bytes of a text, in UTF-8. -/
def bytes (text : String) : List UInt8 := text.toList.flatMap String.utf8EncodeChar

@[simp] theorem bytes_append (text other : String) :
    bytes (text ++ other) = bytes text ++ bytes other := by
  simp [bytes]

/-! ## Reading a body -/

/-- `&`, `=`, `+` and `%`. -/
def ampersand : UInt8 := 38
def equals : UInt8 := 61
def plus : UInt8 := 43
def percent : UInt8 := 37

def hexDigit? (byte : UInt8) : Option UInt8 :=
  if 48 ≤ byte ∧ byte ≤ 57 then some (byte - 48)
  else if 65 ≤ byte ∧ byte ≤ 70 then some (byte - 55)
  else if 97 ≤ byte ∧ byte ≤ 102 then some (byte - 87)
  else none

/-- A percent sign that no two digits follow stands for itself. -/
def percentDecode : List UInt8 → List UInt8
  | byte :: high :: low :: rest =>
    if byte = percent then
      match hexDigit? high, hexDigit? low with
      | some high, some low => (16 * high + low) :: percentDecode rest
      | _, _ => byte :: percentDecode (high :: low :: rest)
    else byte :: percentDecode (high :: low :: rest)
  | byte :: rest => byte :: percentDecode rest
  | [] => []

/-- A name or a value. -/
def unescape (part : List UInt8) : List UInt8 :=
  percentDecode (part.map fun byte => if byte = plus then 32 else byte)

/-- Without an equals sign, all is the name. -/
def pair (part : List UInt8) : List UInt8 × List UInt8 :=
  (unescape (part.takeWhile (· ≠ equals)), unescape (part.dropWhile (· ≠ equals)).tail)

/-- The pairs of names and values of a body. -/
def decode (body : List UInt8) : List (List UInt8 × List UInt8) :=
  ((body.splitOn ampersand).filter (· ≠ [])).map pair

example : decode (bytes "a=1&&b=x%26y+z&c") =
    [(bytes "a", bytes "1"), (bytes "b", bytes "x&y z"), (bytes "c", [])] := by decide

/-! ## Parts without escapes -/

/-- A byte that stands for itself. -/
def Plain (byte : UInt8) : Prop :=
  byte ≠ ampersand ∧ byte ≠ equals ∧ byte ≠ plus ∧ byte ≠ percent

instance (byte : UInt8) : Decidable (Plain byte) := inferInstanceAs (Decidable (_ ∧ _))

theorem plain_of_all {part : List UInt8} (all : part.all (fun byte => Plain byte) = true) :
    ∀ byte ∈ part, Plain byte := by
  simpa using all

theorem percentDecode_cons {byte : UInt8} (plain : byte ≠ percent) (rest : List UInt8) :
    percentDecode (byte :: rest) = byte :: percentDecode rest := by
  match rest with
  | [] => rfl
  | [_] => rfl
  | high :: low :: rest => rw [percentDecode, if_neg plain]

theorem unescape_plain {part : List UInt8} (plain : ∀ byte ∈ part, Plain byte) :
    unescape part = part := by
  unfold unescape
  induction part with
  | nil => rfl
  | cons byte part ih =>
    obtain ⟨⟨-, -, space, triplet⟩, plain⟩ := List.forall_mem_cons.mp plain
    rw [List.map_cons, if_neg space, percentDecode_cons triplet, ih plain]

theorem pair_plain {name value : List UInt8} (name_plain : ∀ byte ∈ name, Plain byte)
    (value_plain : ∀ byte ∈ value, Plain byte) :
    pair (name ++ equals :: value) = (name, value) := by
  have named : ∀ byte ∈ name, decide (byte ≠ equals) = true :=
    fun byte mem => decide_eq_true (name_plain byte mem).2.1
  have cut : (name ++ equals :: value).takeWhile (· ≠ equals) = name ∧
      (name ++ equals :: value).dropWhile (· ≠ equals) = equals :: value := by
    rw [List.takeWhile_append_of_pos named, List.dropWhile_append_of_pos named]
    simp
  rw [pair, cut.1, cut.2, List.tail_cons, unescape_plain name_plain, unescape_plain value_plain]

theorem not_mem_ampersand {name value : List UInt8} (name_plain : ∀ byte ∈ name, Plain byte)
    (value_plain : ∀ byte ∈ value, Plain byte) :
    ampersand ∉ name ++ equals :: value := by
  intro mem
  rcases List.mem_append.mp mem with mem | mem
  · exact (name_plain _ mem).1 rfl
  · rcases List.mem_cons.mp mem with equal | mem
    · cases equal
    · exact (value_plain _ mem).1 rfl

/-- A body of one part. -/
theorem decode_singleton {name value : List UInt8} (name_plain : ∀ byte ∈ name, Plain byte)
    (value_plain : ∀ byte ∈ value, Plain byte) :
    decode (name ++ equals :: value) = [(name, value)] := by
  rw [decode, List.splitOn_eq_singleton (not_mem_ampersand name_plain value_plain)]
  simp [pair_plain name_plain value_plain]

/-- The first part of a longer body. -/
theorem decode_cons {name value : List UInt8} (name_plain : ∀ byte ∈ name, Plain byte)
    (value_plain : ∀ byte ∈ value, Plain byte) (rest : List UInt8) :
    decode (name ++ equals :: value ++ ampersand :: rest) = (name, value) :: decode rest := by
  rw [decode, List.splitOn_append_cons_self_of_not_mem (not_mem_ampersand name_plain value_plain)]
  simp [decode, pair_plain name_plain value_plain]

/-! ## Decimal numbers -/

theorem plain_of_isDigit {c : Char} (digit : c.isDigit = true) :
    ∀ byte ∈ String.utf8EncodeChar c, Plain byte := by
  obtain ⟨low, high⟩ := Char.isDigit_iff_toNat.mp digit
  rw [← Char.ofNat_toNat c]
  have ten : (List.range 10).all (fun k =>
      (String.utf8EncodeChar (Char.ofNat (48 + k))).all fun byte => Plain byte) = true := by decide
  have found := plain_of_all
    (List.all_eq_true.mp ten (c.toNat - 48) (List.mem_range.mpr (by simp at high; omega)))
  rwa [show 48 + (c.toNat - 48) = c.toNat by simp at low; omega] at found

theorem mem_toString_int {number : Int} {c : Char} (mem : c ∈ (toString number).toList) :
    c.isDigit = true ∨ c = '-' := by
  have digits : ∀ n : Nat, c ∈ n.repr.toList → c.isDigit = true := fun n mem =>
    Nat.isDigit_of_mem_toDigits (by decide) (by decide) (Nat.toList_repr ▸ mem)
  cases number with
  | ofNat n => exact .inl (digits n mem)
  | negSucc n =>
    have sign : toString (Int.negSucc n) = "-" ++ (n + 1).repr := rfl
    rw [sign, String.toList_append, List.mem_append] at mem
    rcases mem with mem | mem
    · exact .inr (by simpa using mem)
    · exact .inl (digits (n + 1) mem)

/-- The bytes of an integer stand for themselves. -/
theorem bytes_toString_plain (number : Int) : ∀ byte ∈ bytes (toString number), Plain byte := by
  intro byte mem
  obtain ⟨c, mem_c, mem_byte⟩ := List.mem_flatMap.mp mem
  rcases mem_toString_int mem_c with digit | rfl
  · exact plain_of_isDigit digit byte mem_byte
  · exact plain_of_all (by decide) byte mem_byte

end FormData
